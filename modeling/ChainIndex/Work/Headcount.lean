/-!
# Counting workers

The count of the workers that are alive.  It stays within its sixteen bits: it
neither passes the greatest word nor drops below zero.
-/

namespace ChainIndex

/-- The count of live workers. -/
structure Headcount where
  /-- The count. -/
  value : UInt16 := 0
deriving DecidableEq, Repr, Inhabited

namespace Headcount

/-- One worker more. -/
def increase (h : Headcount) : Headcount := ⟨if h.value = 0xFFFF then 0xFFFF else h.value + 1⟩

/-- One worker less. -/
def decrease (h : Headcount) : Headcount := ⟨if h.value = 0 then 0 else h.value - 1⟩

/-- One worker more, where there are fewer than `bound`. -/
def increaseBelow (h : Headcount) (bound : UInt16) : Headcount :=
  if h.value < bound then h.increase else h

end Headcount

end ChainIndex
