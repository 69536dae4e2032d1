/-!
# Windows of blocks

A range is worked through window by window.  `Window.last` is the last block of the
window that starts at `first`: at most `size` blocks, not past `limit`.  It stops
at the largest word, it does not wrap.

`alignEnd` moves the end of a window back, so that the window stops right before a
multiple of the alignment.  Where no such number lies in the window, the end
stays.

The number behind a window is a word just where the window does not end at the largest one.
-/

namespace ChainIndex.Window

/-- The greatest word. -/
def greatest : UInt64 := 0xFFFFFFFFFFFFFFFF

/-- The sum of two words, or the largest word where it is out of range. -/
def addSaturating (a b : UInt64) : UInt64 := if a + b < a then 0xFFFFFFFFFFFFFFFF else a + b

/-- The difference of two words, or zero where it is negative. -/
def subSaturating (a b : UInt64) : UInt64 := if a < b then 0 else a - b

/-- The numbers of a range in order, none where it is empty. -/
def numbers (first last : UInt64) : List UInt64 :=
  (List.range (last.toNat + 1 - first.toNat)).map fun i => first + UInt64.ofNat i

/-- So many numbers can be counted from a first one.  The count gets to the number behind the last
one, which has to be a word. -/
def CanCount (first : UInt64) (count : Nat) : Prop :=
  count = 0 ∨ first.toNat + count < UInt64.size

instance (first : UInt64) (count : Nat) : Decidable (CanCount first count) :=
  inferInstanceAs (Decidable (_ ∨ _))

/-- The size of a window is one block or more. -/
def effectiveSize (size : UInt64) : UInt64 := max size 1

/-- The last block of a window. -/
def last (first size limit : UInt64) : UInt64 :=
  min (addSaturating first (effectiveSize size - 1)) limit

/-- The end of a window moved back to just before a multiple of the alignment. -/
def alignEnd (first last alignment : UInt64) : UInt64 :=
  if alignment ≤ 1 then last
  else
    let aligned := subSaturating (addSaturating last 1 / alignment * alignment) 1
    if first ≤ aligned then aligned else last

end ChainIndex.Window
