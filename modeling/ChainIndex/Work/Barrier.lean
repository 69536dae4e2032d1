/-!
# Waiting until all is done

A barrier counts the items that are not done.  A waiter gets through when it finds
none left.  The count is a word of 64 bits, and starts over behind the greatest one.

Every function here is one step that others may come in between of.  The call that
finishes the last item first lowers the count (`finish`) and then tells the waiters
(`tell`).  A waiter first registers (`arrive`), then looks at the count (`check`),
and only then suspends; what it is told in between is not lost, since it is already
registered.  A waiter that was told starts over (`resume`).
-/

namespace ChainIndex

/-- A waiter that has not got through. -/
structure Waiter where
  /-- Its name. -/
  id : Nat
  /-- It has looked at the count and sleeps. -/
  suspended : Bool := false
  /-- It was told that the count was zero. -/
  told : Bool := false
deriving DecidableEq, Repr, Inhabited

/-- A count of items and those who wait for it. -/
structure Barrier where
  /-- The items that are not done. -/
  pending : Nat := 0
  /-- The calls that lowered the count to zero and have not told the waiters yet. -/
  telling : Nat := 0
  /-- The waiters that have not got through. -/
  waiters : List Waiter := []
  /-- The waiters that got through, newest first. -/
  through : List Nat := []
deriving DecidableEq, Repr, Inhabited

namespace Barrier

/-- A barrier for the items of a list, which are fewer than a word can count. -/
def ofCount (items : Nat) : Barrier := { pending := items }

/-- More items. -/
def add (b : Barrier) (items : Nat) : Barrier :=
  { b with pending := (b.pending + items) % UInt64.size }

/-- One item is done.  Nothing changes where none is left. -/
def finish (b : Barrier) : Barrier :=
  match b.pending with
  | 0 => b
  | 1 => { b with pending := 0, telling := b.telling + 1 }
  | n + 2 => { b with pending := n + 1 }

/-- A call that lowered the count to zero tells every waiter. -/
def tell (b : Barrier) : Barrier :=
  match b.telling with
  | 0 => b
  | n + 1 => { b with telling := n, waiters := b.waiters.map fun w => { w with told := true } }

/-- A waiter registers. -/
def arrive (b : Barrier) (id : Nat) : Barrier := { b with waiters := b.waiters ++ [{ id := id }] }

/-- A registered waiter looks at the count: it gets through, or it suspends. -/
def check (b : Barrier) (id : Nat) : Barrier :=
  if b.waiters.any fun w => w.id = id && !w.suspended then
    if b.pending = 0 then
      { b with waiters := b.waiters.filter (·.id ≠ id), through := id :: b.through }
    else
      { b with waiters := b.waiters.map fun w => if w.id = id then { w with suspended := true } else w }
  else b

/-- A suspended waiter that was told registers again. -/
def resume (b : Barrier) (id : Nat) : Barrier :=
  { b with waiters := b.waiters.map fun w =>
      if w.id = id && w.suspended && w.told then { id := id } else w }

/-! ## Whole calls -/

/-- One item is done, and the waiters are told at once. -/
def done (b : Barrier) : Barrier := b.finish.tell

/-- Every waiter that can go on goes on until it is through or sleeps. -/
def settle (b : Barrier) : Barrier :=
  b.waiters.foldl (fun b w => (b.resume w.id).check w.id) b

end Barrier

end ChainIndex
