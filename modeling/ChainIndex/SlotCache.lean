import ChainIndex.Fault

/-!
# Arrays of results

A cache hands results from the workers that produce them to the one caller that
waits for them.  An array is allocated under a key with all its slots empty, each
slot is written at most once, and the caller takes the whole array out.

A handle names one allocation of a key, not the key: it carries the generation
that the allocation got, and generations are never given out twice.  So a handle
works until its array is taken or deleted.  After that it is answered `missing`
while the key is free, and `staleHandle` once the key is allocated again.

Generations are counted in a word of 64 bits, which no run gets to the end of: that
takes 2^64 allocations.  They are numbers without a bound here, so none is ever given
out again.

Single values live beside the arrays, under keys of their own.
-/

namespace ChainIndex

/-- One allocation of a key. -/
structure SlotHandle where
  /-- The key. -/
  key : String
  /-- The number of the allocation, which is below 2^64 in every run that can be. -/
  generation : Nat
  /-- The count of slots. -/
  length : Nat
deriving DecidableEq, Repr, Inhabited

/-- The handle of an array without slots. -/
def SlotHandle.isEmpty (h : SlotHandle) : Bool := h.length = 0

/-- An allocated array. -/
structure SlotArray (α : Type) where
  /-- The number of the allocation. -/
  generation : Nat
  /-- The slots, none where nothing was written. -/
  slots : List (Option α)
deriving Repr, Inhabited

/-- The count of slots that were written. -/
def SlotArray.filled {α : Type} (a : SlotArray α) : Nat := a.slots.countP Option.isSome

/-- A cache of arrays and of single values. -/
structure SlotCache (α : Type) where
  /-- The arrays by key, each key once. -/
  arrays : List (String × SlotArray α) := []
  /-- The single values by key, each key once. -/
  objects : List (String × α) := []
  /-- The generation of the next allocation, which is below 2^64 in every run that can be. -/
  nextGeneration : Nat := 1
deriving Repr, Inhabited

namespace SlotCache

variable {α : Type}

/-! ## Association lists -/

/-- The entry under a key. -/
def find? {β : Type} (entries : List (String × β)) (key : String) : Option β :=
  (entries.find? fun e => e.1 == key).map (·.2)

/-- The entries without a key. -/
def erase {β : Type} (entries : List (String × β)) (key : String) : List (String × β) :=
  entries.filter fun e => e.1 != key

/-! ## Arrays -/

/-- Allocate empty slots under a free key. -/
def allocate (c : SlotCache α) (key : String) (length : Nat) :
    Except SlotFault (SlotHandle × SlotCache α) :=
  match find? c.arrays key with
  | some _ => .error (.alreadyAllocated key)
  | none =>
    let array : SlotArray α := ⟨c.nextGeneration, List.replicate length none⟩
    .ok (⟨key, c.nextGeneration, length⟩,
      { c with arrays := (key, array) :: c.arrays, nextGeneration := c.nextGeneration + 1 })

/-- The handle of the array under a key. -/
def handle? (c : SlotCache α) (key : String) : Option SlotHandle :=
  (find? c.arrays key).map fun a => ⟨key, a.generation, a.slots.length⟩

/-- The array that a handle names. -/
def lookup (c : SlotCache α) (h : SlotHandle) : Except SlotFault (SlotArray α) :=
  match find? c.arrays h.key with
  | none => .error (.missing h.key)
  | some a =>
    if a.generation = h.generation then .ok a else .error (.staleHandle h.key h.generation)

/-- Write a slot that is still empty. -/
def setItem (c : SlotCache α) (h : SlotHandle) (index : Nat) (value : α) :
    Except SlotFault (SlotCache α) := do
  let a ← c.lookup h
  match a.slots[index]? with
  | none => throw (.outOfBounds h.key index a.slots.length)
  | some (some _) => throw (.slotTaken h.key index)
  | some none =>
    let a : SlotArray α := { a with slots := a.slots.set index (some value) }
    return { c with arrays := (h.key, a) :: erase c.arrays h.key }

/-- The count of slots written so far. -/
def filled (c : SlotCache α) (h : SlotHandle) : Except SlotFault Nat :=
  (c.lookup h).map SlotArray.filled

/-- The slots as they are now. -/
def getArray (c : SlotCache α) (h : SlotHandle) : Except SlotFault (List (Option α)) :=
  (c.lookup h).map SlotArray.slots

/-- The slots, and the cache with the key free again. -/
def takeArray (c : SlotCache α) (h : SlotHandle) :
    Except SlotFault (List (Option α) × SlotCache α) :=
  (c.lookup h).map fun a => (a.slots, { c with arrays := erase c.arrays h.key })

/-- Free a key, and whether it was allocated. -/
def delete (c : SlotCache α) (key : String) : Bool × SlotCache α :=
  ((find? c.arrays key).isSome, { c with arrays := erase c.arrays key })

/-- The count of arrays. -/
def arrayCount (c : SlotCache α) : Nat := c.arrays.length

/-! ## Single values -/

/-- The value under a key. -/
def getObject (c : SlotCache α) (key : String) : Option α := find? c.objects key

/-- Put a value under a key, and the value that stood there. -/
def setObject (c : SlotCache α) (key : String) (value : α) : Option α × SlotCache α :=
  (find? c.objects key, { c with objects := (key, value) :: erase c.objects key })

/-- Remove the value under a key, and that value. -/
def deleteObject (c : SlotCache α) (key : String) : Option α × SlotCache α :=
  (find? c.objects key, { c with objects := erase c.objects key })

end SlotCache

end ChainIndex
