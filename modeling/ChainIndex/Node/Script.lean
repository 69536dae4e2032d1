import ChainIndex.Chain.Block

/-!
# A node that follows a script

A scripted node holds blocks by number and a head, and fails where it was told to.
It counts the calls for each number and for the head.

For a number, a lasting fault comes first, then the queued faults, one per call, then
the block.  For the head, the queued faults come first.
-/

namespace ChainIndex

/-- A node that follows a script. -/
structure Script where
  /-- The blocks by number, the newest one of a number first. -/
  blocks : List (UInt64 × Block) := []
  /-- The number of the newest block. -/
  head : UInt64 := 0
  /-- The faults of the next calls for the head. -/
  headQueue : List NodeFault := []
  /-- The lasting fault of calls for the head. -/
  headBroken : Option NodeFault := none
  /-- The faults of the next calls for the trace of a transaction. -/
  transactionQueue : List NodeFault := []
  /-- The faults of the next calls for a number, each with its number. -/
  queue : List (UInt64 × NodeFault) := []
  /-- The lasting faults by number. -/
  broken : List (UInt64 × NodeFault) := []
  /-- The lasting fault of every call. -/
  down : Option NodeFault := none
  /-- The numbers that calls were for, newest first. -/
  calls : List UInt64 := []
  /-- The count of calls for the head. -/
  headCalls : Nat := 0
deriving Repr, Inhabited

namespace Script

/-! ## Writing the script -/

/-- Put a block at a number, in front of the one that stood there. -/
def put (s : Script) (number : UInt64) (block : Block) : Script :=
  { s with blocks := (number, block) :: s.blocks }

/-- Remove every block at a number. -/
def remove (s : Script) (number : UInt64) : Script :=
  { s with blocks := s.blocks.filter fun b => b.1 ≠ number }

/-- Queue a fault for some calls for a number. -/
def failNext (s : Script) (number : UInt64) (fault : NodeFault) (times : Nat) : Script :=
  { s with queue := s.queue ++ List.replicate times (number, fault) }

/-- Lift the lasting fault of a number. -/
def repair (s : Script) (number : UInt64) : Script :=
  { s with broken := s.broken.filter fun b => b.1 ≠ number }

/-- Make every call for a number fail. -/
def failAlways (s : Script) (number : UInt64) (fault : NodeFault) : Script :=
  { s.repair number with broken := (number, fault) :: (s.repair number).broken }

/-! ## Calls -/

/-- The block at a number, where no fault comes first. -/
def lookup (s : Script) (number : UInt64) : Except NodeFault Block × Script :=
  let s := { s with calls := number :: s.calls }
  match s.down, s.broken.find? fun b => b.1 = number with
  | some fault, _ => (.error fault, s)
  | none, some (_, fault) => (.error fault, s)
  | none, none =>
    match s.queue.find? fun q => q.1 = number with
    | some (_, fault) => (.error fault, { s with queue := s.queue.eraseP fun q => q.1 = number })
    | none =>
      match s.blocks.find? fun b => b.1 = number with
      | some (_, block) => (.ok block, s)
      | none => (.error (.notFound ("block " ++ toString number.toNat)), s)

/-- The block at a number and its text. -/
def block (s : Script) (number : UInt64) : Except NodeFault (Block × String) × Script :=
  let (found, s) := s.lookup number
  (found.map fun b => (b, b.toJson.render), s)

/-- The trace of a transaction of a block. -/
def traceOf (tx : Transaction) : Json :=
  .obj [("result", .obj [("type", .str "CALL")]), ("txHash", .str tx.hash)]

/-- The traces at a number and their text. -/
def traces (s : Script) (number : UInt64) : Except NodeFault (List Json × String) × Script :=
  let (found, s) := s.lookup number
  (found.map fun b =>
    let items := b.transactions.map traceOf
    (items, (Json.arr items).render), s)

/-- The number of the newest block. -/
def headNumber (s : Script) : Except NodeFault UInt64 × Script :=
  let s := { s with headCalls := s.headCalls + 1 }
  match s.down, s.headQueue, s.headBroken with
  | some fault, _, _ => (.error fault, s)
  | none, fault :: rest, _ => (.error fault, { s with headQueue := rest })
  | none, [], some fault => (.error fault, s)
  | none, [], none => (.ok s.head, s)

/-- The trace of a transaction. -/
def transactionTrace (s : Script) (hash : String) : Except NodeFault Json × Script :=
  match s.down, s.transactionQueue with
  | some fault, _ => (.error fault, s)
  | none, fault :: rest => (.error fault, { s with transactionQueue := rest })
  | none, [] => (.ok (.obj [("hash", .str hash), ("type", .str "CALL")]), s)

/-- The numbers that were called for, in order, each with the count of calls. -/
def callCounts (s : Script) : List (UInt64 × Nat) :=
  let numbers := (s.calls.mergeSort (fun a b => a ≤ b)).eraseReps
  numbers.map fun n => (n, s.calls.count n)

end Script

end ChainIndex
