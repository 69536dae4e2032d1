import ChainIndex.Run.Download

/-!
# Benchmarks

A benchmark has the blocks of a range fetched, or their traces, window by window, and
counts what came.  Nothing is stored or written.

It says which window it asks for, and `absorb?` is how it goes on with what came.
-/

namespace ChainIndex

/-- What a benchmark counted. -/
structure Tally where
  /-- The items that came. -/
  ok : Nat := 0
  /-- The items that did not. -/
  failed : Nat := 0
  /-- The calls made again for the items that came. -/
  retries : Nat := 0
deriving DecidableEq, Repr, Inhabited

namespace Tally

/-- The items of a window.  Each is there with the count of its calls made again, or it
is not. -/
def add (t : Tally) (items : List (Option UInt32)) : Tally :=
  let came := items.filterMap id
  { ok := t.ok + came.length
    failed := t.failed + (items.length - came.length)
    retries := came.foldl (fun count again => count + again.toNat) t.retries }

/-- The count of all items. -/
def total (t : Tally) : Nat := t.ok + t.failed

end Tally

/-- A benchmark between two windows. -/
structure Benchmark where
  /-- What is fetched. -/
  kind : DownloadKind
  /-- The last block. -/
  last : UInt64
  /-- The most blocks of a window. -/
  batchSize : UInt64
  /-- The first block of the next window. -/
  next : UInt64
  /-- What was counted so far. -/
  tally : Tally := {}
deriving DecidableEq, Repr, Inhabited

namespace Benchmark

/-- A benchmark behind its last window. -/
def isOver (b : Benchmark) : Bool := b.last < b.next

/-- The last block of the next window. -/
def windowEnd (b : Benchmark) : UInt64 := Window.last b.next b.batchSize b.last

/-- The command that asks for the next window. -/
def command (b : Benchmark) : Command :=
  let id := "benchmark_" ++ toString b.next.toNat ++ "_" ++ toString b.windowEnd.toNat
  match b.kind with
  | .blocks => .getRange id b.next b.windowEnd
  | .traces => .traceRange id b.next b.windowEnd

/-- A benchmark with the items of its window, none where the number behind the window is no word. -/
def absorb? (b : Benchmark) (items : List (Option UInt32)) : Option Benchmark :=
  if b.windowEnd = Window.greatest then none
  else some { b with next := b.windowEnd + 1, tally := b.tally.add items }

end Benchmark

/-- Why a benchmark ended before its last window. -/
inductive BenchmarkFault where
  /-- No service answered as it should. -/
  | bus (fault : BusFault)
  /-- The results of a window are not there. -/
  | slot (fault : SlotFault)
  /-- The number behind a window is no word, and the benchmark breaks off. -/
  | overflow
deriving DecidableEq, Repr, Inhabited

/-- The wording of a fault. -/
def BenchmarkFault.message : BenchmarkFault → String
  | bus fault => fault.message
  | slot fault => fault.message
  | overflow => "attempt to add with overflow"

/-- The calls made again for a block that came. -/
def BlockResult.came? (r : BlockResult) : Option UInt32 := if r.isOk then some r.retries else none

/-- The calls made again for traces that came. -/
def TraceResult.came? (r : TraceResult) : Option UInt32 := if r.isOk then some r.retries else none

end ChainIndex
