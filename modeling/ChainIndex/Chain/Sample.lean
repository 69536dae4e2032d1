import ChainIndex.Chain.Block
import ChainIndex.Json.Fields
import ChainIndex.Window

/-!
# Sample blocks

A sample is written as a number and a fork: `{"gen": N, "fork": F}`.  It stands for
one block of a made-up chain, whose hash is told by the fork and the number, whose parent is the block
before it on the same fork, and which comes twelve seconds after its parent.  The members
of `set` go over those of the block, and `txs` lists its transactions the same way.

An object without a number `gen` is a block as a node sends it.
-/

namespace ChainIndex.Sample

/-- The hash of a sample block. -/
def hash (fork number : Nat) : String := "0x" ++ Hex.padded 2 fork ++ Hex.padded 62 number

/-- A transaction of a sample block. -/
def transaction (block : Json) (index : Nat) (tx : Json) : Json :=
  (Json.object [
    ("hash", .str ("0x" ++ Hex.padded 64 (tx.natAt "seed"))),
    ("transactionIndex", .str (Hex.ofNat index)),
    ("blockNumber", block.member "number"),
    ("blockHash", block.member "hash"),
    ("from", .str "0x00000000000000000000000000000000000000f1"),
    ("to", tx.member "to"),
    ("value", .str "0xde0b6b3a7640000"),
    ("nonce", .str "0x1"),
    ("gas", .str "0x5208"),
    ("gasPrice", .str "0x3b9aca00"),
    ("input", .str "0x")]).merge (tx.member "set")

/-- A sample block as a node sends it, without what the sample sets itself. -/
def bare (fork number : Nat) : Json :=
  Json.object [
    ("number", .str (Hex.ofNat number)),
    ("hash", .str (hash fork number)),
    ("parentHash", .str (hash fork (number - 1))),
    ("miner", .str "0x00000000000000000000000000000000000000aa"),
    ("difficulty", .str "0x2"),
    ("totalDifficulty", .str (Hex.ofNat (2 * number))),
    ("size", .str "0x220"),
    ("gasLimit", .str "0x1c9c380"),
    ("gasUsed", .str "0x0"),
    ("timestamp", .str (Hex.ofNat (1700000000 + 12 * number))),
    ("extraData", .str "0x")]

/-- A sample block as a node sends it. -/
def node (sample : Json) (number : Nat) : Json :=
  let block := (bare (sample.natAt "fork") number).merge (sample.member "set")
  match (sample.member "txs").items? with
  | none => block
  | some txs =>
    block.set "transactions" (.arr (txs.zipIdx.map fun (tx, i) => transaction block i tx))

/-- The block that an object stands for. -/
def block (j : Json) : Except Mismatch Block :=
  match (j.member "gen").nat? with
  | some number => Block.ofJson (node j number)
  | none => Block.ofJson j

/-- The blocks that objects stand for, without those that are none. -/
def blocks (items : List Json) : List Block := items.filterMap fun j => (block j).toOption

/-- The sample blocks of a range on one fork, each with its number. -/
def chain (first last : UInt64) (fork : Nat) : List (UInt64 × Block) :=
  (Window.numbers first last).filterMap fun number =>
    (Block.ofJson (bare fork number.toNat)).toOption.map fun b => (number, b)

end ChainIndex.Sample
