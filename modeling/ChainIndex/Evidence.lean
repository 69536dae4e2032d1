import ChainIndex.Chain.Row
import ChainIndex.Hash.Sha256

/-!
# Evidence

An issue records something odd about a block or a transaction.  Its checksum is
the digest of its kind, the bytes of its two hashes and its extras as JSON text
with the keys in order.  The number of the block is always among the extras, so
the checksum covers it too.  The time of observation is not covered: the same
evidence has the same checksum whenever it is seen.
-/

namespace ChainIndex

/-- What an issue is about. -/
inductive IssueKind where
  /-- A block could not be fetched or read. -/
  | error
  /-- The hash of a stored block changed. -/
  | reorg
  /-- One block hash stands under two numbers. -/
  | duplicatedBlockHash
  /-- One transaction hash stands in two blocks. -/
  | duplicatedTxHash
deriving DecidableEq, Repr, Inhabited

namespace IssueKind

/-- The name of a kind. -/
def name : IssueKind → String
  | error => "error"
  | reorg => "reorg"
  | duplicatedBlockHash => "duplicated_block_hash"
  | duplicatedTxHash => "duplicated_tx_hash"

/-- All kinds in declared order. -/
def all : List IssueKind := [error, reorg, duplicatedBlockHash, duplicatedTxHash]

/-- The kind with a name, or the wording of the fault. -/
def ofName (name : String) : Except String IssueKind :=
  match all.find? fun k => k.name == name with
  | some k => .ok k
  | none => .error ("unknown issue kind '" ++ name ++ "'")

end IssueKind

/-- A record of something odd. -/
structure Issue where
  /-- What it is about. -/
  kind : IssueKind
  /-- The number of the block. -/
  blockNumber : UInt64
  /-- The hash of the block, empty where it is unknown. -/
  blockHash : String
  /-- The hash of the transaction, empty where none is meant. -/
  txHash : String
  /-- Further facts, in the order of their keys. -/
  extras : List (String × Json)
  /-- The digest of the evidence in hexadecimal. -/
  checksum : String
  /-- When it was seen, in seconds. -/
  observedAt : Int64 := 0
deriving BEq, Repr, Inhabited

namespace Issue

/-! ## Checksums -/

/-- The bytes of a hash: decoded where it is hexadecimal, else those of its text. -/
def hashBytes (s : String) : List UInt8 :=
  if s.isEmpty then [] else (Hex.bytes? s).getD s.toUTF8.toList

/-- The bytes that a checksum digests. -/
def preimage (kind : IssueKind) (blockHash txHash : String) (extras : List (String × Json)) :
    List UInt8 :=
  kind.name.toUTF8.toList ++ hashBytes blockHash ++ hashBytes txHash
    ++ (Json.obj extras).render.toUTF8.toList

/-- The checksum of evidence. -/
def checksumOf (kind : IssueKind) (blockHash txHash : String) (extras : List (String × Json)) :
    String :=
  Hex.ofBytes (Sha256.digest (preimage kind blockHash txHash extras))

/-- The checksum that the fields of an issue call for. -/
def expectedChecksum (i : Issue) : String := checksumOf i.kind i.blockHash i.txHash i.extras

/-! ## Making issues -/

/-- An issue with its checksum.  The block number joins the extras. -/
def make (kind : IssueKind) (blockNumber : UInt64) (blockHash txHash : String)
    (extras : List (String × Json)) : Issue :=
  let extras := Json.insertMember "blockNumber" (.word blockNumber) extras
  { kind := kind, blockNumber := blockNumber, blockHash := blockHash, txHash := txHash,
    extras := extras, checksum := checksumOf kind blockHash txHash extras }

/-- The hash stored for a number changed. -/
def reorg (number : UInt64) (old new : String) : Issue :=
  make .reorg number (Hex.normalize new) "" [("prevBlockHash", .str (Hex.normalize old))]

/-- A block hash now at `number` was seen at `previous`. -/
def duplicatedBlockHash (hash : String) (number previous : UInt64) : Issue :=
  make .duplicatedBlockHash number (Hex.normalize hash) ""
    [("prevBlockNumber", .word previous),
     ("prevBlockNumberHex", .str (Hex.ofNat previous.toNat))]

/-- A transaction hash now in block `number` was seen in block `previous`. -/
def duplicatedTxHash (tx : String) (number : UInt64) (hash : String) (previous : UInt64)
    (previousHash : String) : Issue :=
  make .duplicatedTxHash number (Hex.normalize hash) (Hex.normalize tx)
    [("prevBlockHash", .str (Hex.normalize previousHash)), ("prevBlockNumber", .word previous),
     ("prevBlockNumberHex", .str (Hex.ofNat previous.toNat))]

/-- A block or a transaction could not be processed. -/
def failure (number : UInt64) (hash tx reason : String) : Issue :=
  make .error number hash tx [("error", .str reason)]

/-! ## JSON -/

/-- The fields of an issue without the time of observation. -/
def evidenceMembers (i : Issue) : List (String × Json) :=
  [("kind", .str i.kind.name), ("block_number", .word i.blockNumber),
    ("block_hash", .str i.blockHash), ("tx_hash", .str i.txHash), ("extras", .obj i.extras),
    ("checksum", .str i.checksum)]

/-- An issue as JSON, with its time of observation. -/
def toJson (i : Issue) : Json :=
  .obj (i.evidenceMembers ++ [("observed_at", .int i.observedAt.toInt)])

/-- An issue as JSON, without its time of observation. -/
def evidenceJson (i : Issue) : Json := .obj i.evidenceMembers

/-- The record of an issue. -/
def shape : Shape Issue where
  title := "Issue"
  blank := ⟨.error, 0, "", "", [], "", 0⟩
  slots := [
    .of "kind" .required (Source.readChoice (IssueKind.all.map fun k => (k.name, k)))
      fun a r => { r with kind := a },
    .of "block_number" .required Source.readWord64 fun a r => { r with blockNumber := a },
    .of "block_hash" .required Source.readText fun a r => { r with blockHash := a },
    .of "tx_hash" .required Source.readText fun a r => { r with txHash := a },
    .of "extras" .required (Source.readMap Source.readAny) fun a r => { r with extras := a },
    .of "checksum" .required Source.readText fun a r => { r with checksum := a },
    .of "observed_at" .required Source.readSigned fun a r => { r with observedAt := a }]

end Issue

end ChainIndex
