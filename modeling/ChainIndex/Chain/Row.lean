import ChainIndex.Chain.Block

/-!
# Rows of the store

One row per block number and one row per transaction hash.  `BlockRow.ofBlock` and
`TransactionRow.ofTransaction` take hashes and addresses in lower case and
quantities as numbers; amounts that may exceed a word are decimal text.

A `CheckpointKind` names the pipeline whose next block number a checkpoint keeps.
-/

namespace ChainIndex

/-! ## Blocks -/

/-- The stored row of a block. -/
structure BlockRow where
  /-- The number. -/
  number : UInt64 := 0
  /-- The hash in normal form. -/
  hash : String := ""
  /-- The hash of the block before, in normal form. -/
  parentHash : String := ""
  /-- The digest of the uncles. -/
  uncleHash : String := ""
  /-- The root of the state. -/
  stateRoot : String := ""
  /-- The root of the transactions. -/
  transactionsRoot : String := ""
  /-- The root of the receipts. -/
  receiptsRoot : String := ""
  /-- The miner. -/
  miner : String := ""
  /-- The time in seconds. -/
  timestamp : Int64 := 0
  /-- The size in bytes. -/
  size : UInt64 := 0
  /-- The most gas its transactions may use. -/
  gasLimit : UInt64 := 0
  /-- The gas its transactions used. -/
  gasUsed : UInt64 := 0
  /-- The difficulty, decimal. -/
  difficulty : String := ""
  /-- The difficulty summed over the chain, decimal. -/
  totalDifficulty : String := ""
  /-- The count of transactions. -/
  transactionCount : UInt32 := 0
  /-- The count of transactions to system contracts. -/
  systemTransactionCount : UInt32 := 0
  /-- The address behind the seal of the creator. -/
  creator : Option String := none
  /-- The address behind the seal of the attestor. -/
  attestor : Option String := none
  /-- The seconds since the block before, where that is known. -/
  mintDuration : Option UInt64 := none
deriving DecidableEq, Repr, Inhabited

/-- The row of a block, its signers and its duration still open. -/
def BlockRow.ofBlock (b : Block) : BlockRow where
  number := b.numberWord
  hash := b.hashNormalized
  parentHash := Hex.normalize b.parentHash
  uncleHash := Hex.lower b.sha3Uncles
  stateRoot := Hex.lower b.stateRoot
  transactionsRoot := Hex.lower b.transactionsRoot
  receiptsRoot := Hex.lower b.receiptsRoot
  miner := Hex.lower b.miner
  timestamp := b.timestampSigned
  size := Hex.word64 b.size
  gasLimit := Hex.word64 b.gasLimit
  gasUsed := Hex.word64 b.gasUsed
  difficulty := Hex.decimal b.difficulty
  totalDifficulty := Hex.decimal b.totalDifficulty
  transactionCount := UInt32.ofNat b.transactions.length
  systemTransactionCount := b.systemTransactionCount

/-! ## Transactions -/

/-- The stored row of a transaction. -/
structure TransactionRow where
  /-- The hash in normal form. -/
  hash : String := ""
  /-- The number of its block. -/
  blockNumber : UInt64 := 0
  /-- The hash of its block. -/
  blockHash : String := ""
  /-- Its place in the block. -/
  transactionIndex : UInt32 := 0
  /-- The sender. -/
  sender : String := ""
  /-- The recipient. -/
  recipient : Option String := none
  /-- The amount sent, decimal. -/
  value : String := ""
  /-- The count of transactions of the sender before it. -/
  nonce : UInt64 := 0
  /-- The gas it may use. -/
  gas : UInt64 := 0
  /-- The price of a unit of gas, decimal. -/
  gasPrice : String := ""
deriving DecidableEq, Repr, Inhabited

/-- The row of a transaction of a block. -/
def TransactionRow.ofTransaction (b : Block) (tx : Transaction) : TransactionRow where
  hash := Hex.normalize tx.hash
  blockNumber := b.numberWord
  blockHash := b.hashNormalized
  transactionIndex := (Hex.word64 tx.transactionIndex).toUInt32
  sender := Hex.lower tx.sender
  recipient := tx.recipient.map Hex.lower
  value := Hex.decimal tx.value
  nonce := Hex.word64 tx.nonce
  gas := Hex.word64 tx.gas
  gasPrice := Hex.decimal tx.gasPrice

/-- The rows of the transactions of a block, in order. -/
def Block.transactionRows (b : Block) : List TransactionRow :=
  b.transactions.map (TransactionRow.ofTransaction b)

/-! ## Checkpoints -/

/-- The pipeline that a checkpoint belongs to. -/
inductive CheckpointKind where
  /-- The index of blocks and transactions. -/
  | index
  /-- The download of traces. -/
  | trace
deriving DecidableEq, Repr, Inhabited

/-- The name of a pipeline. -/
def CheckpointKind.name : CheckpointKind → String
  | .index => "index"
  | .trace => "trace"

/-- The pipeline with a name, or the wording of the fault. -/
def CheckpointKind.ofName (name : String) : Except String CheckpointKind :=
  if name = "index" then .ok .index
  else if name = "trace" then .ok .trace
  else .error ("unknown checkpoint kind '" ++ name ++ "'")

/-! ## JSON -/

/-- A block row, by the names of its columns. -/
def BlockRow.toJson (r : BlockRow) : Json :=
  .obj [("number", .word r.number), ("hash", .str r.hash), ("parent_hash", .str r.parentHash),
    ("uncle_hash", .str r.uncleHash), ("state_root", .str r.stateRoot),
    ("transactions_root", .str r.transactionsRoot), ("receipts_root", .str r.receiptsRoot),
    ("miner", .str r.miner), ("timestamp", .int r.timestamp.toInt), ("size", .word r.size),
    ("gas_limit", .word r.gasLimit), ("gas_used", .word r.gasUsed),
    ("difficulty", .str r.difficulty), ("total_difficulty", .str r.totalDifficulty),
    ("transaction_count", .nat r.transactionCount.toNat),
    ("system_transaction_count", .nat r.systemTransactionCount.toNat),
    ("creator", Json.ofOption .str r.creator), ("attestor", Json.ofOption .str r.attestor),
    ("mint_duration", Json.ofOption .word r.mintDuration)]

/-- A transaction row, by the names of its columns. -/
def TransactionRow.toJson (r : TransactionRow) : Json :=
  .obj [("hash", .str r.hash), ("block_number", .word r.blockNumber),
    ("block_hash", .str r.blockHash), ("transaction_index", .nat r.transactionIndex.toNat),
    ("from", .str r.sender), ("to", Json.ofOption .str r.recipient), ("value", .str r.value),
    ("nonce", .word r.nonce), ("gas", .word r.gas), ("gas_price", .str r.gasPrice)]

/-- The record of a block row.  A given row is read over `base`. -/
def BlockRow.shape (base : BlockRow) : Shape BlockRow where
  title := "BlockRow"
  blank := base
  slots := [
    .of "number" .optional Source.readWord64 fun a r => { r with number := a },
    textSlot "hash" fun a r => { r with hash := a },
    textSlot "parent_hash" fun a r => { r with parentHash := a },
    textSlot "uncle_hash" fun a r => { r with uncleHash := a },
    textSlot "state_root" fun a r => { r with stateRoot := a },
    textSlot "transactions_root" fun a r => { r with transactionsRoot := a },
    textSlot "receipts_root" fun a r => { r with receiptsRoot := a },
    textSlot "miner" fun a r => { r with miner := a },
    .of "timestamp" .optional Source.readSigned fun a r => { r with timestamp := a },
    .of "size" .optional Source.readWord64 fun a r => { r with size := a },
    .of "gas_limit" .optional Source.readWord64 fun a r => { r with gasLimit := a },
    .of "gas_used" .optional Source.readWord64 fun a r => { r with gasUsed := a },
    textSlot "difficulty" fun a r => { r with difficulty := a },
    textSlot "total_difficulty" fun a r => { r with totalDifficulty := a },
    .of "transaction_count" .optional Source.readWord32 fun a r => { r with transactionCount := a },
    .of "system_transaction_count" .optional Source.readWord32
      fun a r => { r with systemTransactionCount := a },
    optionalTextSlot "creator" fun a r => { r with creator := a },
    optionalTextSlot "attestor" fun a r => { r with attestor := a },
    .of "mint_duration" .optional (Source.readOption Source.readWord64)
      fun a r => { r with mintDuration := a }]

/-- The record of a transaction row.  A given row is read over `base`. -/
def TransactionRow.shape (base : TransactionRow) : Shape TransactionRow where
  title := "TransactionRow"
  blank := base
  slots := [
    textSlot "hash" fun a r => { r with hash := a },
    .of "block_number" .optional Source.readWord64 fun a r => { r with blockNumber := a },
    textSlot "block_hash" fun a r => { r with blockHash := a },
    .of "transaction_index" .optional Source.readWord32 fun a r => { r with transactionIndex := a },
    textSlot "from" fun a r => { r with sender := a },
    optionalTextSlot "to" fun a r => { r with recipient := a },
    textSlot "value" fun a r => { r with value := a },
    .of "nonce" .optional Source.readWord64 fun a r => { r with nonce := a },
    .of "gas" .optional Source.readWord64 fun a r => { r with gas := a },
    textSlot "gas_price" fun a r => { r with gasPrice := a }]

end ChainIndex
