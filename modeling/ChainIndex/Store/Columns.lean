import ChainIndex.Evidence
import ChainIndex.Fault

/-!
# Rows as columns

The columns of a database hold texts and signed words of 64 bits.  An unsigned word is
kept by its bits, so one from `2 ^ 63` on is a negative column.  The extras of an issue
are kept as JSON text.

Each kind of row has its columns, with a function that fills them and one that reads
them back.  Only the columns of an issue may not be readable.
-/

namespace ChainIndex

/-! ## Blocks -/

/-- The columns of a block, named as the fields of its row. -/
structure BlockColumns where
  number : Int64
  hash : String
  parentHash : String
  uncleHash : String
  stateRoot : String
  transactionsRoot : String
  receiptsRoot : String
  miner : String
  timestamp : Int64
  size : Int64
  gasLimit : Int64
  gasUsed : Int64
  difficulty : String
  totalDifficulty : String
  transactionCount : Int64
  systemTransactionCount : Int64
  creator : Option String
  attestor : Option String
  mintDuration : Option Int64
deriving DecidableEq, Repr, Inhabited

namespace BlockColumns

/-- The columns filled from a row. -/
def ofRow (r : BlockRow) : BlockColumns where
  number := r.number.toInt64
  hash := r.hash
  parentHash := r.parentHash
  uncleHash := r.uncleHash
  stateRoot := r.stateRoot
  transactionsRoot := r.transactionsRoot
  receiptsRoot := r.receiptsRoot
  miner := r.miner
  timestamp := r.timestamp
  size := r.size.toInt64
  gasLimit := r.gasLimit.toInt64
  gasUsed := r.gasUsed.toInt64
  difficulty := r.difficulty
  totalDifficulty := r.totalDifficulty
  transactionCount := r.transactionCount.toUInt64.toInt64
  systemTransactionCount := r.systemTransactionCount.toUInt64.toInt64
  creator := r.creator
  attestor := r.attestor
  mintDuration := r.mintDuration.map UInt64.toInt64

/-- The row read from its columns. -/
def row (c : BlockColumns) : BlockRow where
  number := c.number.toUInt64
  hash := c.hash
  parentHash := c.parentHash
  uncleHash := c.uncleHash
  stateRoot := c.stateRoot
  transactionsRoot := c.transactionsRoot
  receiptsRoot := c.receiptsRoot
  miner := c.miner
  timestamp := c.timestamp
  size := c.size.toUInt64
  gasLimit := c.gasLimit.toUInt64
  gasUsed := c.gasUsed.toUInt64
  difficulty := c.difficulty
  totalDifficulty := c.totalDifficulty
  transactionCount := c.transactionCount.toUInt64.toUInt32
  systemTransactionCount := c.systemTransactionCount.toUInt64.toUInt32
  creator := c.creator
  attestor := c.attestor
  mintDuration := c.mintDuration.map Int64.toUInt64

/-- A row comes back from its columns. -/
@[simp] theorem row_ofRow (r : BlockRow) : (ofRow r).row = r := by
  simp [row, ofRow, Function.comp_def]

end BlockColumns

/-! ## Transactions -/

/-- The columns of a transaction, named as the fields of its row. -/
structure TransactionColumns where
  hash : String
  blockNumber : Int64
  blockHash : String
  transactionIndex : Int64
  sender : String
  recipient : Option String
  value : String
  nonce : Int64
  gas : Int64
  gasPrice : String
deriving DecidableEq, Repr, Inhabited

namespace TransactionColumns

/-- The columns filled from a row. -/
def ofRow (r : TransactionRow) : TransactionColumns where
  hash := r.hash
  blockNumber := r.blockNumber.toInt64
  blockHash := r.blockHash
  transactionIndex := r.transactionIndex.toUInt64.toInt64
  sender := r.sender
  recipient := r.recipient
  value := r.value
  nonce := r.nonce.toInt64
  gas := r.gas.toInt64
  gasPrice := r.gasPrice

/-- The row read from its columns. -/
def row (c : TransactionColumns) : TransactionRow where
  hash := c.hash
  blockNumber := c.blockNumber.toUInt64
  blockHash := c.blockHash
  transactionIndex := c.transactionIndex.toUInt64.toUInt32
  sender := c.sender
  recipient := c.recipient
  value := c.value
  nonce := c.nonce.toUInt64
  gas := c.gas.toUInt64
  gasPrice := c.gasPrice

/-- A row comes back from its columns. -/
@[simp] theorem row_ofRow (r : TransactionRow) : (ofRow r).row = r := by
  simp [row, ofRow]

end TransactionColumns

/-! ## Issues -/

/-- The columns of an issue.  What it is about stands there by name. -/
structure IssueColumns where
  kind : String
  blockNumber : Int64
  blockHash : String
  txHash : String
  /-- The text of an object. -/
  extras : String
  checksum : String
  observedAt : Int64
deriving DecidableEq, Repr, Inhabited

namespace IssueColumns

/-- The columns filled from an issue. -/
def ofIssue (i : Issue) : IssueColumns where
  kind := i.kind.name
  blockNumber := i.blockNumber.toInt64
  blockHash := i.blockHash
  txHash := i.txHash
  extras := (Json.obj i.extras).render
  checksum := i.checksum
  observedAt := i.observedAt

/-- The issue read from its columns.  The kind is read before the extras. -/
def issue (c : IssueColumns) : Except CrawlFault Issue := do
  let kind ← (IssueKind.ofName c.kind).mapError .storage
  let extras ← (readText (Source.readMap Source.readAny) c.extras).mapError fun e =>
    .storage ("corrupt issue extras: " ++ e.message)
  return { kind := kind, blockNumber := c.blockNumber.toUInt64, blockHash := c.blockHash,
           txHash := c.txHash, extras := extras, checksum := c.checksum,
           observedAt := c.observedAt }

end IssueColumns

end ChainIndex
