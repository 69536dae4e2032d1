import ChainIndex.Fault
import ChainIndex.Json.Record
import ChainIndex.Text.Hex

/-!
# Blocks as a node sends them

A block keeps its quantities as hexadecimal text.  Its number and its hash have to
be there and are checked by `Block.verify`.  Every other field may be missing, and
a malformed quantity counts as zero.

`Block.shape` reads a block from JSON, and `Block.toJson` writes its fields in
declared order.
-/

namespace ChainIndex

/-- A transaction inside a block. -/
structure Transaction where
  /-- The hash of the transaction. -/
  hash : String := ""
  /-- The number of its block. -/
  blockNumber : String := ""
  /-- The hash of its block. -/
  blockHash : String := ""
  /-- Its place in the block. -/
  transactionIndex : String := ""
  /-- The sender. -/
  sender : String := ""
  /-- The recipient, none where a contract is created. -/
  recipient : Option String := none
  /-- The amount sent. -/
  value : String := ""
  /-- The count of transactions of the sender before it. -/
  nonce : String := ""
  /-- The gas it may use. -/
  gas : String := ""
  /-- The price of a unit of gas. -/
  gasPrice : String := ""
  /-- The data sent with it. -/
  input : String := ""
deriving DecidableEq, Repr, Inhabited

/-- A block with its transactions. -/
structure Block where
  /-- The number, a quantity. -/
  number : String := ""
  /-- The hash. -/
  hash : String := ""
  /-- The hash of the block before. -/
  parentHash : String := ""
  /-- The digest of the uncles. -/
  sha3Uncles : String := ""
  /-- The address of the miner. -/
  miner : String := ""
  /-- The root of the state. -/
  stateRoot : String := ""
  /-- The root of the transactions. -/
  transactionsRoot : String := ""
  /-- The root of the receipts. -/
  receiptsRoot : String := ""
  /-- The filter over the logs. -/
  logsBloom : String := ""
  /-- The difficulty. -/
  difficulty : String := ""
  /-- The difficulty summed over the chain. -/
  totalDifficulty : String := ""
  /-- The size in bytes. -/
  size : String := ""
  /-- The most gas its transactions may use. -/
  gasLimit : String := ""
  /-- The gas its transactions used. -/
  gasUsed : String := ""
  /-- The time in seconds. -/
  timestamp : String := ""
  /-- Free data that ends with the seal of the creator. -/
  extraData : String := ""
  /-- The mix hash. -/
  mixHash : String := ""
  /-- The nonce. -/
  nonce : String := ""
  /-- The seal of the attestor. -/
  validator : Option String := none
  /-- The validators. -/
  validators : Option String := none
  /-- The penalties. -/
  penalties : Option String := none
  /-- The transactions in order. -/
  transactions : List Transaction := []
deriving DecidableEq, Repr, Inhabited

/-! ## System contracts -/

/-- The contracts of the chain itself: signing, random numbers, exchange, exchange
state, lending, final lending. -/
def systemAddresses : List String :=
  ["0x0000000000000000000000000000000000000089", "0x0000000000000000000000000000000000000090",
   "0x0000000000000000000000000000000000000091", "0x0000000000000000000000000000000000000092",
   "0x0000000000000000000000000000000000000093", "0x0000000000000000000000000000000000000094"]

/-- An address is one of a system contract, in either case. -/
def isSystemAddress (address : String) : Bool :=
  systemAddresses.contains (Hex.lower address)

/-! ## Checked numbers -/

namespace Block

/-- The number, zero where it is malformed. -/
def numberWord (b : Block) : UInt64 := Hex.word64 b.number

/-- The number, if it is well formed. -/
def checkedNumber (b : Block) : Except NodeFault UInt64 :=
  match Hex.word64? b.number with
  | some n => .ok n
  | none => .error (.decode ("invalid block number '" ++ b.number ++ "'"))

/-- The hash is one hexadecimal digit or more, marked or not. -/
def hasHash (b : Block) : Bool :=
  let digits := Hex.unmark b.hash.toList
  !digits.isEmpty && digits.all fun c => (Hex.digit? c).isSome

/-- The block is the one asked for, and its hash is well formed. -/
def verify (b : Block) (requested : UInt64) : Except NodeFault Unit := do
  let number ← b.checkedNumber
  if number ≠ requested then
    throw (.decode ("asked for block " ++ toString requested.toNat ++ ", node returned "
      ++ toString number.toNat))
  else if !b.hasHash then
    throw (.decode ("block " ++ toString number.toNat ++ " has invalid hash '" ++ b.hash ++ "'"))
  else return ()

/-- The time, as a signed word with the same bits as the quantity. -/
def timestampSigned (b : Block) : Int64 := (Hex.word64 b.timestamp).toInt64

/-- The hash in normal form. -/
def hashNormalized (b : Block) : String := Hex.normalize b.hash

/-- The count of transactions sent to system contracts. -/
def systemTransactionCount (b : Block) : UInt32 :=
  UInt32.ofNat (b.transactions.countP fun tx => (tx.recipient.map isSystemAddress).getD false)

end Block

/-! ## JSON -/

/-- A slot of a text field that may be missing. -/
def textSlot {ρ : Type} (name : String) (set : String → ρ → ρ) : Slot ρ :=
  .of name .optional Source.readText set

/-- A slot of a text field that may be missing or `null`. -/
def optionalTextSlot {ρ : Type} (name : String) (set : Option String → ρ → ρ) : Slot ρ :=
  .of name .optional (Source.readOption Source.readText) set

/-- The record of a transaction. -/
def Transaction.shape : Shape Transaction where
  title := "ChainTransaction"
  blank := {}
  slots := [
    textSlot "hash" fun a r => { r with hash := a },
    textSlot "blockNumber" fun a r => { r with blockNumber := a },
    textSlot "blockHash" fun a r => { r with blockHash := a },
    textSlot "transactionIndex" fun a r => { r with transactionIndex := a },
    textSlot "from" fun a r => { r with sender := a },
    optionalTextSlot "to" fun a r => { r with recipient := a },
    textSlot "value" fun a r => { r with value := a },
    textSlot "nonce" fun a r => { r with nonce := a },
    textSlot "gas" fun a r => { r with gas := a },
    textSlot "gasPrice" fun a r => { r with gasPrice := a },
    textSlot "input" fun a r => { r with input := a }]

/-- The record of a block. -/
def Block.shape (origin : Origin) : Shape Block where
  title := "ChainBlock"
  blank := {}
  slots := [
    .of "number" .required Source.readText fun a r => { r with number := a },
    .of "hash" .required Source.readText fun a r => { r with hash := a },
    textSlot "parentHash" fun a r => { r with parentHash := a },
    textSlot "sha3Uncles" fun a r => { r with sha3Uncles := a },
    textSlot "miner" fun a r => { r with miner := a },
    textSlot "stateRoot" fun a r => { r with stateRoot := a },
    textSlot "transactionsRoot" fun a r => { r with transactionsRoot := a },
    textSlot "receiptsRoot" fun a r => { r with receiptsRoot := a },
    textSlot "logsBloom" fun a r => { r with logsBloom := a },
    textSlot "difficulty" fun a r => { r with difficulty := a },
    textSlot "totalDifficulty" fun a r => { r with totalDifficulty := a },
    textSlot "size" fun a r => { r with size := a },
    textSlot "gasLimit" fun a r => { r with gasLimit := a },
    textSlot "gasUsed" fun a r => { r with gasUsed := a },
    textSlot "timestamp" fun a r => { r with timestamp := a },
    textSlot "extraData" fun a r => { r with extraData := a },
    textSlot "mixHash" fun a r => { r with mixHash := a },
    textSlot "nonce" fun a r => { r with nonce := a },
    optionalTextSlot "validator" fun a r => { r with validator := a },
    optionalTextSlot "validators" fun a r => { r with validators := a },
    optionalTextSlot "penalties" fun a r => { r with penalties := a },
    .of "transactions" .optional (Source.readList (Transaction.shape.read origin))
      fun a r => { r with transactions := a }]

/-- A transaction, its fields in declared order. -/
def Transaction.toJson (tx : Transaction) : Json :=
  .obj [("hash", .str tx.hash), ("blockNumber", .str tx.blockNumber),
    ("blockHash", .str tx.blockHash), ("transactionIndex", .str tx.transactionIndex),
    ("from", .str tx.sender), ("to", Json.ofOption .str tx.recipient), ("value", .str tx.value),
    ("nonce", .str tx.nonce), ("gas", .str tx.gas), ("gasPrice", .str tx.gasPrice),
    ("input", .str tx.input)]

/-- A block, its fields in declared order. -/
def Block.toJson (b : Block) : Json :=
  .obj [("number", .str b.number), ("hash", .str b.hash), ("parentHash", .str b.parentHash),
    ("sha3Uncles", .str b.sha3Uncles), ("miner", .str b.miner), ("stateRoot", .str b.stateRoot),
    ("transactionsRoot", .str b.transactionsRoot), ("receiptsRoot", .str b.receiptsRoot),
    ("logsBloom", .str b.logsBloom), ("difficulty", .str b.difficulty),
    ("totalDifficulty", .str b.totalDifficulty), ("size", .str b.size),
    ("gasLimit", .str b.gasLimit), ("gasUsed", .str b.gasUsed), ("timestamp", .str b.timestamp),
    ("extraData", .str b.extraData), ("mixHash", .str b.mixHash), ("nonce", .str b.nonce),
    ("validator", Json.ofOption .str b.validator), ("validators", Json.ofOption .str b.validators),
    ("penalties", Json.ofOption .str b.penalties),
    ("transactions", Json.list Transaction.toJson b.transactions)]

/-- A block of a JSON value. -/
def Block.ofJson (v : Json) : Except Mismatch Block := (Block.shape .value).ofJson v

/-- A block of a JSON text. -/
def Block.ofText (s : String) : Except Mismatch Block := readText ((Block.shape .text).read .text) s

end ChainIndex
