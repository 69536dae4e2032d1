import ChainIndex.Chain.Row
import ChainIndex.Curve
import ChainIndex.Hash.Keccak
import ChainIndex.Rlp

/-!
# Seals

The creator of a block signs its header and puts the signature, sixty-five bytes,
at the end of the extra data.  The attestor signs the same header and puts the
signature into the validator field.

`sealedItems` are the fifteen values that are signed, `sealPreimage` their
encoding, and `sealHash` its digest.  The seal itself, the hash of the block, the
validator field and the transactions are not among them.
-/

namespace ChainIndex.Seal

/-- The length of a signature in bytes. -/
def length : Nat := 65

/-- The bytes of hexadecimal data, none where it is malformed. -/
def bytesOrEmpty (s : String) : List UInt8 := (Hex.bytes? s).getD []

/-- The bytes of a quantity, none where it is malformed. -/
def quantityBytes (s : String) : List UInt8 := Rlp.bigEndian ((Hex.word256? s).getD 0)

/-- The bytes of a quantity below `2 ^ 64`, none where it is malformed. -/
def wordBytes (s : String) : List UInt8 := Rlp.bigEndian (Hex.word64 s).toNat

/-- The values that a seal covers, in order, each as bytes. -/
def sealedItems (b : Block) (extra : List UInt8) : List (List UInt8) :=
  [bytesOrEmpty b.parentHash, bytesOrEmpty b.sha3Uncles, bytesOrEmpty b.miner,
   bytesOrEmpty b.stateRoot, bytesOrEmpty b.transactionsRoot, bytesOrEmpty b.receiptsRoot,
   bytesOrEmpty b.logsBloom, quantityBytes b.difficulty, quantityBytes b.number,
   wordBytes b.gasLimit, wordBytes b.gasUsed, quantityBytes b.timestamp,
   extra.take (extra.length - length), bytesOrEmpty b.mixHash, bytesOrEmpty b.nonce]

/-- The bytes that are signed. -/
def sealPreimage (b : Block) (extra : List UInt8) : List UInt8 := Rlp.list (sealedItems b extra)

/-- The digest that is signed, where the extra data has room for a seal. -/
def sealHash? (b : Block) (extra : List UInt8) : Option (List UInt8) :=
  if extra.length < length then none else some (Keccak.digest (sealPreimage b extra))

/-- A big-endian number. -/
def bigNat (bytes : List UInt8) : Nat := bytes.foldl (fun n b => 256 * n + b.toNat) 0

/-- The parity that the last byte of a seal stands for.  Plain parities are 0 and 1,
then 27 and 28, and from 35 on the even bytes are odd. -/
def parity? (v : UInt8) : Option Bool :=
  if v ≤ 1 then some (v = 1)
  else if v = 27 || v = 28 || 35 ≤ v then some (v.toNat % 2 = 0)
  else none

/-- The signature of sixty-five bytes. -/
def signature? (bytes : List UInt8) : Option Curve.Signature :=
  if bytes.length = length then do
    let odd ← parity? (bytes.getD 64 0)
    return ⟨bigNat (bytes.take 32), bigNat ((bytes.drop 32).take 32), odd⟩
  else none

/-- The thirty-two bytes of a coordinate. -/
def coordinateBytes (n : Nat) : List UInt8 :=
  (List.range 32).map fun i => UInt8.ofNat (n / Nat.pow 256 (31 - i))

/-- The address of a public key: the last twenty bytes of its digest. -/
def address (key : Nat × Nat) : String :=
  Hex.markedBytes ((Keccak.digest (coordinateBytes key.1 ++ coordinateBytes key.2)).drop 12)

/-- The address behind the seal of a digest. -/
def signer? (digest bytes : List UInt8) : Option String := do
  let sig ← signature? bytes
  let key ← Curve.recover? (bigNat digest) sig
  return address key

/-- The last sixty-five bytes, where there are as many. -/
def lastSeal? (bytes : List UInt8) : Option (List UInt8) :=
  if bytes.length < length then none else some (bytes.drop (bytes.length - length))

/-- The addresses behind the seals of the creator and of the attestor. -/
def signers (b : Block) : Option String × Option String :=
  let extra := bytesOrEmpty b.extraData
  match sealHash? b extra with
  | none => (none, none)
  | some digest =>
    let creator := (lastSeal? extra).bind (signer? digest)
    let attestor := do
      let text ← b.validator
      let bytes ← Hex.bytes? text
      let last ← lastSeal? bytes
      signer? digest last
    (creator, attestor)

/-- A row with the signers of its block. -/
def applySigners (b : Block) (r : BlockRow) : BlockRow :=
  let (creator, attestor) := signers b
  { r with creator := creator, attestor := attestor }

end ChainIndex.Seal
