import ChainIndex.Proofs.Rlp.Decoding

/-!
# What a seal covers

A seal signs the digest of a list of fifteen strings.  `sealedValues` are the values behind them.
Both parties that sign a header sign the same values, and the bytes that are digested tell all of
them apart (`sealPreimage_determines`): no two headers with different values have the same bytes.
-/

namespace ChainIndex.Seal

/-- The values of a header that a seal covers. -/
structure SealedValues where
  parentHash : List UInt8
  sha3Uncles : List UInt8
  miner : List UInt8
  stateRoot : List UInt8
  transactionsRoot : List UInt8
  receiptsRoot : List UInt8
  logsBloom : List UInt8
  difficulty : Nat
  number : Nat
  gasLimit : UInt64
  gasUsed : UInt64
  timestamp : Nat
  /-- The extra data in front of the seal. -/
  extra : List UInt8
  mixHash : List UInt8
  nonce : List UInt8
deriving DecidableEq

/-- The values as strings of bytes. -/
def SealedValues.items (v : SealedValues) : List (List UInt8) :=
  [v.parentHash, v.sha3Uncles, v.miner, v.stateRoot, v.transactionsRoot, v.receiptsRoot,
   v.logsBloom, Rlp.bigEndian v.difficulty, Rlp.bigEndian v.number,
   Rlp.bigEndian v.gasLimit.toNat, Rlp.bigEndian v.gasUsed.toNat, Rlp.bigEndian v.timestamp,
   v.extra, v.mixHash, v.nonce]

/-- The values of a block with these bytes as its extra data.  Malformed bytes are none, and a
malformed quantity is zero. -/
def sealedValues (b : Block) (extra : List UInt8) : SealedValues where
  parentHash := bytesOrEmpty b.parentHash
  sha3Uncles := bytesOrEmpty b.sha3Uncles
  miner := bytesOrEmpty b.miner
  stateRoot := bytesOrEmpty b.stateRoot
  transactionsRoot := bytesOrEmpty b.transactionsRoot
  receiptsRoot := bytesOrEmpty b.receiptsRoot
  logsBloom := bytesOrEmpty b.logsBloom
  difficulty := (Hex.word256? b.difficulty).getD 0
  number := (Hex.word256? b.number).getD 0
  gasLimit := Hex.word64 b.gasLimit
  gasUsed := Hex.word64 b.gasUsed
  timestamp := (Hex.word256? b.timestamp).getD 0
  extra := extra.take (extra.length - length)
  mixHash := bytesOrEmpty b.mixHash
  nonce := bytesOrEmpty b.nonce

theorem items_sealedValues (b : Block) (extra : List UInt8) :
    (sealedValues b extra).items = sealedItems b extra := by
  simp only [SealedValues.items, sealedValues, sealedItems, quantityBytes, wordBytes]

/-- Different values have different strings. -/
theorem SealedValues.items_inj {v w : SealedValues} (same : v.items = w.items) : v = w := by
  cases v
  cases w
  simp only [items, List.cons.injEq, Rlp.bigEndian_inj_iff, UInt64.toNat_inj, and_true] at same
  rw [SealedValues.mk.injEq]
  exact same

variable {a b : Block} {extra extra' : List UInt8}

theorem sealHash?_eq (room : length ≤ extra.length) :
    sealHash? a extra = some (Keccak.digest (sealPreimage a extra)) := by
  rw [sealHash?, if_neg (Nat.not_lt.mpr room)]

theorem sealPreimage_congr (same : sealedValues a extra = sealedValues b extra') :
    sealPreimage a extra = sealPreimage b extra' := by
  rw [sealPreimage, sealPreimage, ← items_sealedValues, same, items_sealedValues]

/-- Extra data with other bytes in place of the seal. -/
def reseal (extra bytes : List UInt8) : List UInt8 := extra.take (extra.length - length) ++ bytes

theorem length_reseal (room : length ≤ extra.length) {bytes : List UInt8}
    (size : bytes.length = length) : (reseal extra bytes).length = extra.length := by
  rw [reseal, List.length_append, List.length_take_of_le (Nat.sub_le _ _), size]
  exact Nat.sub_add_cancel room

/-- Another seal has the same values in front of it. -/
theorem sealedValues_reseal (room : length ≤ extra.length) {bytes : List UInt8}
    (size : bytes.length = length) :
    sealedValues a (reseal extra bytes) = sealedValues a extra := by
  have front : (extra.take (extra.length - length)).length = extra.length - length :=
    List.length_take_of_le (Nat.sub_le _ _)
  simp only [sealedValues, length_reseal room size]
  rw [reseal, List.take_append_of_le_length (Nat.le_of_eq front.symm), List.take_take, Nat.min_self]

/-- The bytes that are digested for a seal tell the sealed values and nothing else.  The digest does
not depend on the seal in the extra data, on the hash of the block, on the seal of the attestor or
on the transactions, and the bytes are read as the list of the fifteen strings.

Memory holds fewer than `2 ^ 64` bytes, and there is no head for a longer payload. -/
theorem sealPreimage_determines (a b : Block) (extra extra' : List UInt8)
    (room : length ≤ extra.length) (room' : length ≤ extra'.length) :
    sealHash? a extra = some (Keccak.digest (sealPreimage a extra)) ∧
      sealHash? b extra' = some (Keccak.digest (sealPreimage b extra')) ∧
      (∀ bytes, bytes.length = length → ∀ hash validator transactions,
        sealHash? { a with hash := hash, validator := validator, transactions := transactions }
          (reseal extra bytes) = sealHash? a extra) ∧
      ((sealPreimage a extra).length < UInt64.size →
        (sealPreimage a extra = sealPreimage b extra' ↔
          sealedValues a extra = sealedValues b extra') ∧
        Rlp.decode? (sealPreimage a extra) =
          some (.list ((sealedValues a extra).items.map .bytes))) := by
  refine ⟨sealHash?_eq room, sealHash?_eq room', fun bytes size hash validator transactions => ?_,
    fun short => ⟨⟨fun same => ?_, sealPreimage_congr⟩, ?_⟩⟩
  · have same : sealPreimage { a with hash, validator, transactions } (reseal extra bytes) =
        sealPreimage a extra := sealPreimage_congr (sealedValues_reseal room size)
    rw [sealHash?_eq ((length_reseal room size).symm ▸ room), same, sealHash?_eq room]
  · have items : sealedItems a extra = sealedItems b extra' := Rlp.list_inj short same
    rw [← items_sealedValues, ← items_sealedValues] at items
    exact SealedValues.items_inj items
  · rw [items_sealedValues]
    exact Rlp.decode?_list short

/-- Two headers that differ in the gas used are told apart, and another seal changes nothing. -/
theorem sealPreimage_determines_of_gasUsed :
    let a : Block := { number := "0x64", difficulty := "0x1", timestamp := "0x5c8a3d10" }
    let b : Block := { a with gasUsed := "0x5208" }
    let extra : List UInt8 := List.replicate 122 1
    length ≤ extra.length ∧ (sealPreimage a extra).length < UInt64.size ∧
      sealPreimage a extra ≠ sealPreimage b extra ∧
      sealHash? { a with hash := "0xaa" } (reseal extra (List.replicate 65 2)) =
        sealHash? a extra := by
  intro a b extra
  have room : length ≤ extra.length := by decide +kernel
  have short : (sealPreimage a extra).length < UInt64.size := by decide +kernel
  have apart : Hex.word64 a.gasUsed ≠ Hex.word64 b.gasUsed := by decide +kernel
  obtain ⟨-, -, resealed, told⟩ := sealPreimage_determines a b extra extra room room
  refine ⟨room, short, fun same => ?_, ?_⟩
  · exact apart (congrArg SealedValues.gasUsed ((told short).1.mp same))
  · exact resealed (List.replicate 65 2) List.length_replicate "0xaa" none []

end ChainIndex.Seal
