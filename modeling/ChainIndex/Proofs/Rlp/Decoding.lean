import ChainIndex.Chain.Seal
import Mathlib.Data.List.Induction

/-!
# Reading recursive length prefixes

An `Item` is a string of bytes or a list of items, nested to any depth.  `decode?` reads an encoding
the strict way.  It takes a byte below `0x80` only for itself, and a length only in its shortest
form, without zeros in front.

A length of `2 ^ 64` or more has no head, since a head has room for eight bytes of a length.  Up to
that, `decode?` reads exactly the encodings (`decode?_eq_some_iff`), so different items have
different encodings.

Everything follows from what stands at the front of some bytes.  `next?` reads that, and it finds a
string or a list just where the encoding of one stands (`encode_of_next?`, `next?_encode`).
-/

namespace ChainIndex.Rlp

open Seal (bigNat)

/-! ## Numbers -/

theorem bigNat_append_singleton (bytes : List UInt8) (b : UInt8) :
    bigNat (bytes ++ [b]) = 256 * bigNat bytes + b.toNat := by
  rw [bigNat, List.foldl_append]
  rfl

theorem bigEndian_zero : bigEndian 0 = [] := by rw [bigEndian, if_pos rfl]

theorem bigEndian_of_ne {n : Nat} (positive : n ≠ 0) :
    bigEndian n = bigEndian (n / 256) ++ [UInt8.ofNat n] := by rw [bigEndian, if_neg positive]

theorem bigEndian_ne_nil {n : Nat} (positive : n ≠ 0) : bigEndian n ≠ [] := by
  rw [bigEndian_of_ne positive]
  exact List.append_ne_nil_of_right_ne_nil _ (List.cons_ne_nil _ _)

@[simp] theorem bigNat_bigEndian (n : Nat) : bigNat (bigEndian n) = n := by
  fun_induction bigEndian n with
  | case1 => rfl
  | case2 n _ ih =>
    rw [bigNat_append_singleton, ih, UInt8.toNat_ofNat']
    exact Nat.div_add_mod n 256

/-- Different numbers have different bytes. -/
theorem bigEndian_inj_iff {m n : Nat} : bigEndian m = bigEndian n ↔ m = n :=
  ⟨fun same => by rw [← bigNat_bigEndian m, same, bigNat_bigEndian], congrArg bigEndian⟩

/-- Bytes without a zero in front are the bytes of their number. -/
theorem bigEndian_bigNat {bytes : List UInt8} (front : bytes.head? ≠ some 0) :
    bigEndian (bigNat bytes) = bytes := by
  induction bytes using List.reverseRecOn with
  | nil => exact bigEndian_zero
  | append_singleton bytes b ih =>
    have ih : bigEndian (bigNat bytes) = bytes := ih fun zero => front (by
      rw [List.head?_append, zero]
      rfl)
    have positive : bigNat (bytes ++ [b]) ≠ 0 := by
      intro zero
      rw [bigNat_append_singleton] at zero
      have high : bigNat bytes = 0 := by omega
      have low : b = 0 := UInt8.toNat_inj.mp (by show b.toNat = 0; omega)
      rw [high, bigEndian_zero] at ih
      exact front (by rw [← ih, low]; rfl)
    have byte := b.toNat_lt
    rw [bigEndian_of_ne positive, bigNat_append_singleton]
    have high : (256 * bigNat bytes + b.toNat) / 256 = bigNat bytes := by omega
    have low : UInt8.ofNat (256 * bigNat bytes + b.toNat) = b := by
      rw [← UInt8.toNat_inj, UInt8.toNat_ofNat']
      omega
    rw [high, low, ih]

theorem head?_bigEndian (n : Nat) : (bigEndian n).head? ≠ some 0 := by
  fun_induction bigEndian n with
  | case1 => nofun
  | case2 n positive ih =>
    cases front : bigEndian (n / 256) with
    | cons b bytes =>
      rw [front] at ih
      exact ih
    | nil =>
      -- a number of one byte is that byte
      have small : n / 256 = 0 := by
        rw [← bigNat_bigEndian (n / 256), front]
        rfl
      intro zero
      have byte : (UInt8.ofNat n).toNat = 0 := congrArg UInt8.toNat (Option.some.inj zero)
      rw [UInt8.toNat_ofNat'] at byte
      omega

theorem length_bigEndian_le_iff {n k : Nat} : (bigEndian n).length ≤ k ↔ n < Nat.pow 256 k := by
  fun_induction bigEndian n generalizing k with
  | case1 => exact iff_of_true (Nat.zero_le k) (Nat.pow_pos (by decide))
  | case2 n positive ih =>
    rw [List.length_append, List.length_singleton]
    cases k with
    | zero =>
      refine iff_of_false (Nat.not_succ_le_zero _) fun small => positive ?_
      exact Nat.lt_one_iff.mp small
    | succ k =>
      rw [Nat.add_le_add_iff_right, ih, Nat.div_lt_iff_lt_mul (by decide)]
      rfl

/-! ## Heads -/

/-- What a head adds to its base: a length up to 55, or 55 and the count of its bytes. -/
def lead (length : Nat) : Nat :=
  if length ≤ 55 then length else 55 + (bigEndian length).length

/-- The bytes of a length that follow in its head. -/
def digits (length : Nat) : List UInt8 := if length ≤ 55 then [] else bigEndian length

theorem head_eq (base length : Nat) :
    head base length = UInt8.ofNat (base + lead length) :: digits length := by
  rw [head, lead, digits]
  split
  · rfl
  · rw [← Nat.add_assoc]

theorem lead_le_iff {length : Nat} : lead length ≤ 63 ↔ length < UInt64.size := by
  rw [lead]
  split
  case isTrue short =>
    exact iff_of_true (by omega) (Nat.lt_of_le_of_lt short (by decide))
  case isFalse =>
    show _ ↔ length < Nat.pow 256 8
    rw [← length_bigEndian_le_iff]
    omega

/-- A string of one byte that stands for itself. -/
def isPlain : List UInt8 → Bool
  | [b] => b < 0x80
  | _ => false

theorem isPlain_iff {payload : List UInt8} : isPlain payload ↔ ∃ b, payload = [b] ∧ b < 0x80 := by
  match payload with
  | [] => exact ⟨nofun, nofun⟩
  | [b] => simp [isPlain]
  | _ :: _ :: _ => exact ⟨nofun, nofun⟩

theorem string_eq (payload : List UInt8) : string payload =
    if isPlain payload then payload else head 0x80 payload.length ++ payload := by
  match payload with
  | [] => rfl
  | [b] =>
    show (if b < 0x80 then _ else _) = if decide (b < 0x80) = true then _ else _
    simp only [decide_eq_true_eq]
    rfl
  | _ :: _ :: _ => rfl

/-! ## Items -/

/-- A string of bytes or a list of items. -/
inductive Item where
  | bytes (payload : List UInt8)
  | list (items : List Item)

mutual

/-- An item as bytes. -/
def Item.encode : Item → List UInt8
  | .bytes payload => string payload
  | .list items =>
    let payload := Item.encodeAll items
    head 0xc0 payload.length ++ payload

/-- Items as bytes, one behind the other. -/
def Item.encodeAll : List Item → List UInt8
  | [] => []
  | item :: items => item.encode ++ Item.encodeAll items

end

/-! ## What stands at the front -/

/-- What stands at the front of some bytes, and the bytes behind it. -/
inductive Front where
  /-- A string of bytes. -/
  | bytes (payload rest : List UInt8)
  /-- The payload of a list. -/
  | list (payload rest : List UInt8)

namespace Front

/-- The bytes that stand there, but for their head. -/
def payload : Front → List UInt8
  | bytes payload _ | list payload _ => payload

/-- The bytes behind it. -/
def rest : Front → List UInt8
  | bytes _ rest | list _ rest => rest

/-- All of the bytes. -/
def encode : Front → List UInt8
  | bytes payload rest => string payload ++ rest
  | list payload rest => head 0xc0 payload.length ++ (payload ++ rest)

end Front

/-- The first bytes, if there are as many, and the bytes behind them. -/
def take? (n : Nat) (bytes : List UInt8) : Option (List UInt8 × List UInt8) :=
  if n ≤ bytes.length then some (bytes.splitAt n) else none

/-- The payload behind a first byte that adds `k` to its base, and the bytes behind the payload.  A
length that needs no bytes of its own does not have any, and its bytes do not start with zero. -/
def payload? (k : Nat) (bytes : List UInt8) : Option (List UInt8 × List UInt8) :=
  if k ≤ 55 then take? k bytes
  else
    (take? (k - 55) bytes).bind fun (digits, bytes) =>
      if digits.head? = some 0 ∨ bigNat digits ≤ 55 then none else take? (bigNat digits) bytes

/-- What stands at the front of some bytes. -/
def next? : List UInt8 → Option Front
  | [] => none
  | b :: bytes =>
    if b < 0x80 then some (.bytes [b] bytes)
    else if b < 0xc0 then
      (payload? (b.toNat - 0x80) bytes).bind fun (payload, rest) =>
        if isPlain payload then none else some (.bytes payload rest)
    else (payload? (b.toNat - 0xc0) bytes).map fun (payload, rest) => .list payload rest

variable {bytes payload rest front : List UInt8} {n k : Nat}

theorem take?_eq_some_iff :
    take? n bytes = some (front, rest) ↔ front.length = n ∧ bytes = front ++ rest := by
  rw [take?, Option.ite_none_right_eq_some, List.splitAt_eq, Option.some.injEq, Prod.mk.injEq]
  constructor
  · rintro ⟨enough, rfl, rfl⟩
    exact ⟨List.length_take_of_le enough, (List.take_append_drop n bytes).symm⟩
  · rintro ⟨rfl, rfl⟩
    exact ⟨by simp, List.take_left, List.drop_left⟩

/-- A payload stands behind a first byte just where its length tells that byte, and the rest of the
head is in front of it. -/
theorem payload?_eq_some_iff : payload? k bytes = some (payload, rest) ↔
    k = lead payload.length ∧ bytes = digits payload.length ++ (payload ++ rest) := by
  rw [payload?]
  constructor
  · intro found
    split at found
    · next short =>
      obtain ⟨rfl, rfl⟩ := take?_eq_some_iff.mp found
      rw [lead, digits, if_pos short, if_pos short]
      exact ⟨rfl, rfl⟩
    · next long =>
      obtain ⟨⟨ds, behind⟩, first, behindDigits⟩ := Option.bind_eq_some_iff.mp found
      obtain ⟨count, rfl⟩ := take?_eq_some_iff.mp first
      obtain ⟨shortest, taken⟩ := Option.ite_none_left_eq_some.mp behindDigits
      obtain ⟨length, rfl⟩ := take?_eq_some_iff.mp taken
      obtain ⟨noZero, above⟩ := not_or.mp shortest
      rw [lead, digits, length, if_neg above, if_neg above, bigEndian_bigNat noZero, count]
      exact ⟨by omega, rfl⟩
  · rintro ⟨rfl, rfl⟩
    rw [lead, digits]
    by_cases short : payload.length ≤ 55
    · rw [if_pos short, if_pos short, if_pos short]
      exact take?_eq_some_iff.mpr ⟨rfl, rfl⟩
    · have digits : bigEndian payload.length ≠ [] := bigEndian_ne_nil (by omega)
      have long : ¬ 55 + (bigEndian payload.length).length ≤ 55 := by
        have := List.length_pos_iff.mpr digits
        omega
      rw [if_neg short, if_neg short, if_neg long, Nat.add_sub_cancel_left]
      refine Option.bind_eq_some_iff.mpr ⟨_, take?_eq_some_iff.mpr ⟨rfl, rfl⟩, ?_⟩
      refine Option.ite_none_left_eq_some.mpr ⟨?_, take?_eq_some_iff.mpr ⟨?_, rfl⟩⟩
      · rw [bigNat_bigEndian]
        exact not_or.mpr ⟨head?_bigEndian _, short⟩
      · exact (bigNat_bigEndian _).symm

/-- A head starts with a byte on top of its base, and that byte tells the payload. -/
theorem head_append_eq_cons {base : Nat} (room : base + 63 < 256)
    (short : payload.length < UInt64.size) : ∃ b bytes,
      head base payload.length ++ (payload ++ rest) = b :: bytes ∧ base ≤ b.toNat ∧
        b.toNat ≤ base + 63 ∧ payload? (b.toNat - base) bytes = some (payload, rest) := by
  have small := lead_le_iff.mpr short
  have value : (UInt8.ofNat (base + lead payload.length)).toNat = base + lead payload.length :=
    UInt8.toNat_ofNat_of_lt' (by show _ < 256; omega)
  refine ⟨_, _, by rw [head_eq, List.cons_append], ?_⟩
  rw [value, payload?_eq_some_iff]
  exact ⟨by omega, by omega, by omega, rfl⟩

/-- A payload that a first byte tells stands behind its head. -/
theorem cons_eq_head_append {base : Nat} {b : UInt8} (above : base ≤ b.toNat)
    (below : b.toNat ≤ base + 63) (found : payload? (b.toNat - base) bytes = some (payload, rest)) :
    b :: bytes = head base payload.length ++ (payload ++ rest) ∧ payload.length < UInt64.size := by
  obtain ⟨told, rfl⟩ := payload?_eq_some_iff.mp found
  have first : base + lead payload.length = b.toNat := by omega
  rw [head_eq, first, UInt8.ofNat_toNat, ← lead_le_iff]
  exact ⟨rfl, by omega⟩

theorem next?_of_lt {b : UInt8} (plain : b < 0x80) :
    next? (b :: bytes) = some (.bytes [b] bytes) := by rw [next?, if_pos plain]

theorem next?_of_mem {b : UInt8} (above : 0x80 ≤ b.toNat) (below : b.toNat ≤ 0x80 + 63) :
    next? (b :: bytes) = (payload? (b.toNat - 0x80) bytes).bind fun (payload, rest) =>
      if isPlain payload then none else some (.bytes payload rest) := by
  have notPlain : ¬ b < 0x80 := fun low =>
    Nat.not_lt.mpr above (UInt8.lt_iff_toNat_lt.mp low)
  rw [next?, if_neg notPlain, if_pos (UInt8.lt_iff_toNat_lt.mpr (Nat.lt_succ_of_le below))]

theorem next?_of_ge {b : UInt8} (above : 0xc0 ≤ b.toNat) : next? (b :: bytes) =
    (payload? (b.toNat - 0xc0) bytes).map fun (payload, rest) => .list payload rest := by
  have notPlain : ¬ b < 0x80 := fun low =>
    absurd (UInt8.lt_iff_toNat_lt.mp low) (Nat.not_lt.mpr (Nat.le_trans (by decide) above))
  have noString : ¬ b < 0xc0 := fun low =>
    Nat.not_lt.mpr above (UInt8.lt_iff_toNat_lt.mp low)
  rw [next?, if_neg notPlain, if_neg noString]

/-- What stands at the front of some bytes does so by its encoding. -/
theorem encode_of_next? {found : Front} (reads : next? bytes = some found) :
    bytes = found.encode ∧ found.payload.length < UInt64.size := by
  match bytes with
  | [] => cases reads
  | b :: bytes =>
    by_cases plain : b < 0x80
    · rw [next?_of_lt plain] at reads
      cases reads
      refine ⟨?_, (by decide : 1 < UInt64.size)⟩
      rw [Front.encode, string_eq, if_pos (isPlain_iff.mpr ⟨b, rfl, plain⟩)]
      rfl
    have above : 0x80 ≤ b.toNat := Nat.not_lt.mp fun low => plain (UInt8.lt_iff_toNat_lt.mpr low)
    by_cases below : b.toNat ≤ 0x80 + 63
    · rw [next?_of_mem above below] at reads
      obtain ⟨⟨p, r⟩, told, kept⟩ := Option.bind_eq_some_iff.mp reads
      obtain ⟨notPlain, same⟩ := Option.ite_none_left_eq_some.mp kept
      cases same
      rw [Front.encode, string_eq, if_neg notPlain, List.append_assoc]
      exact cons_eq_head_append above below told
    · have above : 0xc0 ≤ b.toNat := Nat.lt_of_not_le below
      rw [next?_of_ge above] at reads
      obtain ⟨⟨p, r⟩, told, same⟩ := Option.map_eq_some_iff.mp reads
      cases same
      exact cons_eq_head_append above (Nat.le_of_lt_succ b.toNat_lt) told

/-- A string or a list is read where its encoding stands. -/
theorem next?_encode (found : Front) (short : found.payload.length < UInt64.size) :
    next? found.encode = some found := by
  cases found with
  | bytes payload rest =>
    rw [Front.encode, string_eq]
    by_cases plain : isPlain payload
    · obtain ⟨b, rfl, low⟩ := isPlain_iff.mp plain
      rw [if_pos plain]
      exact next?_of_lt low
    · rw [if_neg plain, List.append_assoc]
      obtain ⟨b, bytes, first, above, below, told⟩ : ∃ b bytes,
          head 0x80 payload.length ++ (payload ++ rest) = b :: bytes ∧ _ ∧ _ ∧ _ :=
        head_append_eq_cons (by decide) short
      rw [first, next?_of_mem above below, told]
      exact if_neg plain
  | list payload rest =>
    obtain ⟨b, bytes, first, above, -, told⟩ : ∃ b bytes,
        head 0xc0 payload.length ++ (payload ++ rest) = b :: bytes ∧ _ ∧ _ ∧ _ :=
      head_append_eq_cons (by decide) short
    rw [Front.encode, first, next?_of_ge above, told]
    rfl

/-! ## Decoding -/

theorem head_length_pos (base length : Nat) : 0 < (head base length).length := by
  rw [head_eq]
  exact Nat.zero_lt_succ _

/-- A string is not longer than its encoding, and the encoding is not empty. -/
theorem length_string_pos (payload : List UInt8) :
    0 < (string payload).length ∧ payload.length ≤ (string payload).length := by
  rw [string_eq]
  by_cases plain : isPlain payload
  · obtain ⟨b, rfl, -⟩ := isPlain_iff.mp plain
    rw [if_pos plain]
    exact ⟨Nat.one_pos, Nat.le_refl _⟩
  · have positive := head_length_pos 0x80 payload.length
    rw [if_neg plain, List.length_append]
    omega

theorem Front.payload_le (found : Front) : found.payload.length ≤ found.encode.length := by
  cases found with
  | bytes payload rest =>
    rw [encode, List.length_append]
    exact Nat.le_add_right_of_le (length_string_pos payload).2
  | list payload rest =>
    rw [encode, List.length_append, List.length_append]
    exact Nat.le_add_left_of_le (Nat.le_add_right _ _)

theorem length_lt_of_bytes (reads : next? bytes = some (.bytes payload rest)) :
    rest.length < bytes.length := by
  rw [(encode_of_next? reads).1, Front.encode, List.length_append]
  exact Nat.lt_add_of_pos_left (length_string_pos payload).1

theorem length_lt_of_list (reads : next? bytes = some (.list payload rest)) :
    payload.length + rest.length < bytes.length := by
  rw [(encode_of_next? reads).1, Front.encode, List.length_append, List.length_append]
  exact Nat.lt_add_of_pos_left (head_length_pos _ _)

/-- The items that some bytes are. -/
def items? : List UInt8 → Option (List Item)
  | [] => some []
  | b :: bytes =>
    match _ : next? (b :: bytes) with
    | none => none
    | some (.bytes payload rest) => (items? rest).map (.bytes payload :: ·)
    | some (.list payload rest) =>
      (items? payload).bind fun inner => (items? rest).map (.list inner :: ·)
termination_by bytes => bytes.length
decreasing_by
  · exact length_lt_of_bytes ‹_›
  · exact Nat.lt_of_le_of_lt (Nat.le_add_right _ _) (length_lt_of_list ‹_›)
  · exact Nat.lt_of_le_of_lt (Nat.le_add_left _ _) (length_lt_of_list ‹_›)

/-- The item that some bytes are. -/
def decode? (bytes : List UInt8) : Option Item :=
  match items? bytes with
  | some [item] => some item
  | _ => none

theorem Item.encode_ne_nil (item : Item) : item.encode ≠ [] := by
  rw [← List.length_pos_iff]
  cases item with
  | bytes payload => exact (length_string_pos payload).1
  | list items =>
    rw [encode, List.length_append]
    exact Nat.add_pos_left (head_length_pos _ _) _

/-- What an item is in front of some bytes. -/
def Item.toFront (rest : List UInt8) : Item → Front
  | .bytes payload => .bytes payload rest
  | .list items => .list (encodeAll items) rest

theorem Item.encode_toFront (item : Item) (rest : List UInt8) :
    (item.toFront rest).encode = item.encode ++ rest := by
  cases item with
  | bytes payload => rw [toFront, Front.encode, encode]
  | list items => rw [toFront, Front.encode, encode, List.append_assoc]

/-- Items are some bytes just where the first one is read at the front and the others are the bytes
behind it. -/
theorem encodeAll_eq_cons_iff {items : List Item} {b : UInt8}
    (short : (b :: bytes).length < UInt64.size) :
    Item.encodeAll items = b :: bytes ↔ ∃ item others, items = item :: others ∧
      next? (b :: bytes) = some (item.toFront (Item.encodeAll others)) := by
  constructor
  · intro same
    cases items with
    | nil => cases same
    | cons item others =>
      refine ⟨item, others, rfl, ?_⟩
      rw [← same, Item.encodeAll, ← Item.encode_toFront] at short ⊢
      exact next?_encode _ (Nat.lt_of_le_of_lt (Front.payload_le _) short)
  · rintro ⟨item, others, rfl, reads⟩
    rw [(encode_of_next? reads).1, Item.encode_toFront, Item.encodeAll]

/-- Some bytes are read as the items whose encodings they are, one behind the other. -/
theorem items?_eq_some_iff {items : List Item} (short : bytes.length < UInt64.size) :
    items? bytes = some items ↔ Item.encodeAll items = bytes := by
  fun_induction items? bytes generalizing items with
  | case1 =>
    refine ⟨fun same => Option.some.inj same ▸ rfl, fun same => ?_⟩
    cases items with
    | nil => rfl
    | cons item others =>
      rw [Item.encodeAll] at same
      exact absurd (List.append_eq_nil_iff.mp same).1 item.encode_ne_nil
  | case2 b bytes reads =>
    rw [encodeAll_eq_cons_iff short]
    exact ⟨nofun, fun ⟨_, _, _, found⟩ => nomatch reads.symm.trans found⟩
  | case3 b bytes payload rest reads ih =>
    have ih {others} := @ih others (Nat.lt_trans (length_lt_of_bytes reads) short)
    rw [encodeAll_eq_cons_iff short]
    constructor
    · intro found
      obtain ⟨others, behind, rfl⟩ := Option.map_eq_some_iff.mp found
      exact ⟨.bytes payload, others, rfl, by rw [ih.mp behind]; exact reads⟩
    · rintro ⟨item, others, rfl, found⟩
      cases item with
      | list inner => cases reads.symm.trans found
      | bytes p =>
        cases reads.symm.trans found
        rw [ih.mpr rfl]
        rfl
  | case4 b bytes payload rest reads ih ih' =>
    have shorter := Nat.lt_trans (length_lt_of_list reads) short
    have ih {inner} := @ih inner (Nat.lt_of_le_of_lt (Nat.le_add_right _ _) shorter)
    have ih' {others} := @ih' others (Nat.lt_of_le_of_lt (Nat.le_add_left _ _) shorter)
    rw [encodeAll_eq_cons_iff short]
    constructor
    · intro found
      obtain ⟨inner, inside, found⟩ := Option.bind_eq_some_iff.mp found
      obtain ⟨others, behind, rfl⟩ := Option.map_eq_some_iff.mp found
      refine ⟨.list inner, others, rfl, ?_⟩
      rw [ih'.mp behind, Item.toFront, ih.mp inside]
      exact reads
    · rintro ⟨item, others, rfl, found⟩
      cases item with
      | bytes p => cases reads.symm.trans found
      | list inner =>
        cases reads.symm.trans found
        rw [ih.mpr rfl, ih'.mpr rfl]
        rfl

/-- Some bytes are read as the item whose encoding they are. -/
theorem decode?_eq_some_iff {item : Item} (short : bytes.length < UInt64.size) :
    decode? bytes = some item ↔ item.encode = bytes := by
  have one : Item.encodeAll [item] = item.encode := List.append_nil _
  rw [← one, ← items?_eq_some_iff short, decode?]
  split
  · next found => simp [found]
  · next others => exact ⟨nofun, fun found => absurd found (others item)⟩

/-! ## Lists of strings -/

theorem encodeAll_map_bytes (items : List (List UInt8)) :
    Item.encodeAll (items.map .bytes) = items.flatMap string := by
  induction items with
  | nil => rfl
  | cons item items ih => rw [List.map_cons, Item.encodeAll, ih]; rfl

theorem list_eq_encode (items : List (List UInt8)) :
    list items = (Item.list (items.map .bytes)).encode := by
  rw [Item.encode, encodeAll_map_bytes, list]

/-- A list of strings is read as that list. -/
theorem decode?_list {items : List (List UInt8)} (short : (list items).length < UInt64.size) :
    decode? (list items) = some (.list (items.map .bytes)) :=
  (decode?_eq_some_iff short).mpr (list_eq_encode items).symm

/-- Different lists of strings have different encodings. -/
theorem list_inj {items others : List (List UInt8)} (short : (list items).length < UInt64.size)
    (same : list items = list others) : items = others := by
  have read := decode?_list short
  rw [same, decode?_list (same ▸ short), Option.some.injEq, Item.list.injEq] at read
  exact ((List.map_inj_right fun _ _ => Item.bytes.inj).mp read).symm

end ChainIndex.Rlp
