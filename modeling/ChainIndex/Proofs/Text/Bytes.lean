import Mathlib.Data.List.Infix
import Mathlib.Tactic.IntervalCases
import ChainIndex.Text.Hex

/-!
# Texts as bytes

A text is digested as its bytes.  Different texts have different bytes (`utf8_inj`).  A byte below
128 is a character of its own and never a part of another, so where the bytes of one text end those
of another and start with such a byte, the one text ends the other (`suffix_of_utf8`).

A hash is digested as the bytes of its digits.  They do not depend on the mark or on the case of
the digits (`Hex.bytes?_normalize`), and bytes come back from their digits (`Hex.ofBytes_inj`).
-/

namespace ChainIndex

/-- The bytes of characters. -/
def utf8 (cs : List Char) : List UInt8 := cs.flatMap String.utf8EncodeChar

@[simp] theorem utf8_nil : utf8 [] = [] := rfl

theorem utf8_cons (c : Char) (cs : List Char) : utf8 (c :: cs) = String.utf8EncodeChar c ++ utf8 cs :=
  rfl

theorem toList_byteArray (bs : ByteArray) : bs.toList = bs.data.toList := by
  have loop (i : Nat) (acc : List UInt8) :
      ByteArray.toList.loop bs i acc = acc.reverse ++ bs.data.toList.drop i := by
    fun_induction ByteArray.toList.loop bs i acc with
    | case1 i acc more ih =>
      have inside : i < bs.data.toList.length := by simpa using more
      rw [ih, List.drop_eq_getElem_cons inside]
      simp [ByteArray.get!, more]
    | case2 i acc past =>
      rw [List.drop_eq_nil_of_le (by simpa using past)]
      simp
  exact loop 0 []

/-- The bytes of a text are those of its characters. -/
theorem toUTF8_toList (s : String) : s.toUTF8.toList = utf8 s.toList := by
  rw [toList_byteArray]
  show s.toByteArray.data.toList = _
  rw [← String.utf8Encode_toList, List.utf8Encode, List.toList_data_toByteArray, utf8]

/-- Different texts have different bytes. -/
theorem utf8_inj {cs ds : List Char} (h : utf8 cs = utf8 ds) : cs = ds := by
  have bytes (cs : List Char) : (String.ofList cs).toUTF8.toList = utf8 cs := by
    rw [toUTF8_toList, String.toList_ofList]
  rw [← bytes cs, ← bytes ds, toList_byteArray, toList_byteArray] at h
  have same : (String.ofList cs).toByteArray = (String.ofList ds).toByteArray :=
    ByteArray.ext (Array.toList_inj.mp h)
  exact String.ofList_injective (String.toByteArray_inj.mp same)

/-! ## Bytes below 128 -/

theorem utf8EncodeChar_ascii {c : Char} (ascii : c.toNat < 128) :
    String.utf8EncodeChar c = [UInt8.ofNat c.toNat] := by
  rw [String.utf8EncodeChar]
  exact if_pos (Nat.le_of_lt_succ ascii)

/-- A character that is not ASCII has only bytes from 128 on. -/
theorem high_of_mem_utf8EncodeChar {c : Char} (long : ¬ c.toNat < 128) {b : UInt8}
    (hb : b ∈ String.utf8EncodeChar c) : 128 ≤ b.toNat := by
  have notLow : ¬ c.val.toNat ≤ 127 := fun low => long (Nat.lt_succ_of_le low)
  simp only [String.utf8EncodeChar, if_neg notLow] at hb
  -- every byte is a small remainder, raised by 128 or more
  split at hb
  case isTrue =>
    rcases List.mem_pair.mp hb with rfl | rfl
    all_goals rw [UInt8.toNat_ofNat_of_lt' (by rw [UInt8.size]; omega)]; omega
  case isFalse =>
    split at hb
    all_goals simp only [List.mem_cons, List.not_mem_nil, or_false] at hb
    · rcases hb with rfl | rfl | rfl
      all_goals rw [UInt8.toNat_ofNat_of_lt' (by rw [UInt8.size]; omega)]; omega
    · rcases hb with rfl | rfl | rfl | rfl
      all_goals rw [UInt8.toNat_ofNat_of_lt' (by rw [UInt8.size]; omega)]; omega

/-- The byte of an ASCII character stands in no other character. -/
theorem eq_of_mem_utf8EncodeChar {c d : Char} (ascii : d.toNat < 128)
    (h : UInt8.ofNat d.toNat ∈ String.utf8EncodeChar c) : c = d := by
  have value {n : Nat} (small : n < 128) : (UInt8.ofNat n).toNat = n :=
    UInt8.toNat_ofNat_of_lt' (Nat.lt_trans small (by decide))
  by_cases small : c.toNat < 128
  · rw [utf8EncodeChar_ascii small, List.mem_singleton] at h
    have same := congrArg UInt8.toNat h
    rw [value ascii, value small] at same
    exact Char.toNat_inj.mp same.symm
  · have high := high_of_mem_utf8EncodeChar small h
    rw [value ascii] at high
    omega

/-- A text that starts with an ASCII character, and whose bytes end those of another text, ends the
other text. -/
theorem suffix_of_utf8 {d : Char} (ascii : d.toNat < 128) {ds cs : List Char}
    (h : utf8 (d :: ds) <:+ utf8 cs) : d :: ds <:+ cs := by
  induction cs with
  | nil =>
    rw [utf8_cons, utf8EncodeChar_ascii ascii] at h
    cases List.suffix_nil.mp h
  | cons c cs ih =>
    rw [List.suffix_cons_iff]
    obtain ⟨front, split⟩ := h
    rw [utf8_cons c] at split
    rcases List.append_eq_append_iff.mp split with ⟨part, first, rest⟩ | ⟨part, _, rest⟩
    · -- the text starts within the first character, so that is its first character
      cases part with
      | nil => exact .inr (ih ⟨[], rest⟩)
      | cons b part =>
        rw [utf8_cons d, utf8EncodeChar_ascii ascii] at rest
        obtain ⟨rfl, _⟩ := List.cons.inj rest
        have same : c = d := eq_of_mem_utf8EncodeChar ascii (first ▸ by simp)
        rw [same, utf8EncodeChar_ascii ascii] at first
        have nothing : front = [] := by
          have lengths := congrArg List.length first
          simp only [List.length_append, List.length_cons, List.length_nil] at lengths
          exact List.length_eq_zero_iff.mp (by omega)
        rw [nothing, List.nil_append, ← utf8_cons] at split
        exact .inl (utf8_inj split)
    · exact .inr (ih ⟨part, rest.symm⟩)

/-! ## Hexadecimal digits -/

namespace Hex

theorem digit?_digitChar {n : Nat} (h : n < 16) : digit? (digitChar n) = some n := by
  revert n
  decide

/-- Bytes come back from their digits. -/
theorem pairs_bytePair (bs : List UInt8) : pairs (bs.flatMap bytePair) = some bs := by
  induction bs with
  | nil => rfl
  | cons b bs ih =>
    have high : b.toNat / 16 < 16 := Nat.div_lt_of_lt_mul b.toNat_lt
    have low : b.toNat % 16 < 16 := Nat.mod_lt _ (by decide)
    rw [List.flatMap_cons, bytePair, List.cons_append, List.singleton_append, pairs,
      digit?_digitChar high, digit?_digitChar low, ih]
    show some (UInt8.ofNat (16 * (b.toNat / 16) + b.toNat % 16) :: bs) = some (b :: bs)
    rw [Nat.div_add_mod, UInt8.ofNat_toNat]

theorem ofBytes_inj {bs cs : List UInt8} (h : ofBytes bs = ofBytes cs) : bs = cs := by
  have digits := String.ofList_injective h
  have back := pairs_bytePair bs
  rw [digits, pairs_bytePair cs] at back
  exact (Option.some.inj back).symm

/-- A digit has the same value in lower case. -/
theorem digit?_toLower (c : Char) : digit? c.toLower = digit? c := by
  by_cases upper : 'A'.val ≤ c.val ∧ c.val ≤ 'Z'.val
  · have low : 65 ≤ c.toNat := UInt32.le_iff_toNat_le.mp upper.1
    have high : c.toNat ≤ 90 := UInt32.le_iff_toNat_le.mp upper.2
    have back : Char.ofNat c.toNat = c := Char.ofNat_toNat c
    generalize c.toNat = n at low high back
    subst back
    interval_cases n <;> rfl
  · have same : c.toLower = c := dif_neg upper
    rw [same]

theorem pairs_map_toLower (cs : List Char) : pairs (cs.map Char.toLower) = pairs cs := by
  fun_induction pairs cs with
  | case1 => rfl
  | case2 => rfl
  | case3 hi lo cs ih =>
    rw [List.map_cons, List.map_cons, pairs, digit?_toLower, digit?_toLower, ih]

/-- A hash has the same bytes in its normal form. -/
theorem bytes?_normalize (s : String) : bytes? (normalize s) = bytes? s := by
  have digits : unmark (normalize s).toList = (unmark s.toList).map Char.toLower := by
    simp [normalize, unmark]
  have zero : '0' :: (unmark s.toList).map Char.toLower = ('0' :: unmark s.toList).map Char.toLower :=
    rfl
  rw [bytes?, bytes?, digits, List.length_map, zero]
  split <;> rw [pairs_map_toLower]

end Hex

end ChainIndex
