import Mathlib.Data.List.Forall2
import Mathlib.Data.Nat.Digits.Defs
import ChainIndex.Evidence
import ChainIndex.Node.Client
import ChainIndex.Proofs.Json.RoundTrip

/-!
# Quantities as text

A text is a *quantity* where one hexadecimal digit or more stand behind a mark, or without one.  The
digits have either case and spell a number, the most significant one first, so zeros in front change
nothing.

`Spells` and `Quantity` say so without a reader.  The two readers follow them
(`foldDigits_eq_some_iff`), and the digits that are printed spell the number that they were made
from, in base sixteen as in base ten (`spells_toDigits`).
-/

namespace ChainIndex

/-- The extras of an issue are those that it was made with, and the block number. -/
theorem Issue.lookup_make (kind : IssueKind) (number : UInt64) (hash tx : String)
    (extras : List (String × Json)) {key : String} (other : key ≠ "blockNumber") :
    (make kind number hash tx extras).extras.lookup key = extras.lookup key := by
  rw [make, Json.lookup_insertMember, if_neg other]

namespace Hex

/-- A character writes a digit of a base, in lower or in upper case. -/
def Writes (base : Nat) (c : Char) (d : Nat) : Prop :=
  d < base ∧ (c = Nat.digitChar d ∨ c = (Nat.digitChar d).toUpper)

instance (base : Nat) (c : Char) (d : Nat) : Decidable (Writes base c d) :=
  inferInstanceAs (Decidable (_ ∧ _))

/-- Characters spell a number in a base: each writes a digit, the most significant one first. -/
def Spells (base : Nat) (cs : List Char) (n : Nat) : Prop :=
  ∃ ds, List.Forall₂ (Writes base) cs ds ∧ Nat.ofDigits base ds.reverse = n

/-- A text is a quantity: one hexadecimal digit or more, behind a mark or not. -/
inductive Quantity : String → Nat → Prop
  | plain {cs : List Char} {n : Nat} (nonempty : cs ≠ []) (spelled : Spells 16 cs n) :
      Quantity (String.ofList cs) n
  | marked {cs : List Char} {n : Nat} (nonempty : cs ≠ []) (spelled : Spells 16 cs n) :
      Quantity ("0x" ++ String.ofList cs) n

variable {base n d : Nat} {c : Char} {cs : List Char} {s : String}

/-! ## Reading digits -/

/-- The greatest digit is `f`. -/
theorem toNat_lt_of_digit? (h : digit? c = some d) : c.toNat < 103 := by
  have upTo {f : Char} (least : c ≤ f) (small : f.toNat < 103) : c.toNat < 103 :=
    Nat.lt_of_le_of_lt (UInt32.le_iff_toNat_le.mp least) small
  rw [digit?] at h
  split at h
  case isTrue decimal => exact upTo decimal.2 (by decide)
  case isFalse =>
    split at h
    case isTrue lower => exact upTo lower.2 (by decide)
    case isFalse =>
      split at h
      case isTrue upper => exact upTo upper.2 (by decide)
      case isFalse => cases h

theorem digit?_eq_some_iff : digit? c = some d ↔ Writes 16 c d := by
  constructor
  · intro h
    have all : ∀ n < 103, ∀ d ∈ digit? (Char.ofNat n), Writes 16 (Char.ofNat n) d := by decide
    have writes := all c.toNat (toNat_lt_of_digit? h)
    rw [Char.ofNat_toNat] at writes
    exact writes d h
  · rintro ⟨small, rfl | rfl⟩
    · have all : ∀ d < 16, digit? (Nat.digitChar d) = some d := by decide
      exact all d small
    · have all : ∀ d < 16, digit? (Nat.digitChar d).toUpper = some d := by decide
      exact all d small

/-- A digit in front of others counts as many times the base. -/
theorem ofDigits_reverse_cons_cons (base a d : Nat) (ds : List Nat) :
    Nat.ofDigits base (a :: d :: ds).reverse = Nat.ofDigits base ((base * a + d) :: ds).reverse := by
  simp only [Nat.ofDigits_reverse_cons, List.length_cons]
  ring

/-- What was read before counts as a digit in front. -/
theorem foldDigits_eq_some_iff (acc : Nat) : foldDigits acc cs = some n ↔
    ∃ ds, List.Forall₂ (Writes 16) cs ds ∧ Nat.ofDigits 16 (acc :: ds).reverse = n := by
  induction cs generalizing acc with
  | nil => simp [foldDigits, List.forall₂_nil_left_iff]
  | cons c cs ih =>
    rw [foldDigits, Option.bind_eq_some_iff]
    constructor
    · rintro ⟨d, digit, rest⟩
      obtain ⟨ds, written, value⟩ := (ih _).mp rest
      refine ⟨d :: ds, .cons (digit?_eq_some_iff.mp digit) written, ?_⟩
      rw [ofDigits_reverse_cons_cons, value]
    · rintro ⟨_, written, value⟩
      cases written with
      | @cons _ d _ ds digit written =>
        rw [ofDigits_reverse_cons_cons] at value
        exact ⟨d, digit?_eq_some_iff.mpr digit, (ih _).mpr ⟨ds, written, value⟩⟩

theorem foldDigits_zero : foldDigits 0 cs = some n ↔ Spells 16 cs n := by
  rw [foldDigits_eq_some_iff]
  simp only [Nat.ofDigits_reverse_cons, Nat.mul_zero, Nat.add_zero]
  rfl

/-- A mark is taken off, or there is none. -/
theorem eq_unmark (cs : List Char) : cs = '0' :: 'x' :: unmark cs ∨ cs = unmark cs := by
  unfold unmark
  split
  · exact .inl rfl
  · exact .inr rfl

/-! ## Spelled numbers -/

namespace Spells

theorem zeros (h : Spells base cs n) (positive : 0 < base) (count : Nat) :
    Spells base (List.replicate count '0' ++ cs) n := by
  induction count with
  | zero => exact h
  | succ count ih =>
    obtain ⟨ds, written, value⟩ := ih
    refine ⟨0 :: ds, .cons ⟨positive, .inl rfl⟩ written, ?_⟩
    rw [Nat.ofDigits_reverse_cons, Nat.mul_zero, value]
    rfl

/-- A digit behind a number. -/
theorem concat (h : Spells base cs n) (last : Writes base c d) :
    Spells base (cs ++ [c]) (d + base * n) := by
  obtain ⟨ds, written, rfl⟩ := h
  refine ⟨ds ++ [d], List.rel_append written (.cons last .nil), ?_⟩
  rw [List.reverse_concat, Nat.ofDigits_cons]

/-- Each character is a digit. -/
theorem digit (h : Spells 16 cs n) : ∀ c ∈ cs, digit? c ≠ none := by
  obtain ⟨ds, written, _⟩ := h
  clear * - written
  induction written with
  | nil => exact fun c there => absurd there List.not_mem_nil
  | cons writes _ ih =>
    intro c there
    rcases List.mem_cons.mp there with rfl | there
    · rw [digit?_eq_some_iff.mpr writes]
      exact Option.some_ne_none _
    · exact ih c there

theorem unmark_eq (h : Spells 16 cs n) : unmark cs = cs := by
  rcases eq_unmark cs with marked | plain
  · exact absurd rfl (h.digit 'x' (marked ▸ by simp))
  · exact plain.symm

end Spells

/-- The digits of a number spell it. -/
theorem spells_toDigits (least : 1 < base) (n : Nat) : Spells base (Nat.toDigits base n) n := by
  induction n using Nat.strong_induction_on with
  | _ n ih =>
    rw [Nat.toDigits_eq_if least]
    split
    case isTrue small =>
      exact ⟨[n], .cons ⟨small, .inl rfl⟩ .nil, by simp⟩
    case isFalse large =>
      have less : n / base < n := Nat.div_lt_self (by omega) least
      have split := (ih _ less).concat (d := n % base) ⟨Nat.mod_lt n (by omega), .inl rfl⟩
      rwa [Nat.mod_add_div] at split

/-! ## Quantities -/

theorem quantity_iff : Quantity s n ↔ unmark s.toList ≠ [] ∧ Spells 16 (unmark s.toList) n := by
  constructor
  · intro h
    cases h with
    | plain nonempty spelled =>
      rw [String.toList_ofList, spelled.unmark_eq]
      exact ⟨nonempty, spelled⟩
    | @marked cs _ nonempty spelled =>
      have behind : unmark ("0x" ++ String.ofList cs).toList = cs := by simp [unmark]
      rw [behind]
      exact ⟨nonempty, spelled⟩
  · rintro ⟨nonempty, spelled⟩
    rcases eq_unmark s.toList with marked | plain
    · have text : "0x" ++ String.ofList (unmark s.toList) = s := by
        rw [← String.toList_inj, marked]
        simp [unmark]
      exact text ▸ .marked nonempty spelled
    · have text : String.ofList (unmark s.toList) = s := by rw [← plain, String.ofList_toList]
      exact text ▸ .plain nonempty spelled

/-- A reader of quantities below a bound reads those. -/
theorem quantity?_eq_some_iff {bound : Nat} :
    quantity? bound cs = some n ↔ cs ≠ [] ∧ Spells 16 cs n ∧ n < bound := by
  rw [quantity?]
  split
  case isTrue empty => simp [List.isEmpty_iff.mp empty]
  case isFalse nonempty =>
    rw [Option.filter_eq_some_iff, foldDigits_zero]
    simpa using fun _ _ => nonempty

theorem word64?_eq_some_iff {v : UInt64} : word64? s = some v ↔ Quantity s v.toNat := by
  rw [word64?, Option.map_eq_some_iff, quantity_iff]
  constructor
  · rintro ⟨n, read, rfl⟩
    obtain ⟨nonempty, spelled, small⟩ := quantity?_eq_some_iff.mp read
    rw [UInt64.toNat_ofNat_of_lt' small]
    exact ⟨nonempty, spelled⟩
  · rintro ⟨nonempty, spelled⟩
    exact ⟨v.toNat, quantity?_eq_some_iff.mpr ⟨nonempty, spelled, v.toNat_lt_size⟩,
      UInt64.ofNat_toNat⟩

theorem word256?_of_quantity (h : Quantity s n) (small : n < Nat.pow 2 256) :
    word256? s = some n := by
  obtain ⟨nonempty, spelled⟩ := quantity_iff.mp h
  have kept : (unmark s.toList).filter (· ≠ '_') = unmark s.toList := by
    refine List.filter_eq_self.mpr fun c there => decide_eq_true ?_
    rintro rfl
    exact spelled.digit '_' there rfl
  rw [word256?, if_neg (by simpa using nonempty), kept, foldDigits_zero.mpr spelled]
  simpa [Option.filter] using small

/-- The digits that are printed are the lowercase ones. -/
theorem digits_eq (n : Nat) : digits n = Nat.toDigits 16 n := by
  have char : ∀ d < 16, digitChar d = Nat.digitChar d := by decide
  induction n using Nat.strong_induction_on with
  | _ n ih =>
    rw [digits, Nat.toDigits_eq_if (by decide)]
    split
    case isTrue small => rw [char n small]
    case isFalse large =>
      rw [ih _ (Nat.div_lt_self (by omega) (by decide)), char _ (Nat.mod_lt n (by decide))]

theorem ofNat_eq (n : Nat) : ofNat n = "0x" ++ String.ofList (Nat.toDigits 16 n) := by
  rw [ofNat, digits_eq]

/-- Printed digits are read back, with any zeros in front. -/
theorem word64?_zeros (v : UInt64) (count : Nat) :
    word64? ("0x" ++ String.ofList (List.replicate count '0' ++ Nat.toDigits 16 v.toNat)) = some v := by
  refine word64?_eq_some_iff.mpr (.marked ?_ ((spells_toDigits (by decide) _).zeros (by decide) count))
  exact List.append_ne_nil_of_right_ne_nil _ Nat.toDigits_ne_nil

theorem word64?_ofNat (v : UInt64) : word64? (ofNat v.toNat) = some v := by
  rw [ofNat_eq]
  exact word64?_zeros v 0

/-- The reader of words reads the quantities below `2 ^ 64` and no other text.  The reader of wide
numbers reads the same number from them, and its decimal text is that number's.  A word is printed
with the lowercase digits that spell it, and is read back from them, with zeros in front or without,
and so from the questions that are sent and from the evidence that is kept. -/
theorem quantity_readers_agree (s : String) (v : UInt64) :
    (word64? s = some v ↔ Quantity s v.toNat) ∧
    (Quantity s v.toNat → word256? s = some v.toNat ∧ decimal s = toString v.toNat ∧
      Spells 10 (decimal s).toList v.toNat) ∧
    ofNat v.toNat = "0x" ++ String.ofList (Nat.toDigits 16 v.toNat) ∧
    word64? (ofNat v.toNat) = some v ∧
    (∀ count, word64? ("0x" ++ String.ofList
      (List.replicate count '0' ++ Nat.toDigits 16 v.toNat)) = some v) ∧
    (∀ q ∈ [Question.block v, .traces v], ∃ t rest, q.params = .str t :: rest ∧ word64? t = some v) ∧
    ∀ tx hash other number, ∀ i ∈ [Issue.duplicatedBlockHash hash number v,
      .duplicatedTxHash tx number hash v other], ∃ t,
        i.extras.lookup "prevBlockNumberHex" = some (.str t) ∧ word64? t = some v := by
  have back := word64?_ofNat v
  refine ⟨word64?_eq_some_iff, ?_, ofNat_eq _, back, word64?_zeros v, ?_, ?_⟩
  · intro spelled
    have small : v.toNat < Nat.pow 2 256 := Nat.lt_trans v.toNat_lt_size (by decide)
    have wide := word256?_of_quantity spelled small
    have text : decimal s = toString v.toNat := by rw [decimal, wide]
    refine ⟨wide, text, ?_⟩
    rw [text, Nat.toString_eq_repr, Nat.toList_repr]
    exact spells_toDigits (by decide) _
  · intro q there
    rcases List.mem_pair.mp there with rfl | rfl
    · exact ⟨_, _, rfl, back⟩
    · exact ⟨_, _, rfl, back⟩
  · intro tx hash other number i there
    refine ⟨ofNat v.toNat, ?_, back⟩
    have other : "prevBlockNumberHex" ≠ "blockNumber" := by decide
    rcases List.mem_pair.mp there with rfl | rfl
    · exact Issue.lookup_make _ _ _ _ _ other
    · exact Issue.lookup_make _ _ _ _ _ other

/-- Digits of both cases behind a mark and two zeros. -/
theorem quantity_readers_agree_of_zeros :
    Quantity "0x00fF" 255 ∧ word64? "0x00fF" = some 255 ∧ word256? "0x00fF" = some 255 ∧
      decimal "0x00fF" = "255" := by
  have written : List.Forall₂ (Writes 16) ['0', '0', 'f', 'F'] [0, 0, 15, 15] :=
    .cons (by decide) (.cons (by decide) (.cons (by decide) (.cons (by decide) .nil)))
  have spelled : Spells 16 ['0', '0', 'f', 'F'] 255 := ⟨_, written, rfl⟩
  have quantity : Quantity "0x00fF" 255 := .marked (List.cons_ne_nil _ _) spelled
  obtain ⟨reads, agree, _⟩ := quantity_readers_agree "0x00fF" 255
  obtain ⟨wide, text, _⟩ := agree quantity
  exact ⟨quantity, reads.mpr quantity, wide, text⟩

end Hex

end ChainIndex
