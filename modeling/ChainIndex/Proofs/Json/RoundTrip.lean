import Mathlib.Tactic.FinCases
import Mathlib.Tactic.IntervalCases
import ChainIndex.Json.Record

/-!
# Values come back from their text

A value comes back from its compact text, where it is `Exact`: its numbers are integers, the keys
of its objects ascend, and its brackets are not nested deeper than a reader goes.  Floating point
numbers are left out, since a literal is read with a rounding of its own.

The reader of values takes the text of one off the front of a longer text.  What follows has to
end a number, so it is empty or starts with a comma or a closing bracket.
-/

namespace ChainIndex

/-- A text that ends whatever stands in front of it. -/
def Ends (rest : List Char) : Prop := ∀ c ∈ rest.head?, c = ',' ∨ c = ']' ∨ c = '\x7d'

theorem ends_nil : Ends [] := fun _ hc => nomatch hc

theorem ends_cons {c : Char} {rest : List Char} (h : c = ',' ∨ c = ']' ∨ c = '\x7d') :
    Ends (c :: rest) := fun _ hc => Option.some.inj hc ▸ h

/-! ## Numbers -/

theorem digit_cases {c : Char} (h : c.isDigit) :
    c = '0' ∨ c = '1' ∨ c = '2' ∨ c = '3' ∨ c = '4' ∨ c = '5' ∨ c = '6' ∨ c = '7' ∨ c = '8' ∨
      c = '9' := by
  have range : 48 ≤ c.toNat ∧ c.toNat ≤ 57 := by
    simp only [Char.isDigit, Bool.and_eq_true, decide_eq_true_eq] at h
    exact ⟨UInt32.le_iff_toNat_le.mp h.1, UInt32.le_iff_toNat_le.mp h.2⟩
  obtain ⟨low, high⟩ := range
  have back : Char.ofNat c.toNat = c := Char.ofNat_toNat c
  generalize c.toNat = n at low high back
  subst back
  interval_cases n <;> decide

theorem le_ofDigitChars (ds : List Char) : ∀ value : Nat, value ≤ Nat.ofDigitChars 10 ds value := by
  induction ds with
  | nil => exact Nat.le_refl
  | cons d ds ih =>
    intro value
    rw [Nat.ofDigitChars_cons]
    exact Nat.le_trans (by omega) (ih (10 * value + (d.toNat - '0'.toNat)))

/-- Only zero is written with a leading zero. -/
theorem toDigits_eq_zero_cons (n : Nat) :
    ∀ {ds : List Char}, Nat.toDigits 10 n = '0' :: ds → n = 0 ∧ ds = [] := by
  induction n using Nat.strongRecOn with
  | _ n ih =>
    intro ds h
    rw [Nat.toDigits_eq_if (by decide)] at h
    split at h
    case isTrue small =>
      obtain ⟨head, tail⟩ := List.cons.inj h
      refine ⟨?_, tail.symm⟩
      interval_cases n <;> first | rfl | exact absurd head (by decide)
    case isFalse large =>
      have less : n / 10 < n := by omega
      cases front : Nat.toDigits 10 (n / 10) with
      | nil => exact absurd front Nat.toDigits_ne_nil
      | cons d front' =>
        rw [front, List.cons_append] at h
        obtain ⟨rfl, _⟩ := List.cons.inj h
        have := (ih (n / 10) less front).1
        omega

namespace Literal

variable {rest : List Char}

theorem digit?_of_isDigit {c : Char} (h : c.isDigit) : digit? c = some (c.toNat - '0'.toNat) := by
  have range : '0' ≤ c ∧ c ≤ '9' := by
    simp only [Char.isDigit, Bool.and_eq_true, decide_eq_true_eq] at h
    exact h
  rw [digit?, if_pos range]
  rfl

theorem digit?_of_ends (h : Ends rest) : ∀ c ∈ rest.head?, digit? c = none := by
  intro c hc
  rcases h c hc with rfl | rfl | rfl <;> rfl

theorem wholePart_digits (h : Ends rest) (ds : List Char) :
    ∀ value : Nat, (∀ c ∈ ds, c.isDigit) → Nat.ofDigitChars 10 ds value < UInt64.size →
      wholePart value 0 (ds ++ rest) = (⟨Nat.ofDigitChars 10 ds value, 0⟩, rest) := by
  induction ds with
  | nil =>
    intro value _ _
    cases rest with
    | nil => rfl
    | cons c rest => simp [wholePart, digit?_of_ends h c rfl]
  | cons d ds ih =>
    intro value digits small
    rw [Nat.ofDigitChars_cons] at small ⊢
    have fits := Nat.lt_of_le_of_lt (le_ofDigitChars ds _) small
    rw [List.cons_append, wholePart, digit?_of_isDigit (digits d List.mem_cons_self)]
    dsimp only
    rw [if_pos ⟨rfl, fits⟩]
    exact ih _ (fun c hc => digits c (List.mem_cons_of_mem d hc)) small

theorem afterWhole_ends (h : Ends rest) (negative : Bool) (s : Significand) :
    afterWhole negative s rest = (integral negative s, rest) := by
  cases rest with
  | nil => rfl
  | cons c rest => rcases h c rfl with rfl | rfl | rfl <;> rfl

theorem read_cons {c : Char} {cs : List Char} {negative : Bool} (h : c.isDigit) (zero : c ≠ '0') :
    read negative (c :: cs) =
      afterWhole negative (wholePart 0 0 (c :: cs)).1 (wholePart 0 0 (c :: cs)).2 := by
  rcases digit_cases h with rfl | rfl | rfl | rfl | rfl | rfl | rfl | rfl | rfl | rfl
  · exact absurd rfl zero
  all_goals rfl

/-- The digits of a number are read as an integer. -/
theorem read_toDigits {n : Nat} (small : n < UInt64.size) (h : Ends rest) (negative : Bool) :
    read negative (Nat.toDigits 10 n ++ rest) = (integral negative ⟨n, 0⟩, rest) := by
  have digits : ∀ c ∈ Nat.toDigits 10 n, c.isDigit :=
    fun _ => Nat.isDigit_of_mem_toDigits (by decide) (by decide)
  have value : Nat.ofDigitChars 10 (Nat.toDigits 10 n) 0 = n := Nat.ofDigitChars_ten_toDigits
  have whole := wholePart_digits h (Nat.toDigits 10 n) 0 digits (by rwa [value])
  rw [value] at whole
  cases found : Nat.toDigits 10 n with
  | nil => exact absurd found Nat.toDigits_ne_nil
  | cons c ds =>
    rw [found] at whole digits
    by_cases zero : c = '0'
    · subst zero
      obtain ⟨rfl, rfl⟩ := toDigits_eq_zero_cons n found
      cases rest with
      | nil => rfl
      | cons e rest =>
        have none := digit?_of_ends h e rfl
        simp only [List.cons_append, List.nil_append, read, none]
        exact afterWhole_ends h negative _
    · rw [List.cons_append] at whole ⊢
      rw [read_cons (digits c List.mem_cons_self) zero, whole]
      exact afterWhole_ends h negative _

end Literal

/-! ## Texts -/

namespace Source

theorem textBody_escapeChar (c : Char) (acc : List Char) (fuel : Nat) (rest : List Char) :
    textBody acc (fuel + 1) (Json.escapeChar c ++ rest) = textBody (c :: acc) fuel rest := by
  rw [Json.escapeChar.eq_def]
  split
  any_goals rfl
  split
  case isTrue low =>
    -- a control character without an escape of its own is written by its code
    have back : Char.ofNat c.toNat = c := Char.ofNat_toNat c
    generalize c.toNat = n at low back
    subst back
    interval_cases n <;> rfl
  case isFalse high =>
    rw [List.singleton_append, textBody.eq_def]
    split <;> simp_all

theorem textBody_escaped (cs : List Char) :
    ∀ (acc : List Char) (fuel : Nat) (rest : List Char), cs.length < fuel →
      textBody acc fuel (cs.flatMap Json.escapeChar ++ '"' :: rest) =
        .ok (acc.reverse ++ cs, rest) := by
  induction cs with
  | nil =>
    intro acc fuel rest enough
    cases fuel with
    | zero => cases enough
    | succ fuel => simp [textBody]
  | cons c cs ih =>
    intro acc fuel rest enough
    cases fuel with
    | zero => cases enough
    | succ fuel =>
      have enough := Nat.lt_of_succ_lt_succ enough
      rw [List.flatMap_cons, List.append_assoc, textBody_escapeChar, ih _ _ _ enough]
      simp

theorem length_le_escaped (cs : List Char) : cs.length ≤ (cs.flatMap Json.escapeChar).length := by
  induction cs with
  | nil => exact Nat.le_refl _
  | cons c cs ih =>
    have one : 1 ≤ (Json.escapeChar c).length := by
      rw [Json.escapeChar.eq_def]
      split
      any_goals simp
      split <;> simp
    simp only [List.flatMap_cons, List.length_cons, List.length_append]
    omega

/-- A text comes back from behind its opening quote. -/
theorem text_escaped (s : String) (rest : List Char) :
    text (s.toList.flatMap Json.escapeChar ++ '"' :: rest) = .ok (s, rest) := by
  have enough : s.toList.length < (s.toList.flatMap Json.escapeChar ++ '"' :: rest).length + 1 := by
    have := length_le_escaped s.toList
    simp only [List.length_append, List.length_cons]
    omega
  rw [text, textBody_escaped _ _ _ _ enough]
  simp [Except.map]

end Source

@[simp] theorem Json.toList_quote (s : String) :
    (Json.quote s).toList = '"' :: (s.toList.flatMap Json.escapeChar ++ ['"']) := by
  simp [Json.quote]

/-! ## Values -/

namespace Json

/-- A value that comes back from its text, inside so many levels of brackets. -/
inductive Exact : Nat → Json → Prop
  /-- The value `null`. -/
  | null {depth : Nat} : Exact depth .null
  /-- A truth value. -/
  | bool {depth : Nat} (b : Bool) : Exact depth (.bool b)
  /-- An integer that fits a word, signed or unsigned. -/
  | int {depth : Nat} {n : Int} (low : -0x8000000000000000 ≤ n) (high : n < UInt64.size) :
      Exact depth (.num (.int n))
  /-- A text. -/
  | str {depth : Nat} (s : String) : Exact depth (.str s)
  /-- A list of such values. -/
  | arr {depth : Nat} {items : List Json} (each : ∀ item ∈ items, Exact depth item) :
      Exact (depth + 1) (.arr items)
  /-- An object of such values whose keys ascend. -/
  | obj {depth : Nat} {members : List (String × Json)}
      (ascending : members.Pairwise fun a b => a.1 < b.1)
      (each : ∀ member ∈ members, Exact depth member.2) : Exact (depth + 1) (.obj members)

theorem Exact.word {depth : Nat} (n : UInt64) : Exact depth (.word n) := by
  have small : n.toNat < UInt64.size := n.toNat_lt
  exact .int (by omega) (Int.ofNat_lt.mpr small)

/-- The reader takes the text of a value off any longer text. -/
def Reads (depth : Nat) (v : Json) : Prop :=
  ∀ (fuel : Nat) (rest : List Char), Ends rest → 2 * v.render.toList.length < fuel →
    Source.readValue depth fuel (v.render.toList ++ rest) = (Source.ofJson v, some rest)

variable {depth : Nat} {rest : List Char} {v : Json}

theorem toList_ofNat (n : Nat) : (toString (n : Int)).toList = Nat.toDigits 10 n := by
  have same : toString (n : Int) = n.repr := rfl
  rw [same, Nat.repr_eq_ofList_toDigits, String.toList_ofList]

theorem toList_negSucc (n : Nat) :
    (toString (Int.negSucc n)).toList = '-' :: Nat.toDigits 10 (n + 1) := by
  have same : toString (Int.negSucc n) = "-" ++ (n + 1).repr := rfl
  rw [same, Nat.repr_eq_ofList_toDigits]
  simp

theorem toList_arr_cons (item : Json) (items : List Json) :
    (render (.arr (item :: items))).toList =
      '[' :: (item.render.toList ++ (renderItems items).toList) := by
  simp [render]

theorem toList_items_cons (item : Json) (items : List Json) :
    (renderItems (item :: items)).toList =
      ',' :: (item.render.toList ++ (renderItems items).toList) := by
  simp [renderItems]

theorem toList_obj_cons (key : String) (value : Json) (members : List (String × Json)) :
    (render (.obj ((key, value) :: members))).toList =
      '\x7b' :: ((quote key).toList ++ ':' ::
        (value.render.toList ++ (renderMembers members).toList)) := by
  simp [render]

theorem toList_members_cons (key : String) (value : Json) (members : List (String × Json)) :
    (renderMembers ((key, value) :: members)).toList =
      ',' :: ((quote key).toList ++ ':' ::
        (value.render.toList ++ (renderMembers members).toList)) := by
  simp [renderMembers]

/-- The characters that the text of a value may start with. -/
def openings : List Char :=
  ['n', 't', 'f', '-', '"', '[', '\x7b', '0', '1', '2', '3', '4', '5', '6', '7', '8', '9']

theorem mem_openings_of_isDigit {c : Char} (h : c.isDigit) : c ∈ openings := by
  rcases digit_cases h with rfl | rfl | rfl | rfl | rfl | rfl | rfl | rfl | rfl | rfl <;> decide

theorem toDigits_cons (n : Nat) : ∃ c cs, Nat.toDigits 10 n = c :: cs ∧ c.isDigit := by
  cases found : Nat.toDigits 10 n with
  | nil => exact absurd found Nat.toDigits_ne_nil
  | cons c cs =>
    have hc : c ∈ Nat.toDigits 10 n := found ▸ List.mem_cons_self
    exact ⟨c, cs, rfl, Nat.isDigit_of_mem_toDigits (by decide) (by decide) hc⟩

theorem Exact.render_cons (h : Exact depth v) :
    ∃ c cs, v.render.toList = c :: cs ∧ c ∈ openings := by
  cases h with
  | null => exact ⟨'n', _, rfl, by decide⟩
  | bool b =>
    cases b with
    | false => exact ⟨'f', _, rfl, by decide⟩
    | true => exact ⟨'t', _, rfl, by decide⟩
  | @int _ n low high =>
    cases n with
    | ofNat n =>
      obtain ⟨c, cs, digits, digit⟩ := toDigits_cons n
      exact ⟨c, cs, (toList_ofNat n).trans digits, mem_openings_of_isDigit digit⟩
    | negSucc n => exact ⟨'-', _, toList_negSucc n, by decide⟩
  | str s => exact ⟨'"', _, toList_quote s, by decide⟩
  | @arr _ items each =>
    cases items with
    | nil => exact ⟨'[', _, rfl, by decide⟩
    | cons item items => exact ⟨'[', _, toList_arr_cons item items, by decide⟩
  | @obj _ members ascending each =>
    cases members with
    | nil => exact ⟨'\x7b', _, rfl, by decide⟩
    | cons member members => exact ⟨'\x7b', _, toList_obj_cons _ _ members, by decide⟩

/-! ### Texts and integers -/

theorem reads_str (s : String) : Reads depth (.str s) := by
  intro fuel rest _ enough
  obtain ⟨fuel, rfl⟩ := Nat.exists_eq_add_one_of_ne_zero (Nat.ne_zero_of_lt enough)
  have text : (render (.str s)).toList = (quote s).toList := rfl
  rw [text, toList_quote, List.cons_append, List.append_assoc, List.singleton_append]
  simp [Source.readValue, Source.skipBlanks, Source.text_escaped, Source.ofJson]

theorem reads_int {n : Int} (low : -0x8000000000000000 ≤ n) (high : n < UInt64.size) :
    Reads depth (.num (.int n)) := by
  intro fuel rest ends enough
  obtain ⟨fuel, rfl⟩ := Nat.exists_eq_add_one_of_ne_zero (Nat.ne_zero_of_lt enough)
  cases n with
  | ofNat n =>
    have text : (render (.num (.int (.ofNat n)))).toList = Nat.toDigits 10 n := toList_ofNat n
    have small : n < UInt64.size := Int.ofNat_lt.mp high
    have read := Literal.read_toDigits small ends false
    obtain ⟨c, cs, digits, digit⟩ := toDigits_cons n
    rw [text]
    rw [digits, List.cons_append] at read ⊢
    have dispatch : Source.readValue depth (fuel + 1) (c :: (cs ++ rest)) =
        Source.number false (c :: (cs ++ rest)) := by
      rcases digit_cases digit with rfl | rfl | rfl | rfl | rfl | rfl | rfl | rfl | rfl | rfl <;>
        rfl
    rw [dispatch, Source.number, read]
    rfl
  | negSucc n =>
    have text : (render (.num (.int (.negSucc n)))).toList = '-' :: Nat.toDigits 10 (n + 1) :=
      toList_negSucc n
    have small : n + 1 ≤ 0x8000000000000000 := by omega
    have fits : n + 1 < UInt64.size := Nat.lt_of_le_of_lt small (by decide)
    have dispatch : Source.readValue depth (fuel + 1) ('-' :: (Nat.toDigits 10 (n + 1) ++ rest)) =
        Source.number true (Nat.toDigits 10 (n + 1) ++ rest) := rfl
    have value : Literal.integral true ⟨(n + 1 : Nat), 0⟩ = .ok (.int (.negSucc n)) := by
      have signed : ¬ (n + 1 = 0 ∨ 0x8000000000000000 < n + 1) := by omega
      simp only [Literal.integral]
      rw [if_neg (by decide), if_neg (by decide), if_neg signed]
      rfl
    rw [text, List.cons_append, dispatch, Source.number, Literal.read_toDigits fits ends, value]
    rfl

/-! ### Lists -/

theorem ends_renderItems (items : List Json) : Ends ((renderItems items).toList ++ rest) := by
  cases items with
  | nil => exact ends_cons (.inr (.inl rfl))
  | cons item items =>
    rw [toList_items_cons]
    exact ends_cons (.inl rfl)

theorem nextItem_first (h : Exact depth v) :
    Source.nextItem true (v.render.toList ++ rest) = .ok (true, v.render.toList ++ rest) := by
  obtain ⟨c, cs, text, opens⟩ := h.render_cons
  rw [text, List.cons_append]
  fin_cases opens <;> rfl

theorem nextItem_next (h : Exact depth v) :
    Source.nextItem false (',' :: (v.render.toList ++ rest)) =
      .ok (true, v.render.toList ++ rest) := by
  obtain ⟨c, cs, text, opens⟩ := h.render_cons
  rw [text, List.cons_append]
  fin_cases opens <;> rfl

/-- One item is taken off a list. -/
theorem readItems_item {fuel : Nat} {items : List Json} (acc : List Source) (cs : List Char)
    (reads : Reads depth v) (enough : 2 * v.render.toList.length < fuel)
    (next : Source.nextItem acc.isEmpty cs =
      .ok (true, v.render.toList ++ ((renderItems items).toList ++ rest))) :
    Source.readItems depth acc (fuel + 1) cs =
      Source.readItems depth (Source.ofJson v :: acc) fuel ((renderItems items).toList ++ rest) := by
  rw [Source.readItems, next]
  dsimp only
  rw [reads fuel _ (ends_renderItems items) enough]

theorem readItems_renderItems {items : List Json} (exact : ∀ item ∈ items, Exact depth item)
    (reads : ∀ item ∈ items, Reads depth item) :
    ∀ (first : Source) (acc : List Source) (fuel : Nat),
      2 * (renderItems items).toList.length < fuel →
      Source.readItems depth (first :: acc) fuel ((renderItems items).toList ++ rest) =
        (.arr ((first :: acc).reverse ++ Source.ofItems items), some rest) := by
  induction items with
  | nil =>
    intro first acc fuel enough
    obtain ⟨fuel, rfl⟩ := Nat.exists_eq_add_one_of_ne_zero (Nat.ne_zero_of_lt enough)
    simp [renderItems, Source.readItems, Source.nextItem, Source.skipBlanks, Source.ofItems]
  | cons item items ih =>
    intro first acc fuel enough
    obtain ⟨fuel, rfl⟩ := Nat.exists_eq_add_one_of_ne_zero (Nat.ne_zero_of_lt enough)
    obtain ⟨here, exact⟩ := List.forall_mem_cons.mp exact
    obtain ⟨read, reads⟩ := List.forall_mem_cons.mp reads
    rw [toList_items_cons] at enough ⊢
    simp only [List.length_cons, List.length_append] at enough
    rw [List.cons_append, List.append_assoc,
      readItems_item (first :: acc) _ read (by omega) (nextItem_next here),
      ih exact reads _ _ _ (by omega)]
    simp [Source.ofItems]

theorem reads_arr {items : List Json} (exact : ∀ item ∈ items, Exact depth item)
    (reads : ∀ item ∈ items, Reads depth item) : Reads (depth + 1) (.arr items) := by
  intro fuel rest _ enough
  obtain ⟨fuel, rfl⟩ := Nat.exists_eq_add_one_of_ne_zero (Nat.ne_zero_of_lt enough)
  have dispatch (cs : List Char) : Source.readValue (depth + 1) (fuel + 1) ('[' :: cs) =
      Source.readItems depth [] fuel cs := rfl
  cases items with
  | nil =>
    cases fuel with
    | zero => exact absurd enough (by decide)
    | succ fuel => rfl
  | cons item items =>
    obtain ⟨here, exact⟩ := List.forall_mem_cons.mp exact
    obtain ⟨read, reads⟩ := List.forall_mem_cons.mp reads
    rw [toList_arr_cons] at enough ⊢
    simp only [List.length_cons, List.length_append] at enough
    rw [List.cons_append, dispatch, List.append_assoc]
    cases fuel with
    | zero => omega
    | succ fuel =>
      rw [readItems_item [] _ read (by omega) (nextItem_first here),
        readItems_renderItems exact reads _ _ _ (by omega)]
      rfl

/-! ### Objects -/

theorem ends_renderMembers (members : List (String × Json)) :
    Ends ((renderMembers members).toList ++ rest) := by
  cases members with
  | nil => exact ends_cons (.inr (.inr rfl))
  | cons member members =>
    rw [toList_members_cons]
    exact ends_cons (.inl rfl)

theorem keyAndColon_quote (key : String) (rest : List Char) :
    Source.keyAndColon ((quote key).toList ++ ':' :: rest) = .ok (key, rest) := by
  have text := Source.text_escaped key (':' :: rest)
  rw [toList_quote, List.cons_append, List.append_assoc, Source.keyAndColon, List.drop_one,
    List.tail_cons, List.singleton_append, text]
  rfl

/-- One member is taken off an object. -/
theorem readMembers_member {fuel : Nat} {members : List (String × Json)} {key : String}
    (acc : List (String × Source)) (cs : List Char)
    (reads : Reads depth v) (enough : 2 * v.render.toList.length < fuel)
    (next : Source.nextMember acc.isEmpty cs =
      .ok (true, (quote key).toList ++ ':' ::
        (v.render.toList ++ ((renderMembers members).toList ++ rest)))) :
    Source.readMembers depth acc (fuel + 1) cs =
      Source.readMembers depth ((key, Source.ofJson v) :: acc) fuel
        ((renderMembers members).toList ++ rest) := by
  rw [Source.readMembers, next]
  dsimp only
  rw [keyAndColon_quote]
  dsimp only
  rw [reads fuel _ (ends_renderMembers members) enough]

theorem readMembers_renderMembers {members : List (String × Json)}
    (reads : ∀ member ∈ members, Reads depth member.2) :
    ∀ (first : String × Source) (acc : List (String × Source)) (fuel : Nat),
      2 * (renderMembers members).toList.length < fuel →
      Source.readMembers depth (first :: acc) fuel ((renderMembers members).toList ++ rest) =
        (.obj ((first :: acc).reverse ++ Source.ofMembers members), some rest) := by
  induction members with
  | nil =>
    intro first acc fuel enough
    obtain ⟨fuel, rfl⟩ := Nat.exists_eq_add_one_of_ne_zero (Nat.ne_zero_of_lt enough)
    simp [renderMembers, Source.readMembers, Source.nextMember, Source.skipBlanks,
      Source.ofMembers]
  | cons member members ih =>
    intro first acc fuel enough
    obtain ⟨fuel, rfl⟩ := Nat.exists_eq_add_one_of_ne_zero (Nat.ne_zero_of_lt enough)
    obtain ⟨key, value⟩ := member
    obtain ⟨(read : Reads depth value), reads⟩ := List.forall_mem_cons.mp reads
    rw [toList_members_cons] at enough ⊢
    simp only [List.length_cons, List.length_append] at enough
    have next (cs : List Char) : Source.nextMember false (',' :: ((quote key).toList ++ cs)) =
        .ok (true, (quote key).toList ++ cs) := by
      rw [toList_quote]
      rfl
    rw [List.cons_append, List.append_assoc, List.cons_append, List.append_assoc,
      readMembers_member (first :: acc) _ read (by omega) (next _),
      ih reads _ _ _ (by omega)]
    simp [Source.ofMembers]

theorem reads_obj {members : List (String × Json)}
    (reads : ∀ member ∈ members, Reads depth member.2) : Reads (depth + 1) (.obj members) := by
  intro fuel rest _ enough
  obtain ⟨fuel, rfl⟩ := Nat.exists_eq_add_one_of_ne_zero (Nat.ne_zero_of_lt enough)
  have dispatch (cs : List Char) : Source.readValue (depth + 1) (fuel + 1) ('\x7b' :: cs) =
      Source.readMembers depth [] fuel cs := rfl
  cases members with
  | nil =>
    cases fuel with
    | zero => exact absurd enough (by decide)
    | succ fuel => rfl
  | cons member members =>
    obtain ⟨key, value⟩ := member
    obtain ⟨(read : Reads depth value), reads⟩ := List.forall_mem_cons.mp reads
    rw [toList_obj_cons] at enough ⊢
    simp only [List.length_cons, List.length_append] at enough
    have next (cs : List Char) : Source.nextMember true ((quote key).toList ++ cs) =
        .ok (true, (quote key).toList ++ cs) := by
      rw [toList_quote]
      rfl
    rw [List.cons_append, dispatch, List.append_assoc, List.cons_append, List.append_assoc]
    cases fuel with
    | zero => omega
    | succ fuel =>
      rw [readMembers_member [] _ read (by omega) (next _),
        readMembers_renderMembers reads _ _ _ (by omega)]
      rfl

/-! ### All values -/

theorem Exact.reads (h : Exact depth v) : Reads depth v := by
  induction h with
  | null =>
    intro fuel rest _ enough
    obtain ⟨fuel, rfl⟩ := Nat.exists_eq_add_one_of_ne_zero (Nat.ne_zero_of_lt enough)
    rfl
  | bool b =>
    intro fuel rest _ enough
    obtain ⟨fuel, rfl⟩ := Nat.exists_eq_add_one_of_ne_zero (Nat.ne_zero_of_lt enough)
    cases b <;> rfl
  | int low high => exact reads_int low high
  | str s => exact reads_str s
  | arr each ih => exact reads_arr each ih
  | obj _ _ ih => exact reads_obj ih

/-- A value comes back from its text. -/
theorem Exact.ofText_render (h : Exact Source.depthLimit v) :
    Source.ofText v.render = (Source.ofJson v, none) := by
  have read := h.reads (2 * v.render.toList.length + 2) [] ends_nil (by omega)
  rw [List.append_nil] at read
  simp only [Source.ofText, read]
  rfl

/-! ### Members in the order of their keys -/

variable {α : Type}

theorem ascending_of_keys {members : List (String × α)} (keys : List String)
    (same : members.map Prod.fst = keys) (ascending : keys.Pairwise (· < ·)) :
    members.Pairwise fun a b => a.1 < b.1 := by
  rw [← same] at ascending
  exact List.pairwise_map.mp ascending

theorem insertMember_last {key : String} {value : α} {members : List (String × α)}
    (h : ∀ member ∈ members, member.1 < key) :
    insertMember key value members = members ++ [(key, value)] := by
  induction members with
  | nil => rfl
  | cons member members ih =>
    obtain ⟨below, h⟩ := List.forall_mem_cons.mp h
    have behind : ¬ key < member.1 := String.lt_asymm below
    have other : key ≠ member.1 := fun same => String.lt_irrefl key (same ▸ below)
    rw [insertMember, if_neg behind, if_neg other, ih h, List.cons_append]

theorem mem_insertMember {key : String} {value : α} {members : List (String × α)}
    {member : String × α} (h : member ∈ insertMember key value members) :
    member = (key, value) ∨ member ∈ members := by
  induction members with
  | nil => exact .inl (List.mem_singleton.mp h)
  | cons first members ih =>
    rw [insertMember] at h
    split at h
    · exact List.mem_cons.mp h
    · split at h
      · exact (List.mem_cons.mp h).imp id (List.mem_cons_of_mem first)
      · rcases List.mem_cons.mp h with rfl | h
        · exact .inr List.mem_cons_self
        · exact (ih h).imp id (List.mem_cons_of_mem first)

/-- A member is found under its key, and what else was found is found. -/
theorem lookup_insertMember (key other : String) (value : α)
    (members : List (String × α)) :
    (insertMember key value members).lookup other =
      if other = key then some value else members.lookup other := by
  induction members with
  | nil =>
    rw [insertMember, List.lookup_cons]
    split <;> simp_all
  | cons member rest ih =>
    obtain ⟨k, v⟩ := member
    rw [insertMember]
    split
    case isTrue =>
      rw [List.lookup_cons]
      split <;> simp_all
    case isFalse =>
      split
      case isTrue same =>
        subst same
        simp only [List.lookup_cons]
        split <;> simp_all
      case isFalse different =>
        simp only [List.lookup_cons, ih]
        split
        case h_1 same =>
          obtain rfl := beq_iff_eq.mp same
          rw [if_neg (Ne.symm different)]
        case h_2 => rfl

/-- A member that is put where its key belongs keeps the keys ascending. -/
theorem insertMember_ascending {key : String} {value : α} {members : List (String × α)}
    (h : members.Pairwise fun a b => a.1 < b.1) :
    (insertMember key value members).Pairwise fun a b => a.1 < b.1 := by
  induction members with
  | nil => exact List.pairwise_singleton _ _
  | cons first members ih =>
    obtain ⟨below, rest⟩ := List.pairwise_cons.mp h
    rw [insertMember]
    split
    case isTrue before =>
      refine List.pairwise_cons.mpr ⟨?_, h⟩
      exact List.forall_mem_cons.mpr ⟨before, fun m hm => String.lt_trans before (below m hm)⟩
    case isFalse behind =>
      split
      case isTrue same => exact List.pairwise_cons.mpr ⟨same ▸ below, rest⟩
      case isFalse other =>
        have above : first.1 < key := Classical.byContradiction fun h =>
          other (String.le_antisymm (String.not_lt.mp h) (String.not_lt.mp behind))
        refine List.pairwise_cons.mpr ⟨?_, ih rest⟩
        intro m hm
        rcases mem_insertMember hm with rfl | hm
        · exact above
        · exact below m hm

/-- An object keeps its shape where a member is put. -/
theorem Exact.insertMember {key : String} {value : Json} {members : List (String × Json)}
    (h : Exact (depth + 1) (.obj members)) (hvalue : Exact depth value) :
    Exact (depth + 1) (.obj (Json.insertMember key value members)) := by
  cases h with
  | obj ascending each =>
    refine .obj (insertMember_ascending ascending) ?_
    intro member hmember
    rcases mem_insertMember hmember with rfl | hmember
    · exact hvalue
    · exact each member hmember

/-- Members whose keys ascend are in order. -/
theorem sortMembers_of_ascending {members : List (String × α)}
    (h : members.Pairwise fun a b => a.1 < b.1) : sortMembers members = members := by
  have go (behind : List (String × α)) : ∀ front : List (String × α),
      (front ++ behind).Pairwise (fun a b => a.1 < b.1) →
      behind.foldl (fun acc m => insertMember m.1 m.2 acc) front = front ++ behind := by
    induction behind with
    | nil => simp
    | cons member behind ih =>
      intro front sorted
      have below : ∀ m ∈ front, m.1 < member.1 := fun m hm =>
        (List.pairwise_append.mp sorted).2.2 m hm member List.mem_cons_self
      rw [List.foldl_cons, insertMember_last below, ih _ (by simpa using sorted)]
      simp
  exact go members [] h

/-! ### Plain values -/

theorem Exact.value?_ofJson (h : Exact depth v) : (Source.ofJson v).value? = .ok v := by
  induction h with
  | null => rfl
  | bool => rfl
  | int => rfl
  | str => rfl
  | @arr depth items each ih => 
    have values : Source.values? (Source.ofItems items) = .ok items := by
      clear each
      induction items with
      | nil => rfl
      | cons item items rest =>
        obtain ⟨here, ih⟩ := List.forall_mem_cons.mp ih
        rw [Source.ofItems, Source.values?, here, rest ih]
        rfl
    rw [Source.ofJson, Source.value?, values]
    rfl
  | @obj depth members ascending each ih => 
    have values : Source.memberValues? (Source.ofMembers members) = .ok members := by
      clear each ascending
      induction members with
      | nil => rfl
      | cons member members rest =>
        obtain ⟨here, ih⟩ := List.forall_mem_cons.mp ih
        rw [Source.ofMembers, Source.memberValues?, here, rest ih]
        rfl
    rw [Source.ofJson, Source.value?, values]
    exact congrArg (fun m => Except.ok (Json.obj m)) (sortMembers_of_ascending ascending)

/-- Parsing undoes rendering. -/
theorem Exact.parse_render (h : Exact Source.depthLimit v) : parse v.render = .ok v := by
  rw [parse, h.ofText_render]
  simp only [h.value?_ofJson]

end Json

/-! ## Maps -/

namespace Source

variable {depth : Nat} {members : List (String × Json)}

theorem mapM_ofMembers {f : String × Source → Except Mismatch (String × Json)}
    (h : ∀ member ∈ members, f (member.1, ofJson member.2) = .ok member) :
    (ofMembers members).mapM f = .ok members := by
  induction members with
  | nil => rfl
  | cons member members ih =>
    obtain ⟨here, rest⟩ := List.forall_mem_cons.mp h
    rw [ofMembers, List.mapM_cons, here, ih rest]
    rfl

theorem readMap_ofJson (h : Json.Exact depth (.obj members)) :
    readMap readAny (ofJson (.obj members)) = .ok members := by
  cases h with
  | obj ascending each =>
    rw [ofJson, readMap, mapM_ofMembers]
    · exact congrArg Except.ok (Json.sortMembers_of_ascending ascending)
    · intro member hmember
      obtain ⟨key, value⟩ := member
      have here := each _ hmember
      have read : readAny (ofJson value) = .ok value := by
        rw [readAny, here.value?_ofJson]
      cases value with
      | _ => 
        simp only [ofJson] at read ⊢
        rw [read]
        rfl

/-- A map comes back from the text of its object. -/
theorem readText_render (h : Json.Exact depthLimit (.obj members)) :
    ChainIndex.readText (readMap readAny) (Json.obj members).render = .ok members := by
  rw [ChainIndex.readText, h.ofText_render]
  simp only [readMap_ofJson h]
  rfl

end Source

end ChainIndex
