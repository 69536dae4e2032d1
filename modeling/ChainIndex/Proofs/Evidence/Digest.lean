import ChainIndex.Proofs.Store.Interchange
import ChainIndex.Proofs.Text.Bytes

/-!
# What a checksum tells apart

The bytes that a checksum digests are the name of a kind, the bytes of two hashes, and a text, one
after the other and with nothing in between.  Still they come apart, but for one place:

* No name of a kind starts another, so the kind is known from the front (`IssueKind.eq_of_prefix`).
* A text starts with the key of the block number, and a brace in front of that key stands nowhere
  else in it.  So no text ends another, and the text is known from the back
  (`Issue.Made.extras_eq_of_suffix`).
* What is left are the bytes of both hashes.  Where the one ends and the other starts is lost: two
  issues with `Shifted` hashes have the same checksum, and a log keeps the first alone.
-/

namespace ChainIndex

/-! ## The start of a text -/

/-- A brace, a quote and the first letter of the key of the block number. -/
def startMark : List Char := ['\x7b', '"', 'b']

/-- The start of a text stands somewhere within these characters. -/
def Marked (cs : List Char) : Prop := startMark <:+: cs

section Marks

variable {c : Char} {cs es : List Char}

theorem not_marked_nil : ¬ Marked [] := fun h => nomatch List.infix_nil.mp h

theorem not_marked_cons (h : ¬ Marked cs) (other : c ≠ '\x7b') : ¬ Marked (c :: cs) := by
  intro marked
  rcases List.infix_cons_iff.mp marked with here | later
  · exact other (List.cons_prefix_cons.mp here).1.symm
  · exact h later

theorem not_marked_cons_of_apart (h : ¬ Marked cs) (apart : ¬ ['"', 'b'] <+: cs) :
    ¬ Marked (c :: cs) := by
  intro marked
  rcases List.infix_cons_iff.mp marked with here | later
  · exact apart (List.cons_prefix_cons.mp here).2
  · exact h later

/-- No start of a text comes from characters without a brace. -/
theorem not_marked_append (plain : ∀ e ∈ es, e ≠ '\x7b') (h : ¬ Marked cs) :
    ¬ Marked (es ++ cs) := by
  induction es with
  | nil => exact h
  | cons e es ih =>
    obtain ⟨other, plain⟩ := List.forall_mem_cons.mp plain
    exact not_marked_cons (ih plain) other

/-- A character inside a text stands for itself and is no quote, or is escaped without a brace. -/
theorem escapeChar_cases (c : Char) :
    (Json.escapeChar c = [c] ∧ c ≠ '"') ∨
      ∃ es, Json.escapeChar c = '\\' :: es ∧ ∀ e ∈ es, e ≠ '\x7b' := by
  rw [Json.escapeChar.eq_def]
  split
  any_goals exact .inr ⟨_, rfl, by simp⟩
  case h_8 notQuote _ _ _ _ _ _ =>
    split
    case isTrue low =>
      -- a control character without an escape of its own is written by its code
      refine .inr ⟨_, rfl, ?_⟩
      generalize c.toNat = n at low
      interval_cases n <;>
        simp [Json.fourDigits, Nat.toDigits, Nat.toDigitsCore, Nat.digitChar]
    case isFalse => exact .inl ⟨rfl, notQuote⟩

/-- A quote that closes a text starts no key where the next character is not the first letter of
one. -/
theorem not_key_of_escaped (s : List Char) (next : c ≠ 'b') :
    ¬ ['"', 'b'] <+: s.flatMap Json.escapeChar ++ '"' :: c :: cs := by
  intro key
  cases s with
  | nil =>
    obtain ⟨_, key⟩ := List.cons_prefix_cons.mp key
    exact next (List.cons_prefix_cons.mp key).1.symm
  | cons d s =>
    rw [List.flatMap_cons, List.append_assoc] at key
    rcases escapeChar_cases d with ⟨plain, notQuote⟩ | ⟨es, escaped, _⟩
    · rw [plain, List.singleton_append] at key
      exact notQuote (List.cons_prefix_cons.mp key).1.symm
    · rw [escaped, List.cons_append] at key
      exact absurd (List.cons_prefix_cons.mp key).1 (by decide)

theorem not_marked_escaped (s : List Char) (next : c ≠ 'b') (h : ¬ Marked (c :: cs)) :
    ¬ Marked (s.flatMap Json.escapeChar ++ '"' :: c :: cs) := by
  induction s with
  | nil => exact not_marked_cons h (by decide)
  | cons d s ih =>
    rw [List.flatMap_cons, List.append_assoc]
    rcases escapeChar_cases d with ⟨plain, _⟩ | ⟨es, escaped, noBrace⟩
    · rw [plain]
      exact not_marked_cons_of_apart ih (not_key_of_escaped s next)
    · rw [escaped]
      exact not_marked_cons (not_marked_append noBrace ih) (by decide)

theorem not_marked_quote (s : String) (next : c ≠ 'b') (h : ¬ Marked (c :: cs)) :
    ¬ Marked ((Json.quote s).toList ++ c :: cs) := by
  rw [Json.toList_quote, List.cons_append, List.append_assoc]
  exact not_marked_cons (not_marked_escaped s.toList next h) (by decide)

end Marks

namespace Json

/-- A text or an integer. -/
inductive Flat : Json → Prop
  /-- A text. -/
  | str (s : String) : Flat (.str s)
  /-- An integer. -/
  | int (n : Int) : Flat (.num (.int n))

theorem ne_brace_of_toDigits {n : Nat} {c : Char} (h : c ∈ Nat.toDigits 10 n) : c ≠ '\x7b' := by
  rintro rfl
  exact absurd (Nat.isDigit_of_mem_toDigits (by decide) (by decide) h) (by decide)

theorem Flat.not_marked {v : Json} (flat : v.Flat) {c : Char} {cs : List Char} (next : c ≠ 'b')
    (h : ¬ Marked (c :: cs)) : ¬ Marked (v.render.toList ++ c :: cs) := by
  cases flat with
  | str s => exact not_marked_quote s next h
  | int n =>
    refine not_marked_append ?_ h
    cases n with
    | ofNat n => exact fun _ hc => ne_brace_of_toDigits (toList_ofNat n ▸ hc)
    | negSucc n =>
      show ∀ e ∈ (toString (Int.negSucc n)).toList, e ≠ '\x7b'
      rw [toList_negSucc]
      exact List.forall_mem_cons.mpr ⟨by decide, fun _ hc => ne_brace_of_toDigits hc⟩

/-- The members after the first, behind a comma or a closing brace. -/
theorem not_marked_members {members : List (String × Json)} (flat : ∀ m ∈ members, m.2.Flat) :
    ∃ c cs, (renderMembers members).toList = c :: cs ∧ c ≠ 'b' ∧ ¬ Marked (c :: cs) := by
  induction members with
  | nil => exact ⟨'\x7d', [], rfl, by decide, not_marked_cons not_marked_nil (by decide)⟩
  | cons m members ih =>
    obtain ⟨key, value⟩ := m
    obtain ⟨here, rest⟩ := List.forall_mem_cons.mp flat
    obtain ⟨c, cs, text, next, unmarked⟩ := ih rest
    refine ⟨',', _, toList_members_cons key value members, by decide, ?_⟩
    rw [text]
    refine not_marked_cons ?_ (by decide)
    refine not_marked_quote key (by decide) ?_
    exact not_marked_cons (Flat.not_marked here next unmarked) (by decide)

/-- In the text of an object without inner objects and lists no start of a text stands behind its
first brace. -/
theorem not_marked_tail {key : String} {value : Json} {members : List (String × Json)}
    (flat : ∀ m ∈ (key, value) :: members, m.2.Flat) :
    ¬ Marked (render (.obj ((key, value) :: members))).toList.tail := by
  obtain ⟨here, rest⟩ := List.forall_mem_cons.mp flat
  obtain ⟨c, cs, text, next, unmarked⟩ := not_marked_members rest
  rw [toList_obj_cons, List.tail_cons, text]
  refine not_marked_quote key (by decide) ?_
  exact not_marked_cons (Flat.not_marked here next unmarked) (by decide)

end Json

/-! ## Kinds -/

/-- No name of a kind starts the name of another. -/
theorem IssueKind.eq_of_prefix {k l : IssueKind}
    (h : k.name.toUTF8.toList <+: l.name.toUTF8.toList) : k = l := by
  revert h
  cases k <;> cases l <;> decide +kernel

/-! ## Extras -/

namespace Issue

/-- The bytes of the extras of an issue. -/
def extrasBytes (i : Issue) : List UInt8 := (Json.obj i.extras).render.toUTF8.toList

variable {i j : Issue}

/-- The block number is the first of the extras, and the others are texts and integers. -/
theorem Made.extras_cons (h : i.Made) :
    ∃ rest, i.extras = ("blockNumber", .word i.blockNumber) :: rest ∧ ∀ m ∈ rest, m.2.Flat := by
  have str (s : String) : (Json.str s).Flat := .str s
  have word (n : UInt64) : (Json.word n).Flat := .int n.toNat
  cases h with
  | reorg => exact ⟨[_], rfl, by simp [str]⟩
  | duplicatedBlockHash => exact ⟨[_, _], rfl, by simp [str, word]⟩
  | duplicatedTxHash => exact ⟨[_, _, _], rfl, by simp [str, word]⟩
  | failure => exact ⟨[_], rfl, by simp [str]⟩

/-- Where the bytes of the extras end those of others, the extras are the same. -/
theorem Made.extras_eq_of_suffix (hi : i.Made) (hj : j.Made) (h : j.extrasBytes <:+ i.extrasBytes) :
    i.extras = j.extras := by
  have ends : (Json.obj j.extras).render.toList <:+ (Json.obj i.extras).render.toList := by
    obtain ⟨rest, extras, _⟩ := hj.extras_cons
    rw [extrasBytes, extrasBytes, toUTF8_toList, toUTF8_toList, extras, Json.toList_obj_cons] at h
    rw [extras, Json.toList_obj_cons]
    exact suffix_of_utf8 (by decide) h
  have same : (Json.obj i.extras).render.toList = (Json.obj j.extras).render.toList := by
    obtain ⟨rest, extras, flat⟩ := hi.extras_cons
    have unmarked : ¬ Marked (Json.obj i.extras).render.toList.tail := by
      rw [extras]
      exact Json.not_marked_tail (List.forall_mem_cons.mpr ⟨.int _, flat⟩)
    have marked : startMark <+: (Json.obj j.extras).render.toList := by
      obtain ⟨_, extras, _⟩ := hj.extras_cons
      rw [extras, Json.toList_obj_cons, Json.toList_quote]
      exact ⟨_, rfl⟩
    cases text : (Json.obj i.extras).render.toList with
    | nil => exact (List.suffix_nil.mp (text ▸ ends)).symm
    | cons c cs =>
      rw [text] at ends unmarked
      rcases List.suffix_cons_iff.mp ends with whole | inside
      · exact whole.symm
      · exact absurd (marked.isInfix.trans inside.isInfix) unmarked
  have rendered := String.toList_inj.mp same
  have parsed := (hi.exact 126).parse_render
  rw [rendered, (hj.exact 126).parse_render] at parsed
  injection parsed with objects
  injection objects with extras
  exact extras.symm

/-- Two bytes strings that end in extras have the same extras where they are the same. -/
theorem Made.extras_eq (hi : i.Made) (hj : j.Made) {front front' : List UInt8}
    (h : front ++ i.extrasBytes = front' ++ j.extrasBytes) : i.extras = j.extras := by
  have endI : i.extrasBytes <:+ front ++ i.extrasBytes := List.suffix_append front i.extrasBytes
  have endJ : j.extrasBytes <:+ front ++ i.extrasBytes := h ▸ List.suffix_append front' j.extrasBytes
  rcases List.suffix_or_suffix_of_suffix endI endJ with inside | inside
  · exact (hj.extras_eq_of_suffix hi inside).symm
  · exact hi.extras_eq_of_suffix hj inside

theorem Made.blockNumber_eq (hi : i.Made) (hj : j.Made) (h : i.extras = j.extras) :
    i.blockNumber = j.blockNumber := by
  obtain ⟨_, extras, _⟩ := hi.extras_cons
  obtain ⟨_, others, _⟩ := hj.extras_cons
  rw [extras, others] at h
  have numbers := (Prod.mk.inj (List.cons.inj h).1).2
  simp only [Json.word, Json.num.injEq, Number.int.injEq, Int.natCast_inj] at numbers
  exact UInt64.toNat_inj.mp numbers

/-! ## What is digested -/

/-- The bytes that the checksum of an issue digests. -/
def digested (i : Issue) : List UInt8 := preimage i.kind i.blockHash i.txHash i.extras

/-- Two issues record the same evidence. -/
structure SameEvidence (i j : Issue) : Prop where
  kind : i.kind = j.kind
  blockNumber : i.blockNumber = j.blockNumber
  blockBytes : hashBytes i.blockHash = hashBytes j.blockHash
  txBytes : hashBytes i.txHash = hashBytes j.txHash
  extras : i.extras = j.extras

/-- Two issues differ in where the bytes of the block hash end and those of the transaction hash
start, and in nothing else. -/
structure Shifted (i j : Issue) : Prop where
  kind : i.kind = j.kind
  blockNumber : i.blockNumber = j.blockNumber
  moved : hashBytes i.blockHash ≠ hashBytes j.blockHash
  bytes : hashBytes i.blockHash ++ hashBytes i.txHash = hashBytes j.blockHash ++ hashBytes j.txHash
  extras : i.extras = j.extras

theorem digested_eq (i : Issue) : i.digested =
    i.kind.name.toUTF8.toList ++ (hashBytes i.blockHash ++ hashBytes i.txHash ++ i.extrasBytes) := by
  simp only [digested, preimage, extrasBytes, List.append_assoc]

/-- The same bytes are digested for the same evidence, and for shifted hashes. -/
theorem Made.digested_eq_iff (hi : i.Made) (hj : j.Made) :
    i.digested = j.digested ↔ i.SameEvidence j ∨ i.Shifted j := by
  rw [digested_eq, digested_eq]
  constructor
  · intro h
    have kind : i.kind = j.kind := by
      have starts := List.prefix_append i.kind.name.toUTF8.toList
        (hashBytes i.blockHash ++ hashBytes i.txHash ++ i.extrasBytes)
      rw [h] at starts
      rcases List.prefix_or_prefix_of_prefix starts (List.prefix_append _ _) with first | first
      · exact IssueKind.eq_of_prefix first
      · exact (IssueKind.eq_of_prefix first).symm
    rw [kind, List.append_cancel_left_eq] at h
    have extras := hi.extras_eq hj h
    have number := hi.blockNumber_eq hj extras
    rw [extrasBytes, extrasBytes, extras, List.append_cancel_right_eq] at h
    by_cases blocks : hashBytes i.blockHash = hashBytes j.blockHash
    · rw [blocks, List.append_cancel_left_eq] at h
      exact .inl ⟨kind, number, blocks, h, extras⟩
    · exact .inr ⟨kind, number, blocks, h, extras⟩
  · rintro (same | shifted)
    · rw [extrasBytes, extrasBytes, same.kind, same.blockBytes, same.txBytes, same.extras]
    · rw [extrasBytes, extrasBytes, shifted.kind, shifted.bytes, shifted.extras]

/-- Hashes are shifted only where their bytes are not equally many. -/
theorem Shifted.length_ne (h : i.Shifted j) :
    (hashBytes i.blockHash).length ≠ (hashBytes j.blockHash).length := fun same =>
  h.moved (List.append_inj h.bytes same).1

/-- Where the block hashes have equally many bytes, the same bytes are digested for the same
evidence alone. -/
theorem Made.digested_eq_iff_of_length (hi : i.Made) (hj : j.Made)
    (same : (hashBytes i.blockHash).length = (hashBytes j.blockHash).length) :
    i.digested = j.digested ↔ i.SameEvidence j := by
  rw [hi.digested_eq_iff hj, or_iff_left fun shifted => shifted.length_ne same]

/-- Hashes are shifted only in an issue that is about a transaction. -/
theorem Shifted.txBytes_ne (h : i.Shifted j) :
    hashBytes i.txHash ≠ [] ∨ hashBytes j.txHash ≠ [] := by
  by_contra none
  obtain ⟨noneI, noneJ⟩ := not_or.mp none
  have bytes := h.bytes
  rw [not_not.mp noneI, not_not.mp noneJ, List.append_nil, List.append_nil] at bytes
  exact h.moved bytes

/-- A hash that is hexadecimal is digested as its bytes, with or without its mark and in either
case. -/
theorem hashBytes_of_hex {s : String} {bytes : List UInt8} (h : Hex.bytes? s = some bytes) :
    hashBytes s = bytes := by
  rw [hashBytes, h]
  split
  case isTrue blank =>
    rw [String.isEmpty_iff.mp blank] at h
    exact Option.some.inj h
  case isFalse => rfl

/-! ## Issues that are skipped -/

/-- Different bytes are digested for two issues, and still their digests are the same. -/
def Collide (i j : Issue) : Prop :=
  i.digested ≠ j.digested ∧ Sha256.digest i.digested = Sha256.digest j.digested

theorem Made.checksum_eq (h : i.Made) : i.checksum = Hex.ofBytes (Sha256.digest i.digested) := by
  cases h <;> rfl

/-- Issues with the same checksum record the same evidence, but for shifted hashes and collisions. -/
theorem Made.sameEvidence_of_checksum (hi : i.Made) (hj : j.Made) (h : i.checksum = j.checksum) :
    i.SameEvidence j ∨ i.Shifted j ∨ i.Collide j := by
  rw [hi.checksum_eq, hj.checksum_eq] at h
  have digests := Hex.ofBytes_inj h
  by_cases same : i.digested = j.digested
  · exact ((hi.digested_eq_iff hj).mp same).imp_right .inl
  · exact .inr (.inr ⟨same, digests⟩)

/-- The issues that a log skips as they are added one after the other, each behind the log that it
meets. -/
def skipped (log : List Issue) : List Issue → List (List Issue × Issue)
  | [] => []
  | issue :: rest =>
    if Recorded log issue then (log, issue) :: skipped log rest
    else skipped (log ++ [issue]) rest

/-- Every issue is either added or skipped. -/
theorem length_skipped (issues : List Issue) :
    ∀ log, (appendIssues log issues).1 + (skipped log issues).length = issues.length := by
  induction issues with
  | nil => exact fun _ => rfl
  | cons issue rest ih =>
    intro log
    have known := ih log
    have new := ih (log ++ [issue])
    rw [appendIssues, skipped]
    split
    all_goals
      simp only [List.length_cons]
      omega

theorem prefix_appendIssues (issues : List Issue) :
    ∀ log, log <+: (appendIssues log issues).2 := by
  induction issues with
  | nil => exact List.prefix_refl
  | cons issue rest ih =>
    intro log
    rw [appendIssues]
    split
    case isTrue => exact ih log
    case isFalse => exact (List.prefix_append log [issue]).trans (ih (log ++ [issue]))

/-- A skipped issue is on record when its turn comes, through an issue of the log or one before
it. -/
theorem recorded_of_mem_skipped {met : List Issue} {i : Issue} {issues : List Issue} :
    ∀ {log}, (met, i) ∈ skipped log issues →
      Recorded met i ∧ met <+: (appendIssues log issues).2 ∧ (∀ k ∈ met, k ∈ log ∨ k ∈ issues) ∧
        i ∈ issues := by
  induction issues with
  | nil => nofun
  | cons issue rest ih =>
    intro log h
    rw [skipped] at h
    rw [appendIssues]
    split at h
    case isTrue known =>
      rw [if_pos known]
      rcases List.mem_cons.mp h with here | later
      · obtain ⟨rfl, rfl⟩ := Prod.mk.inj here
        exact ⟨known, prefix_appendIssues rest met, fun k hk => .inl hk, List.mem_cons_self⟩
      · obtain ⟨recorded, grows, sources, given⟩ := ih later
        exact ⟨recorded, grows, fun k hk => (sources k hk).imp_right (List.mem_cons_of_mem issue),
          List.mem_cons_of_mem issue given⟩
    case isFalse new =>
      rw [if_neg new]
      obtain ⟨recorded, grows, sources, given⟩ := ih h
      refine ⟨recorded, grows, ?_, List.mem_cons_of_mem issue given⟩
      intro k hk
      rcases sources k hk with logged | given
      · rcases List.mem_append.mp logged with logged | new
        · exact .inl logged
        · exact .inr (List.mem_cons.mpr (.inl (List.mem_singleton.mp new)))
      · exact .inr (List.mem_cons_of_mem issue given)

end Issue

/-! ## Evidence that is dropped -/

open Issue LawfulBackend

/-- The bytes that are digested are the same for the same evidence alone, just where the hashes of
two issues are not shifted.  Hexadecimal hashes count as their bytes, whatever their case and with
or without their mark.  A store that answers for a list of issues has skipped just those that it
did not count, and each only where the log that it met had the same evidence, shifted hashes, or
another issue whose digest collides. -/
theorem evidence_told_apart_iff {σ : Type} [Backend σ] [LawfulBackend σ] :
    (∀ i j : Issue, i.Made → j.Made →
      ((i.digested = j.digested ↔ i.SameEvidence j) ↔ ¬ i.Shifted j)) ∧
    (∀ (hash : String) (bytes : List UInt8), Hex.bytes? hash = some bytes →
      hashBytes hash = bytes ∧ hashBytes (Hex.normalize hash) = bytes) ∧
    ∀ (s s' : σ) (issues : List Issue) (count : Nat),
      (∀ k ∈ (view s).log, k.Made) → (∀ i ∈ issues, i.Made) →
      (Backend.saveIssues issues).on s = (.ok count, s') →
      count + (skipped (view s).log issues).length = issues.length ∧
        ∀ met i, (met, i) ∈ skipped (view s).log issues → met <+: (view s').log ∧
          ∃ k ∈ met, k.SameEvidence i ∨ k.Shifted i ∨ k.Collide i := by
  refine ⟨?_, ?_, ?_⟩
  · intro i j hi hj
    rw [hi.digested_eq_iff hj]
    constructor
    · intro apart shifted
      exact shifted.moved (apart.mp (.inr shifted)).blockBytes
    · intro kept
      exact or_iff_left kept
  · intro hash bytes hex
    exact ⟨hashBytes_of_hex hex, hashBytes_of_hex ((Hex.bytes?_normalize hash).trans hex)⟩
  · intro s s' issues count logged given saved
    rcases saveIssues_on s issues with ⟨after, done, content, _, _⟩ | ⟨_, reason, failed⟩
    · rw [done] at saved
      obtain ⟨answer, rfl⟩ := Prod.mk.inj saved
      obtain rfl := Except.ok.inj answer
      refine ⟨length_skipped issues (view s).log, fun met i hi => ?_⟩
      obtain ⟨⟨k, hk, checksums⟩, grows, sources, hgiven⟩ := recorded_of_mem_skipped hi
      have made : k.Made := (sources k hk).elim (logged k) (given k)
      rw [content]
      exact ⟨grows, k, hk, made.sameEvidence_of_checksum (given i hgiven) checksums⟩
    · rw [failed] at saved
      nomatch saved

/-- The evidence of a reorg of block 7, seen at some time. -/
def reorgSeenAt (time : Int64) : Issue := { Issue.reorg 7 "0xaa" "0xbb" with observedAt := time }

/-- An issue whose checksum stands just before it is skipped. -/
theorem appendIssues_pair {i j : Issue} (same : i.checksum = j.checksum) :
    appendIssues [] [i, j] = (1, [i]) := by
  have known : Recorded [i] j := ⟨i, List.mem_singleton_self i, same⟩
  have new : ¬ Recorded [] i := nofun
  rw [appendIssues, if_neg new, List.nil_append, appendIssues, if_pos known]
  rfl

theorem saveIssues_pair {i j : Issue} (same : i.checksum = j.checksum) :
    (Backend.saveIssues [i, j]).on (default : MemoryStore) =
      (.ok 1, { (default : MemoryStore) with log := [i] }) := by
  have whole : (Backend.saveIssues [i, j]).on (default : MemoryStore) =
      (.ok (appendIssues [] [i, j]).1,
        { (default : MemoryStore) with log := (appendIssues [] [i, j]).2 }) := rfl
  rw [whole, appendIssues_pair same]

theorem evidence_told_apart_iff_of_reorg :
    (((reorgSeenAt 0).digested = (reorgSeenAt 5).digested ↔
        (reorgSeenAt 0).SameEvidence (reorgSeenAt 5)) ↔ ¬ (reorgSeenAt 0).Shifted (reorgSeenAt 5)) ∧
      (hashBytes "AB" = [0xab] ∧ hashBytes (Hex.normalize "AB") = [0xab]) ∧
      ∃ s', (Backend.saveIssues [reorgSeenAt 0, reorgSeenAt 5]).on (default : MemoryStore) =
          (.ok 1, s') ∧
        1 + (skipped [] [reorgSeenAt 0, reorgSeenAt 5]).length = 2 ∧
        ∀ met i, (met, i) ∈ skipped [] [reorgSeenAt 0, reorgSeenAt 5] → met <+: (view s').log ∧
          ∃ k ∈ met, k.SameEvidence i ∨ k.Shifted i ∨ k.Collide i := by
  have made (time : Int64) : (reorgSeenAt time).Made := .reorg 7 "0xaa" "0xbb" time
  have saved := saveIssues_pair (i := reorgSeenAt 0) (j := reorgSeenAt 5) rfl
  obtain ⟨apart, hashes, stored⟩ := evidence_told_apart_iff (σ := MemoryStore)
  refine ⟨apart _ _ (made 0) (made 5), hashes "AB" [0xab] (by decide), _, saved, ?_⟩
  exact stored _ _ _ _ (List.forall_mem_nil _) (by simp [made]) saved

/-- A transaction seen in two blocks, the second with a hash of one byte. -/
def shortHashed : Issue := Issue.duplicatedTxHash "0xbbcc" 1 "0xaa" 5 "0xee"

/-- Another transaction seen in two blocks.  The hash of its second block has one byte more, and
its own hash has one less. -/
def longHashed : Issue := Issue.duplicatedTxHash "0xcc" 1 "0xaabb" 5 "0xee"

/-- The evidence of different transactions in different blocks has one checksum, so the second of
two issues is dropped. -/
theorem shifted_evidence_dropped :
    shortHashed.Made ∧ longHashed.Made ∧ shortHashed.digested = longHashed.digested ∧
      ¬ shortHashed.SameEvidence longHashed ∧
      (Backend.saveIssues [longHashed, shortHashed]).on (default : MemoryStore) =
        (.ok 1, { (default : MemoryStore) with log := [longHashed] }) := by
  have short : shortHashed.Made := .duplicatedTxHash "0xbbcc" 1 "0xaa" 5 "0xee" 0
  have long : longHashed.Made := .duplicatedTxHash "0xcc" 1 "0xaabb" 5 "0xee" 0
  have bytes : shortHashed.digested = longHashed.digested := by decide +kernel
  have checksums : longHashed.checksum = shortHashed.checksum := by
    rw [long.checksum_eq, short.checksum_eq, bytes]
  refine ⟨short, long, bytes, ?_, saveIssues_pair checksums⟩
  intro same
  exact absurd same.blockBytes (by decide +kernel)

end ChainIndex
