import ChainIndex.Proofs.Index.Window

/-!
# Windows one after the other

A loop that works through a range visits the windows of a walk: each starts right behind the one
before it, and the first at the start of the range (`Walked`).  The end of a window is limited, but
the step behind it has to be a word.  So everything depends on whether the last number of the range
is the greatest word.

* The windows of a walk have the numbers up to the next one, in order (`Walked.numbers_eq`).
* Where the last number is not the greatest word, a walk ends behind it (`exists_walked_over`).
* Where it is, a walk gets to a window behind which there is no word (`exists_walked_of_greatest`).

`Partitions` is what a loop over a range should do, and `partitions_iff` says when a loop that walks
does it.
-/

namespace ChainIndex.Window

theorem le_greatest (n : UInt64) : n ≤ greatest := by
  have bound := n.toNat_lt
  rw [UInt64.le_iff_toNat_le]
  show n.toNat ≤ 18446744073709551615
  omega

theorem lt_greatest_iff {n : UInt64} : n < greatest ↔ n ≠ greatest :=
  ⟨UInt64.ne_of_lt, fun other => UInt64.lt_of_le_of_ne (le_greatest n) other⟩

/-- The step behind a number goes up just where the number is not the greatest word. -/
theorem lt_succ_iff {n : UInt64} : n < n + 1 ↔ n ≠ greatest := by
  constructor
  · rintro up rfl
    exact absurd up (by decide)
  · exact fun other => lt_succ (lt_greatest_iff.mpr other)

/-- The numbers from one number up to another, which is not among them. -/
def upTo (first next : UInt64) : List UInt64 :=
  (List.range (next.toNat - first.toNat)).map fun i => first + UInt64.ofNat i

theorem upTo_self (first : UInt64) : upTo first first = [] := by
  rw [upTo, Nat.sub_self]
  rfl

theorem numbers_eq_upTo {first last : UInt64} (h : last ≠ greatest) :
    numbers first last = upTo first (last + 1) := by
  rw [numbers, upTo, toNat_succ (lt_greatest_iff.mpr h)]

theorem upTo_append {a b c : UInt64} (hab : a ≤ b) (hbc : b ≤ c) :
    upTo a b ++ upTo b c = upTo a c := by
  rw [UInt64.le_iff_toNat_le] at hab hbc
  have whole : c.toNat - a.toNat = (b.toNat - a.toNat) + (c.toNat - b.toNat) := by omega
  rw [upTo, upTo, upTo, whole, List.range_add, List.map_append, List.map_map]
  congr 1
  refine List.map_congr_left fun i _ => ?_
  rw [← UInt64.toNat_inj]
  simp only [Function.comp_apply, UInt64.toNat_add, UInt64.toNat_ofNat']
  omega

theorem mem_upTo {first next n : UInt64} : n ∈ upTo first next ↔ first ≤ n ∧ n < next := by
  have bound := next.toNat_lt
  have bound' := n.toNat_lt
  rw [upTo, List.mem_map, UInt64.le_iff_toNat_le, UInt64.lt_iff_toNat_lt]
  constructor
  · rintro ⟨i, hi, rfl⟩
    rw [List.mem_range] at hi
    rw [UInt64.toNat_add, UInt64.toNat_ofNat']
    omega
  · rintro ⟨lower, upper⟩
    refine ⟨n.toNat - first.toNat, List.mem_range.mpr (by omega), ?_⟩
    rw [← UInt64.toNat_inj, UInt64.toNat_add, UInt64.toNat_ofNat']
    omega

/-- The window that starts at a number. -/
def windowAt (size limit next : UInt64) : UInt64 × UInt64 := (next, last next size limit)

/-- The windows of a walk through the numbers from `first` to `limit`, and the number behind
them. -/
inductive Walked (size limit first : UInt64) : List (UInt64 × UInt64) → UInt64 → Prop
  | start : Walked size limit first [] first
  | step {ws : List (UInt64 × UInt64)} {next : UInt64} (walked : Walked size limit first ws next)
      (more : next ≤ limit) (countable : last next size limit ≠ greatest) :
      Walked size limit first (ws ++ [windowAt size limit next]) (last next size limit + 1)

variable {size limit first next : UInt64} {ws : List (UInt64 × UInt64)}

theorem last_ne_greatest (size : UInt64) (below : limit ≠ greatest) (more : next ≤ limit) :
    last next size limit ≠ greatest :=
  lt_greatest_iff.mp (UInt64.lt_of_le_of_lt (last_bounds size more).2 (lt_greatest_iff.mpr below))

namespace Walked

/-- A walk goes up. -/
theorem first_le (walked : Walked size limit first ws next) : first ≤ next := by
  induction walked with
  | start => exact UInt64.le_refl _
  | step _ more countable ih =>
    have up := UInt64.le_of_lt (lt_succ_iff.mpr countable)
    exact UInt64.le_trans ih (UInt64.le_trans (last_bounds size more).1 up)

/-- Below the greatest word a walk stays in the range, or gets right behind it. -/
theorem le_succ (walked : Walked size limit first ws next) (h : first ≤ limit)
    (below : limit ≠ greatest) : next ≤ limit + 1 := by
  have up := lt_succ_iff.mpr below
  cases walked with
  | start => exact UInt64.le_trans h (UInt64.le_of_lt up)
  | step _ more => exact succ_le (UInt64.lt_of_le_of_lt (last_bounds size more).2 up)

/-- The next window has the numbers behind those that were visited. -/
theorem upTo_last (walked : Walked size limit first ws next) (more : next ≤ limit)
    (countable : last next size limit ≠ greatest) :
    upTo first (last next size limit + 1) =
      upTo first next ++ numbers next (last next size limit) := by
  have up : next ≤ last next size limit + 1 :=
    UInt64.le_trans (last_bounds size more).1 (UInt64.le_of_lt (lt_succ_iff.mpr countable))
  rw [numbers_eq_upTo countable, upTo_append walked.first_le up]

/-- The windows of a walk have the numbers up to the next one, in order. -/
theorem numbers_eq (walked : Walked size limit first ws next) :
    ws.flatMap (fun w => numbers w.1 w.2) = upTo first next := by
  induction walked with
  | start => exact (upTo_self first).symm
  | step walked more countable ih =>
    rw [List.flatMap_append, ih, List.flatMap_singleton, walked.upTo_last more countable]
    rfl

/-- A walk has no empty window. -/
theorem nonempty (walked : Walked size limit first ws next) : ∀ w ∈ ws, w.1 ≤ w.2 ∧ w.2 ≤ limit := by
  induction walked with
  | start => exact List.forall_mem_nil _
  | step _ more _ ih =>
    exact List.forall_mem_append.mpr ⟨ih, List.forall_mem_singleton.mpr (last_bounds size more)⟩

/-- There is only one walk. -/
theorem prefix_of_length {ws' : List (UInt64 × UInt64)} {next' : UInt64}
    (walked : Walked size limit first ws next) (walked' : Walked size limit first ws' next')
    (h : ws.length ≤ ws'.length) : ws <+: ws' ∧ (ws.length = ws'.length → next = next') := by
  -- either the shorter walk lacks the last window of the other, or both take the same last step
  induction walked' generalizing ws next with
  | start =>
    cases walked with
    | start => exact ⟨List.prefix_refl _, fun _ => rfl⟩
    | step => simp at h
  | @step ws' next' walked' more' _ ih =>
    rcases Nat.lt_or_ge ws'.length ws.length with longer | shorter
    · cases walked with
      | start => simp at longer
      | @step ws next walked more _ =>
        simp only [List.length_append, List.length_singleton] at h longer
        obtain ⟨begins, same⟩ := ih walked (by omega)
        obtain rfl := begins.eq_of_length (by omega)
        rw [same rfl]
        exact ⟨List.prefix_refl _, fun _ => rfl⟩
    · obtain ⟨begins, _⟩ := ih walked shorter
      refine ⟨begins.trans (List.prefix_append _ _), fun same => ?_⟩
      simp only [List.length_append, List.length_singleton] at same
      omega

/-- A walk that is over cannot be made longer. -/
theorem prefix_of_over {ws' : List (UInt64 × UInt64)} {next' : UInt64}
    (walked : Walked size limit first ws next) (whole : Walked size limit first ws' next')
    (beyond : limit < next') : ws <+: ws' := by
  induction walked with
  | start => exact List.nil_prefix
  | @step ws next walked more countable ih =>
    rcases Nat.lt_or_ge ws.length ws'.length with shorter | longer
    · refine ((walked.step more countable).prefix_of_length whole ?_).1
      rw [List.length_append, List.length_singleton]
      omega
    · have same := (walked.prefix_of_length whole ih.length_le).2 (Nat.le_antisymm ih.length_le longer)
      exact absurd (same ▸ more) (UInt64.not_le.mpr beyond)

/-- A walk has at most as many windows as numbers. -/
theorem length_le (walked : Walked size limit first ws next) :
    ws.length + first.toNat ≤ next.toNat := by
  induction walked with
  | start => simp
  | @step ws next _ more countable ih =>
    have lower := (last_bounds size more).1
    have up := toNat_succ (lt_greatest_iff.mpr countable)
    rw [UInt64.le_iff_toNat_le] at lower
    rw [List.length_append, List.length_singleton]
    omega

end Walked

/-- A walk goes on until it is past the last number, or there is no word behind its window. -/
theorem exists_walked (size limit first : UInt64) :
    ∃ ws next, Walked size limit first ws next ∧
      (limit < next ∨ next ≤ limit ∧ last next size limit = greatest) := by
  have goesOn (count : Nat) : ∃ ws next, Walked size limit first ws next ∧
      (ws.length = count ∨ limit < next ∨ next ≤ limit ∧ last next size limit = greatest) := by
    induction count with
    | zero => exact ⟨[], first, .start, .inl rfl⟩
    | succ count ih =>
      obtain ⟨ws, next, walked, whole | ends⟩ := ih
      · rcases UInt64.lt_or_le limit next with beyond | more
        · exact ⟨ws, next, walked, .inr (.inl beyond)⟩
        · by_cases countable : last next size limit = greatest
          · exact ⟨ws, next, walked, .inr (.inr ⟨more, countable⟩)⟩
          · refine ⟨_, _, walked.step more countable, .inl ?_⟩
            rw [List.length_append, whole, List.length_singleton]
      · exact ⟨ws, next, walked, .inr ends⟩
  -- there are no more windows than words
  obtain ⟨ws, next, walked, long | ends⟩ := goesOn UInt64.size
  · have short := walked.length_le
    have bound := next.toNat_lt
    rw [long] at short
    exact absurd (Nat.le_trans (Nat.le_add_right _ _) short) (Nat.not_le.mpr bound)
  · exact ⟨ws, next, walked, ends⟩

/-- Below the greatest word there is a walk that is over. -/
theorem exists_walked_over (size : UInt64) (h : first ≤ limit) (below : limit ≠ greatest) :
    ∃ ws, Walked size limit first ws (limit + 1) := by
  obtain ⟨ws, next, walked, beyond | ⟨more, top⟩⟩ := exists_walked size limit first
  · obtain rfl := UInt64.le_antisymm (walked.le_succ h below) (succ_le beyond)
    exact ⟨ws, walked⟩
  · exact absurd top (last_ne_greatest size below more)

/-- Up to the greatest word there is a walk to a window behind which there is no word. -/
theorem exists_walked_of_greatest (size first : UInt64) :
    ∃ ws next, Walked size greatest first ws next ∧ last next size greatest = greatest := by
  obtain ⟨ws, next, walked, beyond | ⟨_, top⟩⟩ := exists_walked size greatest first
  · exact absurd beyond (UInt64.not_lt.mpr (le_greatest next))
  · exact ⟨ws, next, walked, top⟩

/-! ## Loops over a range -/

/-- What a loop over the numbers from `first` to `limit` should do.  `At visited asks` says that the
loop may have visited some windows and now asks for the next one, or asks for none because it has
stopped.  The loop goes through windows that have the numbers of the range in order, each once, and
it gets behind the last one and stops there. -/
def Partitions (first limit : UInt64)
    (At : List (UInt64 × UInt64) → Option (UInt64 × UInt64) → Prop) : Prop :=
  ∃ plan : List (UInt64 × UInt64), plan.flatMap (fun w => numbers w.1 w.2) = numbers first limit ∧
    (∀ w ∈ plan, w.1 ≤ w.2) ∧
    (∀ visited w, At visited (some w) → visited ++ [w] <+: plan) ∧
    ∀ visited, At visited none ↔ visited = plan

/-- The window that a walk goes on with, unless it is past the last number. -/
def asked (size limit next : UInt64) : Option (UInt64 × UInt64) :=
  if limit < next then none else some (windowAt size limit next)

theorem asked_eq_none (beyond : limit < next) : asked size limit next = none := if_pos beyond

theorem asked_eq_some (more : next ≤ limit) :
    asked size limit next = some (windowAt size limit next) := if_neg (UInt64.not_lt.mpr more)

/-- A loop visits the windows of a walk.  It asks for the next one as long as there is one. -/
def Walks (size limit first : UInt64)
    (At : List (UInt64 × UInt64) → Option (UInt64 × UInt64) → Prop) : Prop :=
  ∀ visited asks, At visited asks ↔
    ∃ next, Walked size limit first visited next ∧ asks = asked size limit next

/-- A loop that walks through a range does what it should just where the range does not end at the
greatest word. -/
theorem Walks.partitions_iff {At : List (UInt64 × UInt64) → Option (UInt64 × UInt64) → Prop}
    (walks : Walks size limit first At) (h : first ≤ limit) :
    Partitions first limit At ↔ limit ≠ greatest := by
  constructor
  · rintro ⟨plan, _, _, _, stops⟩ rfl
    -- nothing is behind the greatest word, so there is no walk that is over
    obtain ⟨next, _, none⟩ := (walks plan none).mp ((stops plan).mpr rfl)
    rw [asked_eq_some (le_greatest next)] at none
    cases none
  · intro below
    obtain ⟨plan, whole⟩ := exists_walked_over size h below
    have beyond : limit < limit + 1 := lt_succ_iff.mpr below
    refine ⟨plan, ?_, fun w hw => (whole.nonempty w hw).1, fun visited w asks => ?_,
      fun visited => ⟨fun stopped => ?_, ?_⟩⟩
    · rw [whole.numbers_eq, numbers_eq_upTo below]
    · obtain ⟨next, walked, same⟩ := (walks visited _).mp asks
      rcases UInt64.lt_or_le limit next with past | more
      · rw [asked_eq_none past] at same
        cases same
      · rw [asked_eq_some more] at same
        cases same
        exact (walked.step more (last_ne_greatest size below more)).prefix_of_over whole beyond
    · obtain ⟨next, walked, same⟩ := (walks visited _).mp stopped
      rcases UInt64.lt_or_le limit next with past | more
      · exact (walked.prefix_of_over whole beyond).eq_of_length_le
          (whole.prefix_of_over walked past).length_le
      · rw [asked_eq_some more] at same
        cases same
    · rintro rfl
      exact (walks _ none).mpr ⟨_, whole, (asked_eq_none beyond).symm⟩

end ChainIndex.Window
