/-!
# Tables

A table holds one row per key, in the strict order of the keys.  A row carries its
key, and the order is part of the table, so two tables with the same rows are
equal (`Table.ext_get?`).

`insert` puts a row over the one with its key, and `get?` finds the row of a key.
Where many rows are put, the last one with a key stays: `lastWith?` finds it in a
list of rows.
-/

namespace ChainIndex

/-! ## The last row with a key -/

section LastWith

variable {κ ρ : Type} [DecidableEq κ]

/-- The last of some rows that has a key. -/
def lastWith? (keyOf : ρ → κ) (rows : List ρ) (key : κ) : Option ρ :=
  rows.reverse.find? fun r => keyOf r = key

variable {keyOf : ρ → κ} {rows : List ρ} {row : ρ} {key : κ}

@[simp] theorem lastWith?_nil : lastWith? keyOf [] key = none := rfl

theorem lastWith?_append (front back : List ρ) :
    lastWith? keyOf (front ++ back) key =
      (lastWith? keyOf back key).or (lastWith? keyOf front key) := by
  simp only [lastWith?, List.reverse_append, List.find?_append]

theorem lastWith?_singleton (row : ρ) (key : κ) :
    lastWith? keyOf [row] key = if keyOf row = key then some row else none := by
  by_cases h : keyOf row = key <;> simp [lastWith?, h]

theorem lastWith?_cons (row : ρ) (rows : List ρ) :
    lastWith? keyOf (row :: rows) key =
      (lastWith? keyOf rows key).or (if keyOf row = key then some row else none) := by
  rw [← List.singleton_append, lastWith?_append, lastWith?_singleton]

theorem lastWith?_some (h : lastWith? keyOf rows key = some row) :
    row ∈ rows ∧ keyOf row = key := by
  have mem := List.mem_of_find?_eq_some h
  have found := List.find?_some h
  exact ⟨List.mem_reverse.mp mem, by simpa using found⟩

theorem lastWith?_eq_none_iff : lastWith? keyOf rows key = none ↔ ∀ r ∈ rows, keyOf r ≠ key := by
  simp [lastWith?]

theorem lastWith?_isSome (hmem : row ∈ rows) (hkey : keyOf row = key) :
    (lastWith? keyOf rows key).isSome := by
  cases found : lastWith? keyOf rows key with
  | some _ => rfl
  | none => exact absurd hkey (lastWith?_eq_none_iff.mp found row hmem)

/-- Where all rows with a key are the same row, that one is found. -/
theorem lastWith?_eq_of_unique (hmem : row ∈ rows) (hkey : keyOf row = key)
    (huniq : ∀ r ∈ rows, keyOf r = key → r = row) : lastWith? keyOf rows key = some row := by
  obtain ⟨found, hfound⟩ := Option.isSome_iff_exists.mp (lastWith?_isSome hmem hkey)
  obtain ⟨hin, hk⟩ := lastWith?_some hfound
  rw [hfound, huniq found hin hk]

/-- Rows with other keys can be left out. -/
theorem lastWith?_filter (p : ρ → Bool) (h : ∀ r ∈ rows, keyOf r = key → p r = true) :
    lastWith? keyOf (rows.filter p) key = lastWith? keyOf rows key := by
  induction rows with
  | nil => rfl
  | cons r rest ih =>
    have hrest := ih fun x hx => h x (List.mem_cons_of_mem r hx)
    by_cases hp : p r = true
    · rw [List.filter_cons_of_pos hp, lastWith?_cons, lastWith?_cons, hrest]
    · have hk : keyOf r ≠ key := fun hk => hp (h r List.mem_cons_self hk)
      rw [List.filter_cons_of_neg hp, lastWith?_cons, hrest, if_neg hk, Option.or_none]

/-- Only the rows with the key matter, and their order. -/
theorem lastWith?_congr {others : List ρ}
    (h : (rows.filter fun r => keyOf r = key) = others.filter fun r => keyOf r = key) :
    lastWith? keyOf rows key = lastWith? keyOf others key := by
  have found (rows : List ρ) :
      lastWith? keyOf rows key = lastWith? keyOf (rows.filter fun r => keyOf r = key) key :=
    (lastWith?_filter _ fun _ _ hk => decide_eq_true hk).symm
  rw [found rows, found others, h]

/-- The last row with the key stays the last one where others are left out. -/
theorem lastWith?_filter_of_last {p : ρ → Bool} (h : lastWith? keyOf rows key = some row)
    (stays : p row = true) : lastWith? keyOf (rows.filter p) key = some row := by
  induction rows with
  | nil => cases h
  | cons r rest ih =>
    rw [lastWith?_cons] at h
    cases found : lastWith? keyOf rest key with
    | some last =>
      rw [found, Option.some_or] at h
      have kept := ih (found.trans h)
      by_cases hp : p r = true
      · rw [List.filter_cons_of_pos hp, lastWith?_cons, kept, Option.some_or]
      · rw [List.filter_cons_of_neg hp, kept]
    | none =>
      rw [found, Option.none_or] at h
      split at h
      case isTrue hk =>
        obtain rfl := Option.some.inj h
        rw [List.filter_cons_of_pos stays, lastWith?_cons, if_pos hk, lastWith?_eq_none_iff.mpr,
          Option.none_or]
        exact fun x hx => lastWith?_eq_none_iff.mp found x (List.mem_filter.mp hx).1
      case isFalse => cases h

/-- Rows can be changed as long as those with the key stay, and no other one gets the key. -/
theorem lastWith?_map {f : ρ → ρ} (h : ∀ r ∈ rows, keyOf r = key ∨ keyOf (f r) = key → f r = r) :
    lastWith? keyOf (rows.map f) key = lastWith? keyOf rows key := by
  induction rows with
  | nil => rfl
  | cons r rest ih =>
    have hrest := ih fun x hx => h x (List.mem_cons_of_mem r hx)
    rw [List.map_cons, lastWith?_cons, lastWith?_cons, hrest]
    have here := h r List.mem_cons_self
    by_cases hk : keyOf r = key
    · rw [here (.inl hk)]
    · have hfk : keyOf (f r) ≠ key := fun hfk => hk (here (.inr hfk) ▸ hfk)
      rw [if_neg hk, if_neg hfk]

/-- In rows with pairwise distinct keys, every row is the last one with its key. -/
theorem lastWith?_of_nodup (hd : (rows.map keyOf).Nodup) (hmem : row ∈ rows) :
    lastWith? keyOf rows (keyOf row) = some row := by
  refine lastWith?_eq_of_unique hmem rfl ?_
  intro r hr hk
  induction rows with
  | nil => cases hmem
  | cons x rest ih =>
    obtain ⟨hx, hrest⟩ := List.nodup_cons.mp hd
    have apart : ∀ y ∈ rest, keyOf y ≠ keyOf x := fun y hy he => hx (List.mem_map.mpr ⟨y, hy, he⟩)
    rcases List.mem_cons.mp hr with hrx | hr <;> rcases List.mem_cons.mp hmem with hx | hmem
    · exact hrx.trans hx.symm
    · exact absurd (hrx ▸ hk).symm (apart row hmem)
    · exact absurd (hx ▸ hk) (apart r hr)
    · exact ih hrest hmem hr

/-- In rows with pairwise distinct keys, the order does not matter. -/
theorem lastWith?_perm {others : List ρ} (hd : (rows.map keyOf).Nodup) (hp : rows.Perm others)
    (key : κ) : lastWith? keyOf rows key = lastWith? keyOf others key := by
  cases found : lastWith? keyOf rows key with
  | none =>
    refine (lastWith?_eq_none_iff.mpr fun r hr => ?_).symm
    exact lastWith?_eq_none_iff.mp found r (hp.mem_iff.mpr hr)
  | some row =>
    obtain ⟨hrow, rfl⟩ := lastWith?_some found
    exact (lastWith?_of_nodup ((hp.map keyOf).nodup_iff.mp hd) (hp.mem_iff.mp hrow)).symm

/-- Keys can be renamed, as long as different ones stay different. -/
theorem lastWith?_rename {κ' : Type} [DecidableEq κ'] {f : κ → κ'} (hf : ∀ a b, f a = f b → a = b) :
    lastWith? (fun r => f (keyOf r)) rows (f key) = lastWith? keyOf rows key := by
  have same : ∀ r : ρ, decide (f (keyOf r) = f key) = decide (keyOf r = key) := fun r =>
    decide_eq_decide.mpr ⟨hf (keyOf r) key, congrArg f⟩
  simp only [lastWith?, same]

/-- Rows can be turned into rows of another kind. -/
theorem lastWith?_map_rows {ρ' : Type} {keyOf : ρ' → κ} (f : ρ → ρ') :
    lastWith? keyOf (rows.map f) key = (lastWith? (fun r => keyOf (f r)) rows key).map f := by
  simp only [lastWith?, ← List.map_reverse, List.find?_map, Function.comp_def]

/-- Rows that a lookup answers for some keys, each any number of times, have the row of each
of these keys. -/
theorem lastWith?_of_lookup {lookup : κ → Option ρ} {keys : List κ}
    (hlookup : ∀ k r, lookup k = some r → keyOf r = k)
    (hrows : ∀ r, r ∈ rows ↔ keyOf r ∈ keys ∧ lookup (keyOf r) = some r) (hkey : key ∈ keys) :
    lastWith? keyOf rows key = lookup key := by
  cases found : lookup key with
  | none =>
    refine lastWith?_eq_none_iff.mpr ?_
    intro r hr hk
    have stands := ((hrows r).mp hr).2
    rw [hk, found] at stands
    cases stands
  | some row =>
    have same := hlookup key row found
    refine lastWith?_eq_of_unique ((hrows row).mpr ?_) same fun r hr hk => ?_
    · rw [same]
      exact ⟨hkey, found⟩
    · have stands := ((hrows r).mp hr).2
      rw [hk, found] at stands
      exact (Option.some.inj stands).symm

end LastWith

/-! ## Tables -/

/-- Rows in the strict order of their keys. -/
structure Table {κ ρ : Type} [LT κ] (keyOf : ρ → κ) where
  /-- The rows. -/
  rows : List ρ := []
  /-- The keys ascend. -/
  sorted : rows.Pairwise fun a b => keyOf a < keyOf b := by exact .nil
deriving Repr, DecidableEq

namespace Table

instance {κ ρ : Type} [LT κ] {keyOf : ρ → κ} : Inhabited (Table keyOf) := ⟨{}⟩

variable {κ ρ : Type} [LT κ] {keyOf : ρ → κ}

/-- In sorted rows each key stands once. -/
theorem eq_of_key_eq [LE κ] [Std.LawfulOrderLT κ] {rows : List ρ}
    (h : rows.Pairwise fun a b => keyOf a < keyOf b) {a b : ρ} (ha : a ∈ rows) (hb : b ∈ rows)
    (hk : keyOf a = keyOf b) : a = b := by
  induction rows with
  | nil => cases ha
  | cons r rest ih =>
    obtain ⟨hr, hrest⟩ := List.pairwise_cons.mp h
    rcases List.mem_cons.mp ha with hra | ha <;> rcases List.mem_cons.mp hb with hrb | hb
    · exact hra.trans hrb.symm
    · exact absurd (hra ▸ hk ▸ hr b hb) (Std.Irrefl.irrefl (keyOf r))
    · exact absurd (hrb ▸ hk ▸ hr a ha) (Std.Irrefl.irrefl (keyOf r))
    · exact ih hrest ha hb

section Order

variable [LE κ] [Std.IsLinearOrder κ] [Std.LawfulOrderLT κ]

theorem lt_trans {a b c : κ} (hab : a < b) (hbc : b < c) : a < c := Trans.trans hab hbc

theorem lt_of_not_lt {a b : κ} (hne : b ≠ a) (h : ¬ a < b) : b < a :=
  Classical.byContradiction fun hba => hne (Std.Trichotomous.trichotomous b a hba h)

/-- Sorted rows are determined by their members. -/
theorem rows_ext {rows others : List ρ} (hrows : rows.Pairwise fun a b => keyOf a < keyOf b)
    (hothers : others.Pairwise fun a b => keyOf a < keyOf b) (h : ∀ r, r ∈ rows ↔ r ∈ others) :
    rows = others := by
  induction rows generalizing others with
  | nil => exact (List.eq_nil_iff_forall_not_mem.mpr fun r hr => by simpa using (h r).mpr hr).symm
  | cons a rest ih =>
    obtain ⟨ha, hrest⟩ := List.pairwise_cons.mp hrows
    cases others with
    | nil => simpa using (h a).mp List.mem_cons_self
    | cons b back =>
      obtain ⟨hb, hback⟩ := List.pairwise_cons.mp hothers
      -- neither head can stand behind the other
      have hab : a = b := by
        rcases List.mem_cons.mp ((h a).mp List.mem_cons_self) with hab | hin
        · exact hab
        · rcases List.mem_cons.mp ((h b).mpr List.mem_cons_self) with hba | hout
          · exact hba.symm
          · exact absurd (lt_trans (hb a hin) (ha b hout)) (Std.Irrefl.irrefl (keyOf b))
      subst hab
      refine congrArg (a :: ·) (ih hrest hback fun r => ⟨fun hr => ?_, fun hr => ?_⟩)
      · rcases List.mem_cons.mp ((h r).mp (List.mem_cons_of_mem a hr)) with rfl | hr'
        · exact absurd (ha r hr) (Std.Irrefl.irrefl (keyOf r))
        · exact hr'
      · rcases List.mem_cons.mp ((h r).mpr (List.mem_cons_of_mem a hr)) with rfl | hr'
        · exact absurd (hb r hr) (Std.Irrefl.irrefl (keyOf r))
        · exact hr'

end Order

variable [DecidableEq κ]

/-- The count of rows. -/
def size (t : Table keyOf) : Nat := t.rows.length

/-- The row of a key. -/
def get? (t : Table keyOf) (key : κ) : Option ρ := t.rows.find? fun r => keyOf r = key

theorem get?_some {t : Table keyOf} {key : κ} {row : ρ} (h : t.get? key = some row) :
    row ∈ t.rows ∧ keyOf row = key :=
  ⟨List.mem_of_find?_eq_some h, by simpa using List.find?_some h⟩

theorem get?_eq_some_iff [LE κ] [Std.IsLinearOrder κ] [Std.LawfulOrderLT κ] {t : Table keyOf}
    {key : κ} {row : ρ} : t.get? key = some row ↔ row ∈ t.rows ∧ keyOf row = key := by
  refine ⟨get?_some, ?_⟩
  rintro ⟨hrow, rfl⟩
  cases found : t.get? (keyOf row) with
  | none => simpa using List.find?_eq_none.mp found row hrow
  | some other =>
    obtain ⟨hmem, hkey⟩ := get?_some found
    rw [eq_of_key_eq t.sorted hmem hrow hkey]

/-- The rows of a table are the rows that it finds. -/
theorem mem_rows_iff [LE κ] [Std.IsLinearOrder κ] [Std.LawfulOrderLT κ] {t : Table keyOf}
    {row : ρ} :
    row ∈ t.rows ↔ t.get? (keyOf row) = some row := by
  simp [get?_eq_some_iff]

/-- Where rows are read as something else that still has the key, those are found too. -/
theorem mem_map_rows_iff [LE κ] [Std.IsLinearOrder κ] [Std.LawfulOrderLT κ] {t : Table keyOf}
    {α : Type} (f : ρ → α) (key : α → κ) (hkey : ∀ row, key (f row) = keyOf row) {a : α} :
    a ∈ t.rows.map f ↔ (t.get? (key a)).map f = some a := by
  simp only [List.mem_map, Option.map_eq_some_iff, get?_eq_some_iff]
  constructor
  · rintro ⟨row, hrow, rfl⟩
    exact ⟨row, ⟨hrow, (hkey row).symm⟩, rfl⟩
  · rintro ⟨row, ⟨hrow, -⟩, rfl⟩
    exact ⟨row, hrow, rfl⟩

/-- A table is determined by what it finds. -/
theorem ext_get? [LE κ] [Std.IsLinearOrder κ] [Std.LawfulOrderLT κ] {t u : Table keyOf}
    (h : ∀ key, t.get? key = u.get? key) : t = u := by
  have same : t.rows = u.rows := rows_ext t.sorted u.sorted fun r => by
    rw [mem_rows_iff, mem_rows_iff, h]
  cases t
  cases u
  cases same
  rfl

variable [DecidableLT κ]

/-- A row put into sorted rows, over the one with its key. -/
def place (keyOf : ρ → κ) (row : ρ) : List ρ → List ρ
  | [] => [row]
  | r :: rest =>
    if keyOf r = keyOf row then row :: rest
    else if keyOf row < keyOf r then row :: r :: rest
    else r :: place keyOf row rest

theorem eq_or_mem_of_mem_place {row found : ρ} {rows : List ρ} (h : found ∈ place keyOf row rows) :
    found = row ∨ found ∈ rows := by
  induction rows with
  | nil => exact .inl (List.mem_singleton.mp h)
  | cons r rest ih =>
    simp only [place] at h
    split at h
    · rcases List.mem_cons.mp h with h | h
      · exact .inl h
      · exact .inr (List.mem_cons_of_mem r h)
    · split at h
      · rcases List.mem_cons.mp h with h | h
        · exact .inl h
        · exact .inr h
      · rcases List.mem_cons.mp h with h | h
        · exact .inr (h ▸ List.mem_cons_self)
        · exact (ih h).imp id (List.mem_cons_of_mem r)

variable [LE κ] [Std.IsLinearOrder κ] [Std.LawfulOrderLT κ]

theorem place_sorted {row : ρ} {rows : List ρ} (h : rows.Pairwise fun a b => keyOf a < keyOf b) :
    (place keyOf row rows).Pairwise fun a b => keyOf a < keyOf b := by
  induction rows with
  | nil => exact List.pairwise_singleton _ _
  | cons r rest ih =>
    obtain ⟨hr, hrest⟩ := List.pairwise_cons.mp h
    simp only [place]
    split
    case isTrue same => exact List.pairwise_cons.mpr ⟨fun x hx => same ▸ hr x hx, hrest⟩
    case isFalse other =>
      split
      case isTrue before =>
        refine List.pairwise_cons.mpr ⟨fun x hx => ?_, h⟩
        rcases List.mem_cons.mp hx with rfl | hx
        · exact before
        · exact lt_trans before (hr x hx)
      case isFalse behind =>
        refine List.pairwise_cons.mpr ⟨fun x hx => ?_, ih hrest⟩
        rcases eq_or_mem_of_mem_place hx with rfl | hx
        · exact lt_of_not_lt other behind
        · exact hr x hx

/-- A row put over the one with its key. -/
def insert (t : Table keyOf) (row : ρ) : Table keyOf :=
  ⟨place keyOf row t.rows, place_sorted t.sorted⟩

/-- Rows put one after the other. -/
def insertAll (t : Table keyOf) (rows : List ρ) : Table keyOf := rows.foldl insert t

/-! ## Laws -/

/-- A row that is put is found, and the rows of other keys stay. -/
theorem get?_insert (t : Table keyOf) (row : ρ) (key : κ) :
    (t.insert row).get? key = if keyOf row = key then some row else t.get? key := by
  suffices h : ∀ rows : List ρ, (place keyOf row rows).find? (fun r => keyOf r = key) =
      if keyOf row = key then some row else rows.find? fun r => keyOf r = key from h t.rows
  intro rows
  induction rows with
  | nil => by_cases h : keyOf row = key <;> simp [place, h]
  | cons r rest ih =>
    simp only [place]
    split
    case isTrue same => by_cases h : keyOf row = key <;> simp [same, h]
    case isFalse other =>
      split
      case isTrue _ => by_cases h : keyOf row = key <;> simp [h]
      case isFalse _ =>
        by_cases h : keyOf r = key
        · have hne : keyOf row ≠ key := fun hk => other (h.trans hk.symm)
          simp [h, hne]
        · simpa [h] using ih

/-- Of many rows that are put, the last one with a key is found. -/
theorem get?_insertAll (t : Table keyOf) (rows : List ρ) (key : κ) :
    (t.insertAll rows).get? key = (lastWith? keyOf rows key).or (t.get? key) := by
  induction rows generalizing t with
  | nil => rfl
  | cons row rest ih =>
    rw [insertAll, List.foldl_cons, ← insertAll, ih, get?_insert, lastWith?_cons]
    cases lastWith? keyOf rest key with
    | some _ => rfl
    | none => by_cases h : keyOf row = key <;> simp [h]

/-- The same for rows that are written from something else and read back. -/
theorem map_get?_insertAll_map {α : Type} {f : ρ → α} {g : α → ρ} (back : ∀ a, f (g a) = a)
    (t : Table keyOf) (items : List α) (key : κ) :
    ((t.insertAll (items.map g)).get? key).map f =
      (lastWith? (fun a => keyOf (g a)) items key).or ((t.get? key).map f) := by
  rw [get?_insertAll, lastWith?_map_rows]
  cases lastWith? (fun a => keyOf (g a)) items key with
  | none => rfl
  | some a => exact congrArg some (back a)

end Table

end ChainIndex
