import Mathlib.Data.List.Sort

/-! # Ordered queries

    `ORDER BY key LIMIT n` over a list of rows.  A key that tells the rows apart
    has one least row, which every limit but zero keeps; rows collected from
    several queries are kept once each. -/

namespace OrderedQuery

open List

variable {α β κ : Type} [LinearOrder κ] {key : α → κ} {rows : List α} {m x : α}

/-- The rows in the order of a key. -/
def orderBy (key : α → κ) (rows : List α) : List α :=
  rows.insertionSort (fun a b => key a ≤ key b)

theorem perm_orderBy : (orderBy key rows).Perm rows := perm_insertionSort _ _

theorem mem_orderBy : x ∈ orderBy key rows ↔ x ∈ rows := mem_insertionSort _

theorem length_orderBy : (orderBy key rows).length = rows.length := length_insertionSort _ rows

/-- The row comes before every other one. -/
structure Least (key : α → κ) (rows : List α) (m : α) : Prop where
  mem : m ∈ rows
  lt : ∀ r ∈ rows, r ≠ m → key m < key r

/-- The least row among more rows is the least among fewer. -/
theorem Least.subset {rows' : List α} (h : Least key rows m)
    (hsub : ∀ r ∈ rows', r ∈ rows) (hm : m ∈ rows') : Least key rows' m :=
  ⟨hm, fun r hr => h.lt r (hsub r hr)⟩

/-- **THE FIRST ROW** is the least one. -/
theorem head?_orderBy (h : Least key rows m) : (orderBy key rows).head? = some m := by
  have hsort : (orderBy key rows).Pairwise (fun a b => key a ≤ key b) :=
    pairwise_insertionSort _ rows
  cases hrows : orderBy key rows with
  | nil =>
    have hm : m ∈ orderBy key rows := mem_orderBy.mpr h.mem
    rw [hrows] at hm
    exact absurd hm not_mem_nil
  | cons first rest =>
    rw [hrows] at hsort
    have hfirst : first ∈ rows := mem_orderBy.mp (by rw [hrows]; exact mem_cons_self)
    have hm : m ∈ first :: rest := by
      rw [← hrows]
      exact mem_orderBy.mpr h.mem
    rw [head?_cons]
    by_contra hne
    have hoth : first ≠ m := fun heq => hne (congrArg some heq)
    -- the least row stands behind the first, so it is not below it
    have hr : m ∈ rest := (mem_cons.mp hm).resolve_left (fun heq => hoth heq.symm)
    have hle : key first ≤ key m := (pairwise_cons.mp hsort).1 m hr
    exact absurd (h.lt first hfirst hoth) (not_lt.mpr hle)

/-- A limit keeps the first row. -/
theorem Least.mem_take (h : Least key rows m) {n : ℕ} (hn : 1 ≤ n) :
    m ∈ (orderBy key rows).take n := by
  have hhead := head?_orderBy h
  cases hrows : orderBy key rows with
  | nil =>
    rw [hrows] at hhead
    cases hhead
  | cons =>
    rw [hrows, head?_cons] at hhead
    obtain ⟨k, rfl⟩ : ∃ k, n = k + 1 := ⟨n - 1, by omega⟩
    rw [take_succ_cons, Option.some.inj hhead]
    exact mem_cons_self

theorem mem_of_mem_take {n : ℕ} (h : x ∈ (orderBy key rows).take n) : x ∈ rows :=
  mem_orderBy.mp (List.mem_of_mem_take h)

/-- A limit as large as the table keeps every row. -/
theorem mem_take_of_length {n : ℕ} (hn : rows.length ≤ n) (hx : x ∈ rows) :
    x ∈ (orderBy key rows).take n := by
  rw [take_of_length_le (by rw [length_orderBy]; exact hn)]
  exact mem_orderBy.mpr hx

/-- Where a row is first, no row is before it. -/
theorem le_of_head? (h : (orderBy key rows).head? = some m) (hx : x ∈ rows) :
    key m ≤ key x := by
  have hsort : (orderBy key rows).Pairwise (fun a b => key a ≤ key b) :=
    pairwise_insertionSort _ rows
  have hmem : x ∈ orderBy key rows := mem_orderBy.mpr hx
  cases hrows : orderBy key rows with
  | nil =>
    rw [hrows] at h
    cases h
  | cons =>
    rw [hrows] at h hsort hmem
    obtain rfl := Option.some.inj h
    rcases mem_cons.mp hmem with heq | hr
    · rw [heq]
    · exact (pairwise_cons.mp hsort).1 x hr

/-- A key that tells the rows apart has a least row. -/
theorem exists_least (hrows : rows ≠ [])
    (hinj : ∀ a ∈ rows, ∀ b ∈ rows, key a = key b → a = b) : ∃ m, Least key rows m := by
  cases hsort : orderBy key rows with
  | nil =>
    have hlen : rows.length = 0 := by
      rw [← @length_orderBy α κ _ key rows, hsort, length_nil]
    exact absurd (length_eq_zero_iff.mp hlen) hrows
  | cons first =>
    have hhead : (orderBy key rows).head? = some first := by
      rw [hsort, head?_cons]
    have hfirst : first ∈ rows := mem_orderBy.mp (by rw [hsort]; exact mem_cons_self)
    refine ⟨first, hfirst, ?_⟩
    intro r hr hne
    refine lt_of_le_of_ne (le_of_head? hhead hr) ?_
    exact fun heq => hne (hinj first hfirst r hr heq).symm

section Distinct

variable [DecidableEq β]

/-- The rows with a key that was not seen before. -/
def distinctBy (f : α → β) (rows : List α) : List α :=
  rows.foldl (fun kept row => if f row ∈ kept.map f then kept else kept ++ [row]) []

theorem mem_distinct_foldl {f : α → β} (rows kept : List α)
    (hinj : ∀ a ∈ kept ++ rows, ∀ b ∈ kept ++ rows, f a = f b → a = b) :
    x ∈ rows.foldl (fun kept row => if f row ∈ kept.map f then kept else kept ++ [row]) kept
      ↔ x ∈ kept ∨ x ∈ rows := by
  induction rows generalizing kept with
  | nil => simp only [foldl_nil, not_mem_nil, or_false]
  | cons row rest ih =>
    rw [foldl_cons, mem_cons]
    by_cases hseen : f row ∈ kept.map f
    · rw [if_pos hseen, ih kept ?_]
      · -- the row that was seen is this one
        obtain ⟨old, hold, heq⟩ := mem_map.mp hseen
        have hsame : old = row := hinj old (mem_append_left _ hold) row
          (mem_append_right _ mem_cons_self) heq
        constructor
        · rintro (hkept | hr)
          · exact .inl hkept
          · exact .inr (.inr hr)
        · rintro (hkept | rfl | hr)
          · exact .inl hkept
          · exact .inl (hsame ▸ hold)
          · exact .inr hr
      · intro a ha b hb
        have hsub : ∀ y ∈ kept ++ rest, y ∈ kept ++ row :: rest := by
          intro y hy
          rcases mem_append.mp hy with hy | hy
          · exact mem_append_left _ hy
          · exact mem_append_right _ (mem_cons_of_mem row hy)
        exact hinj a (hsub a ha) b (hsub b hb)
    · rw [if_neg hseen, ih (kept ++ [row]) ?_, mem_append, mem_singleton, or_assoc]
      rw [append_assoc]
      exact hinj

/-- Nothing is lost where the key tells the rows apart. -/
theorem mem_distinctBy {f : α → β} (hinj : ∀ a ∈ rows, ∀ b ∈ rows, f a = f b → a = b) :
    x ∈ distinctBy f rows ↔ x ∈ rows := by
  rw [distinctBy, mem_distinct_foldl rows [] hinj]
  simp only [not_mem_nil, false_or]

end Distinct

end OrderedQuery
