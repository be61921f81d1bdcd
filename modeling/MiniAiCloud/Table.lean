import Mathlib.Algebra.Order.BigOperators.Group.List
import Mathlib.Data.List.Nodup
import Mathlib.Data.List.Perm.Subperm
import Mathlib.Tactic.Abel

/-! # Keyed tables with aggregates

    A relational table is a list of rows with pairwise distinct keys.  Rows are
    read by key (`get?`), added (`insert`), rewritten (`mapRows` and its special
    cases `set`, `modify`, `map`) and folded (`sum`).

    The point of the file is the aggregate calculus: writing one row changes a
    `sum` by new row minus old row, and adding a row adds its own term.  A
    denormalised counter that is moved by the same difference therefore keeps
    tracking the aggregate. -/

namespace Table

variable {κ ρ ρ' ρ'' M : Type}

/-- First row with the given key. -/
def lookupRow [DecidableEq κ] : List (κ × ρ) → κ → Option ρ
  | [], _ => none
  | (k', v) :: rest, k => if k' = k then some v else lookupRow rest k

private theorem lookupRow_cons [DecidableEq κ] (k' : κ) (v : ρ) (rest : List (κ × ρ)) (k : κ) :
    lookupRow ((k', v) :: rest) k
      = if k' = k then some v else lookupRow rest k := rfl

end Table

/-- A table: rows with pairwise distinct keys. -/
structure Table (κ ρ : Type) where
  rows : List (κ × ρ)
  nodup : (rows.map Prod.fst).Nodup

namespace Table

variable {κ ρ ρ' ρ'' M : Type}
variable {t : Table κ ρ} {k j : κ} {φ : ρ → ρ'} {v w : ρ} {p : κ → ρ → Bool}

/-- The table without rows. -/
def empty : Table κ ρ := ⟨[], List.nodup_nil⟩

/-- A lookup in a list without duplicate keys is membership. -/
theorem lookupRow_eq_some [DecidableEq κ] : ∀ {rows : List (κ × ρ)}, (rows.map Prod.fst).Nodup →
      (lookupRow rows k = some v ↔ (k, v) ∈ rows) := by
  intro rows
  induction rows with
  | nil => intro _; exact ⟨fun h => (nomatch h), fun h => (nomatch h)⟩
  | cons hd rest ih =>
    intro hnd
    obtain ⟨k', _⟩ := hd
    have hnd' : k' ∉ rest.map Prod.fst ∧ (rest.map Prod.fst).Nodup := List.nodup_cons.mp hnd
    rw [lookupRow_cons]
    by_cases hk : k' = k
    · subst hk
      rw [if_pos rfl]
      constructor
      · intro h
        rw [Option.some.inj h]
        exact List.mem_cons_self
      · intro h
        rcases List.mem_cons.mp h with heq | hmem
        · rw [(Prod.mk.inj heq).2]
        · exact absurd (List.mem_map_of_mem hmem) hnd'.1
    · rw [if_neg hk, ih hnd'.2]
      constructor
      · exact List.mem_cons_of_mem _
      · intro h
        rcases List.mem_cons.mp h with heq | hmem
        · exact absurd (Prod.mk.inj heq).1.symm hk
        · exact hmem

/-- Looking a row up after a key-preserving rewrite rewrites the found row. -/
theorem lookupRow_map [DecidableEq κ] (g : κ → ρ → ρ') (k : κ) : ∀ rows : List (κ × ρ),
      lookupRow (rows.map (fun r => (r.1, g r.1 r.2))) k
        = (lookupRow rows k).map (g k) := by
  intro rows
  induction rows with
  | nil => rfl
  | cons hd _ ih =>
    obtain ⟨k', v⟩ := hd
    rw [List.map_cons, lookupRow_cons, lookupRow_cons]
    by_cases hk : k' = k
    · subst hk
      rw [if_pos rfl, if_pos rfl]
      rfl
    · rw [if_neg hk, if_neg hk]
      exact ih

/-- Rewrite every row, keeping its key. -/
def mapRows (t : Table κ ρ) (g : κ → ρ → ρ') : Table κ ρ' where
  rows := t.rows.map (fun r => (r.1, g r.1 r.2))
  nodup := by
    rw [List.map_map]
    exact t.nodup

/-- Rewrite every row by the same function: a view of the table. -/
def map (t : Table κ ρ) (φ : ρ → ρ') : Table κ ρ' := t.mapRows (fun _ => φ)

theorem mapRows_mapRows (t : Table κ ρ) (g : κ → ρ → ρ') (g' : κ → ρ' → ρ'') :
    (t.mapRows g).mapRows g' = t.mapRows (fun k v => g' k (g k v)) := by
  show Table.mk _ _ = Table.mk _ _
  congr 1
  exact List.map_map

theorem mapRows_id (t : Table κ ρ) : t.mapRows (fun _ v => v) = t := by
  show Table.mk _ _ = t
  cases t with
  | mk rows =>
    congr 1
    exact List.map_id' rows

/-- The rows a predicate selects, in table order. -/
def select (t : Table κ ρ) (p : κ → ρ → Bool) : List (κ × ρ) :=
  t.rows.filter (fun r => p r.1 r.2)

/-- Selecting from a mapped table is mapping the selected rows. -/
theorem select_map (t : Table κ ρ) (φ : ρ → ρ') (p : κ → ρ' → Bool) : (t.map φ).select p
      = (t.select (fun k v => p k (φ v))).map (fun row => (row.1, φ row.2)) := by
  show (t.rows.map _).filter _ = _
  rw [List.filter_map]
  rfl

theorem select_keys_nodup (t : Table κ ρ) (p : κ → ρ → Bool) : ((t.select p).map Prod.fst).Nodup :=
  t.nodup.sublist (List.Sublist.map Prod.fst List.filter_sublist)

/-- Sum of a row function over the table. -/
def sum [AddCommMonoid M] (t : Table κ ρ) (g : κ → ρ → M) : M :=
  (t.rows.map (fun r => g r.1 r.2)).sum

@[simp] theorem sum_empty [AddCommMonoid M] (g : κ → ρ → M) : (empty : Table κ ρ).sum g = 0 := rfl

theorem sum_mapRows [AddCommMonoid M] (t : Table κ ρ) (f : κ → ρ → ρ') (g : κ → ρ' → M) :
    (t.mapRows f).sum g = t.sum (fun k v => g k (f k v)) := by
  unfold sum mapRows
  rw [List.map_map]
  rfl

theorem sum_map [AddCommMonoid M] (t : Table κ ρ) (φ : ρ → ρ')
    (g : κ → ρ' → M) : (t.map φ).sum g = t.sum (fun k v => g k (φ v)) :=
  sum_mapRows t _ g

/-- Counting the selected rows. -/
theorem select_length (t : Table κ ρ) (p : κ → ρ → Bool) :
    ((t.select p).length : ℤ) = t.sum (fun k v => if p k v = true then 1 else 0) := by
  show ((t.rows.filter _).length : ℤ) = (t.rows.map _).sum
  induction t.rows with
  | nil => rfl
  | cons row _ ih =>
    rw [List.map_cons, List.sum_cons, ← ih, List.filter_cons]
    dsimp only
    by_cases hp : p row.1 row.2 = true
    · rw [if_pos hp, if_pos hp, List.length_cons]
      omega
    · rw [if_neg hp, if_neg hp, zero_add]

/-- Summing over the selected rows. -/
theorem select_sum [AddCommMonoid M] (t : Table κ ρ) (p : κ → ρ → Bool) (g : κ → ρ → M) :
    ((t.select p).map (fun row => g row.1 row.2)).sum
      = t.sum (fun k v => if p k v = true then g k v else 0) := by
  show ((t.rows.filter _).map _).sum = (t.rows.map _).sum
  induction t.rows with
  | nil => rfl
  | cons row _ ih =>
    rw [List.map_cons, List.sum_cons, ← ih, List.filter_cons]
    dsimp only
    by_cases hp : p row.1 row.2 = true
    · rw [if_pos hp, if_pos hp, List.map_cons, List.sum_cons]
    · rw [if_neg hp, if_neg hp, zero_add]

section Keyed

variable [DecidableEq κ]

/-- Read a row by primary key. -/
def get? (t : Table κ ρ) (k : κ) : Option ρ := lookupRow t.rows k

theorem mem_rows : (k, v) ∈ t.rows ↔ t.get? k = some v := (lookupRow_eq_some t.nodup).symm

@[simp] theorem get?_empty (k : κ) : (empty : Table κ ρ).get? k = none := rfl

/-- A table without rows has nothing to find. -/
theorem get?_of_rows_nil (h : t.rows = []) (k : κ) : t.get? k = none := by
  cases hget : t.get? k with
  | none => rfl
  | some =>
    have hmem := mem_rows.mpr hget
    rw [h] at hmem
    cases hmem

theorem get?_eq_none :
    t.get? k = none ↔ k ∉ t.rows.map Prod.fst := by
  constructor
  · intro h hmem
    obtain ⟨⟨k', v⟩, hrow, hk⟩ := List.mem_map.mp hmem
    have hk' : k' = k := hk
    subst hk'
    rw [mem_rows.mp hrow] at h
    exact nomatch h
  · intro h
    cases hv : t.get? k with
    | none => rfl
    | some => exact absurd (List.mem_map_of_mem (mem_rows.mpr hv)) h

/-! ## Rewriting rows -/

/-- Rewrite the row at `k`, if there is one. -/
def modify (t : Table κ ρ) (k : κ) (f : ρ → ρ) : Table κ ρ :=
  t.mapRows (fun k' v => if k' = k then f v else v)

/-- Overwrite the row at `k`, if there is one. -/
def set (t : Table κ ρ) (k : κ) (v : ρ) : Table κ ρ := t.modify k (fun _ => v)

@[simp] theorem get?_mapRows (t : Table κ ρ) (g : κ → ρ → ρ') (k : κ) :
    (t.mapRows g).get? k = (t.get? k).map (g k) :=
  lookupRow_map g k t.rows

@[simp] theorem get?_map (t : Table κ ρ) (φ : ρ → ρ') (k : κ) :
    (t.map φ).get? k = (t.get? k).map φ :=
  get?_mapRows t _ k

theorem get?_map_of_some (h : t.get? k = some v) (φ : ρ → ρ') :
    (t.map φ).get? k = some (φ v) := by
  rw [get?_map, h]
  rfl

theorem get?_map_eq_some {w : ρ'} :
    (t.map φ).get? k = some w ↔ ∃ v, t.get? k = some v ∧ φ v = w := by
  rw [get?_map, Option.map_eq_some_iff]

theorem get?_map_eq_none :
    (t.map φ).get? k = none ↔ t.get? k = none := by
  rw [get?_map, Option.map_eq_none_iff]

theorem get?_modify (t : Table κ ρ) (k : κ) (f : ρ → ρ) (j : κ) : (t.modify k f).get? j
      = (t.get? j).map (fun v => if j = k then f v else v) :=
  get?_mapRows t _ j

theorem get?_modify_ne (t : Table κ ρ) (f : ρ → ρ) (h : j ≠ k) :
    (t.modify k f).get? j = t.get? j := by
  rw [get?_modify]
  simp [h]

theorem get?_set (t : Table κ ρ) (k : κ) (v : ρ) (j : κ) : (t.set k v).get? j
      = (t.get? j).map (fun old => if j = k then v else old) :=
  get?_modify t k _ j

theorem get?_set_self {old : ρ} (h : t.get? k = some old) (v : ρ) :
    (t.set k v).get? k = some v := by
  rw [get?_set, h]
  simp

theorem get?_set_ne (t : Table κ ρ) (v : ρ) (h : j ≠ k) : (t.set k v).get? j = t.get? j :=
  get?_modify_ne t _ h

/-- A row found after one was rewritten is that one or an old one. -/
theorem get?_modify_cases {f : ρ → ρ} (h : (t.modify k f).get? j = some w) :
    (j = k ∧ ∃ v, t.get? k = some v ∧ w = f v) ∨ (j ≠ k ∧ t.get? j = some w) := by
  rw [get?_modify] at h
  obtain ⟨v, hv, hw⟩ := Option.map_eq_some_iff.mp h
  by_cases hjk : j = k
  · rw [if_pos hjk] at hw
    rw [hjk] at hv
    exact .inl ⟨hjk, v, hv, hw.symm⟩
  · rw [if_neg hjk] at hw
    rw [hw] at hv
    exact .inr ⟨hjk, hv⟩

theorem get?_set_cases (h : (t.set k v).get? j = some w) :
    (j = k ∧ w = v) ∨ (j ≠ k ∧ t.get? j = some w) := by
  rcases get?_modify_cases h with ⟨hjk, _, _, hw⟩ | hold
  · exact .inl ⟨hjk, hw⟩
  · exact .inr hold

theorem get?_modify_eq_none {f : ρ → ρ} :
    (t.modify k f).get? j = none ↔ t.get? j = none := by
  rw [get?_modify, Option.map_eq_none_iff]

theorem get?_set_eq_none : (t.set k v).get? j = none ↔ t.get? j = none := get?_modify_eq_none

theorem mapRows_congr {g g' : κ → ρ → ρ'} (h : ∀ k v, t.get? k = some v → g k v = g' k v) :
    t.mapRows g = t.mapRows g' := by
  have hrows : (t.mapRows g).rows = (t.mapRows g').rows := by
    refine List.map_congr_left ?_
    intro r hr
    rw [h r.1 r.2 (mem_rows.mp hr)]
  cases ht : t.mapRows g with
  | mk rows =>
    cases ht' : t.mapRows g' with
    | mk rows' =>
      rw [ht, ht'] at hrows
      have hr : rows = rows' := hrows
      subst hr
      rfl

/-- Rewriting one known row is overwriting it. -/
theorem modify_eq_set (h : t.get? k = some v) (f : ρ → ρ) : t.modify k f = t.set k (f v) := by
  unfold set modify
  refine mapRows_congr ?_
  intro j w hj
  by_cases hjk : j = k
  · subst hjk
    rw [h] at hj
    rw [Option.some.inj hj]
  · rw [if_neg hjk, if_neg hjk]

@[simp] theorem set_set (t : Table κ ρ) (k : κ) (v w : ρ) :
    (t.set k v).set k w = t.set k w := by
  unfold set modify
  rw [mapRows_mapRows]
  refine mapRows_congr ?_
  intro j u _
  by_cases hjk : j = k
  · rw [if_pos hjk, if_pos hjk, if_pos hjk]
  · rw [if_neg hjk, if_neg hjk, if_neg hjk]

theorem modify_of_none (h : t.get? k = none) (f : ρ → ρ) :
    t.modify k f = t := by
  have hid : t.modify k f = t.mapRows (fun _ w => w) := by
    refine mapRows_congr ?_
    intro j w hj
    have hjk : ¬ j = k := by
      intro hjk
      rw [hjk, h] at hj
      cases hj
    rw [if_neg hjk]
  rw [hid, mapRows_id]

theorem modify_id (t : Table κ ρ) (k : κ) : t.modify k id = t := by
  have hid : t.modify k id = t.mapRows (fun _ w => w) := by
    refine mapRows_congr ?_
    intro j w _
    rw [id, ite_self]
  rw [hid, mapRows_id]

/-- Overwriting a row with itself changes nothing. -/
theorem set_eq_self (h : t.get? k = some v) :
    t.set k v = t := by
  have hid : t.set k v = t.mapRows (fun _ w => w) := by
    unfold set modify
    refine mapRows_congr ?_
    intro j w hj
    by_cases hjk : j = k
    · subst hjk
      rw [h] at hj
      rw [if_pos rfl, Option.some.inj hj]
    · rw [if_neg hjk]
  rw [hid, mapRows_id]

@[simp] theorem map_set (t : Table κ ρ) (k : κ) (v : ρ) (φ : ρ → ρ') :
    (t.set k v).map φ = (t.map φ).set k (φ v) := by
  unfold set modify map
  rw [mapRows_mapRows, mapRows_mapRows]
  refine mapRows_congr ?_
  intro j u _
  by_cases hjk : j = k
  · rw [if_pos hjk, if_pos hjk]
  · rw [if_neg hjk, if_neg hjk]

/-- A rewrite that a view does not see leaves the view as it was. -/
theorem map_mapRows_eq {g : κ → ρ → ρ} (h : ∀ k v, t.get? k = some v → φ (g k v) = φ v) :
    (t.mapRows g).map φ = t.map φ := by
  unfold map
  rw [mapRows_mapRows]
  exact mapRows_congr h

/-- A rewriting that the view can follow. -/
theorem map_mapRows_comm {g : κ → ρ → ρ} {g' : κ → ρ' → ρ'}
    (h : ∀ k v, t.get? k = some v → φ (g k v) = g' k (φ v)) :
    (t.mapRows g).map φ = (t.map φ).mapRows g' := by
  show (t.mapRows g).mapRows _ = (t.mapRows _).mapRows g'
  rw [mapRows_mapRows, mapRows_mapRows]
  exact mapRows_congr h

theorem map_set_eq {old : ρ} (hold : t.get? k = some old) (h : φ v = φ old) :
    (t.set k v).map φ = t.map φ := by
  rw [map_set]
  refine set_eq_self ?_
  rw [get?_map, hold, h]
  rfl

theorem map_modify {f : ρ → ρ} {g : ρ' → ρ'} (h : ∀ v, φ (f v) = g (φ v)) (k : κ) :
    (t.modify k f).map φ = (t.map φ).modify k g := by
  refine map_mapRows_comm ?_
  intro j v _
  by_cases hjk : j = k
  · rw [if_pos hjk, if_pos hjk, h]
  · rw [if_neg hjk, if_neg hjk]

theorem map_modify_eq {f : ρ → ρ} (h : ∀ v, φ (f v) = φ v) : (t.modify k f).map φ = t.map φ := by
  refine map_mapRows_eq ?_
  intro j v _
  by_cases hjk : j = k
  · rw [if_pos hjk, h]
  · rw [if_neg hjk]

/-! ## Adding rows -/

/-- Add a row; a row that is already there is kept. -/
def insert (t : Table κ ρ) (k : κ) (v : ρ) : Table κ ρ :=
  if h : t.get? k = none then
    ⟨t.rows ++ [(k, v)], by
      have hk := get?_eq_none.mp h
      rw [List.map_append, List.nodup_append]
      refine ⟨t.nodup, List.nodup_singleton _, ?_⟩
      intro a ha b hb hab
      have hbk : b = k := by simpa using hb
      exact hk (hbk ▸ hab ▸ ha)⟩
  else t

theorem insert_rows (h : t.get? k = none) (v : ρ) :
    (t.insert k v).rows = t.rows ++ [(k, v)] := by
  unfold insert
  rw [dif_pos h]

theorem insert_of_some (h : t.get? k = some w) (v : ρ) : t.insert k v = t := by
  unfold insert
  rw [dif_neg (by rw [h]; exact Option.some_ne_none w)]

private theorem lookupRow_append (rows : List (κ × ρ)) (k : κ) (v : ρ) (j : κ) :
    lookupRow (rows ++ [(k, v)]) j
      = (lookupRow rows j).or (if k = j then some v else none) := by
  induction rows with
  | nil => rfl
  | cons hd _ ih =>
    obtain ⟨k', w⟩ := hd
    rw [List.cons_append, lookupRow_cons, lookupRow_cons]
    by_cases hk : k' = j
    · rw [if_pos hk, if_pos hk]
      rfl
    · rw [if_neg hk, if_neg hk, ih]

theorem get?_insert_self (h : t.get? k = none) (v : ρ) :
    (t.insert k v).get? k = some v := by
  show lookupRow (t.insert k v).rows k = some v
  rw [insert_rows h, lookupRow_append]
  have h' : lookupRow t.rows k = none := h
  rw [h', if_pos rfl]
  rfl

theorem get?_insert_ne (t : Table κ ρ) (v : ρ) (hne : j ≠ k) :
    (t.insert k v).get? j = t.get? j := by
  by_cases h : t.get? k = none
  · show lookupRow (t.insert k v).rows j = lookupRow t.rows j
    rw [insert_rows h, lookupRow_append, if_neg (Ne.symm hne)]
    cases lookupRow t.rows j with
    | none | some w => rfl
  · unfold insert
    rw [dif_neg h]

/-- A row that was there is there after any insertion. -/
theorem get?_insert_of_some (h : t.get? j = some w) (v : ρ) : (t.insert k v).get? j = some w := by
  by_cases hjk : j = k
  · subst hjk
    rw [insert_of_some h, h]
  · rw [get?_insert_ne t v hjk, h]

theorem get?_insert (h : t.get? k = none) (v : ρ) (j : κ) :
    (t.insert k v).get? j = if j = k then some v else t.get? j := by
  by_cases hjk : j = k
  · subst hjk
    rw [if_pos rfl, get?_insert_self h]
  · rw [if_neg hjk, get?_insert_ne t v hjk]

theorem get?_insert_cases (h : (t.insert k v).get? j = some w) :
    (j = k ∧ w = v) ∨ t.get? j = some w := by
  by_cases hk : t.get? k = none
  · rw [get?_insert hk] at h
    by_cases hjk : j = k
    · rw [if_pos hjk] at h
      exact .inl ⟨hjk, (Option.some.inj h).symm⟩
    · rw [if_neg hjk] at h
      exact .inr h
  · unfold insert at h
    rw [dif_neg hk] at h
    exact .inr h

@[simp] theorem map_insert (t : Table κ ρ) (k : κ) (v : ρ) (φ : ρ → ρ') :
    (t.insert k v).map φ = (t.map φ).insert k (φ v) := by
  by_cases h : t.get? k = none
  · have h' : (t.map φ).get? k = none := by
      rw [get?_map, h]
      rfl
    unfold insert
    rw [dif_pos h, dif_pos h']
    show Table.mk _ _ = Table.mk _ _
    congr 1
    exact List.map_append
  · have h' : ¬ (t.map φ).get? k = none := by
      rw [get?_map]
      intro hn
      exact h (Option.map_eq_none_iff.mp hn)
    unfold insert
    rw [dif_neg h, dif_neg h']

/-- Add several rows. -/
def insertAll (t : Table κ ρ) : List (κ × ρ) → Table κ ρ
  | [] => t
  | (k, v) :: rest => (t.insert k v).insertAll rest

theorem insertAll_cons (t : Table κ ρ) (k : κ) (v : ρ) (rest : List (κ × ρ)) :
    t.insertAll ((k, v) :: rest) = (t.insert k v).insertAll rest := rfl

theorem get?_insertAll_of_some : ∀ (l : List (κ × ρ)) (t : Table κ ρ), t.get? j = some w →
      (t.insertAll l).get? j = some w := by
  intro l
  induction l with
  | nil => intro t h; exact h
  | cons hd _ ih =>
    intro t h
    obtain ⟨k, v⟩ := hd
    exact ih _ (get?_insert_of_some h v)

/-- What a key holds after adding rows was there before or was added. -/
theorem get?_insertAll_cases :
    ∀ (l : List (κ × ρ)) (t : Table κ ρ), (t.insertAll l).get? j = some w →
      t.get? j = some w ∨ (t.get? j = none ∧ (j, w) ∈ l) := by
  intro l
  induction l with
  | nil => intro t h; exact .inl h
  | cons hd _ ih =>
    intro t h
    obtain ⟨k, v⟩ := hd
    rw [insertAll_cons] at h
    rcases ih _ h with hin | ⟨hnone, hmem⟩
    · by_cases hjk : j = k
      · subst hjk
        by_cases hn : t.get? j = none
        · rw [get?_insert_self hn] at hin
          rw [← Option.some.inj hin]
          exact .inr ⟨hn, List.mem_cons_self⟩
        · unfold insert at hin
          rw [dif_neg hn] at hin
          exact .inl hin
      · rw [get?_insert_ne t v hjk] at hin
        exact .inl hin
    · by_cases hjk : j = k
      · subst hjk
        by_cases hn : t.get? j = none
        · rw [get?_insert_self hn] at hnone
          exact nomatch hnone
        · unfold insert at hnone
          rw [dif_neg hn] at hnone
          exact absurd hnone hn
      · rw [get?_insert_ne t v hjk] at hnone
        exact .inr ⟨hnone, List.mem_cons_of_mem _ hmem⟩

theorem map_insertAll (φ : ρ → ρ') : ∀ (l : List (κ × ρ)) (t : Table κ ρ), (t.insertAll l).map φ
        = (t.map φ).insertAll (l.map (fun r => (r.1, φ r.2))) := by
  intro l
  induction l with
  | nil => intro t; rfl
  | cons hd _ ih =>
    intro t
    obtain ⟨k, v⟩ := hd
    rw [insertAll_cons, ih, map_insert]
    rfl

/-! ## Queries -/

theorem mem_select :
    (k, v) ∈ t.select p ↔ t.get? k = some v ∧ p k v = true := by
  unfold select
  rw [List.mem_filter, mem_rows]

/-- The table of the rows a predicate selects. -/
def keep (t : Table κ ρ) (p : κ → ρ → Bool) : Table κ ρ := ⟨t.select p, select_keys_nodup t p⟩

/-- The table without the row at `k`. -/
def erase (t : Table κ ρ) (k : κ) : Table κ ρ := t.keep (fun j _ => j ≠ k)

theorem get?_keep :
    (t.keep p).get? k = some v ↔ t.get? k = some v ∧ p k v = true := by
  rw [← mem_rows]
  exact mem_select

theorem get?_erase :
    (t.erase k).get? j = some v ↔ t.get? j = some v ∧ j ≠ k := by
  rw [erase, get?_keep, decide_eq_true_iff]

theorem get?_erase_self (t : Table κ ρ) (k : κ) : (t.erase k).get? k = none := by
  cases h : (t.erase k).get? k with
  | none => rfl
  | some => exact absurd rfl (get?_erase.mp h).2

theorem get?_erase_ne (t : Table κ ρ) (h : j ≠ k) :
    (t.erase k).get? j = t.get? j := by
  refine Option.ext ?_
  intro v
  rw [get?_erase]
  exact and_iff_left h

/-- The table with `v` at `k`, whether or not there was a row. -/
def put (t : Table κ ρ) (k : κ) (v : ρ) : Table κ ρ := (t.erase k).insert k v

theorem get?_put_self (t : Table κ ρ) (k : κ) (v : ρ) : (t.put k v).get? k = some v :=
  get?_insert_self (get?_erase_self t k) v

theorem get?_put_ne (t : Table κ ρ) (v : ρ) (h : j ≠ k) :
    (t.put k v).get? j = t.get? j := by
  rw [put, get?_insert_ne _ v h, get?_erase_ne t h]

/-! ## Unique columns -/

/-- No two rows have the same value under `f`. -/
def UniqueOn {β : Type} (t : Table κ ρ) (f : ρ → β) : Prop :=
  ∀ j k v w, t.get? j = some v → t.get? k = some w → f v = f w → j = k

section UniqueOn

variable {β : Type} {t : Table κ ρ} {f : ρ → β}

theorem uniqueOn_empty : UniqueOn (empty : Table κ ρ) f := by
  intro j k v w hv
  cases hv

theorem UniqueOn.insert (h : t.UniqueOn f) {new : ρ}
    (hnew : ∀ j v, t.get? j = some v → f v ≠ f new) : (t.insert k new).UniqueOn f := by
  intro i j v w hv hw heq
  rcases get?_insert_cases hv with ⟨rfl, rfl⟩ | hv'
  · rcases get?_insert_cases hw with ⟨rfl, -⟩ | hw'
    · rfl
    · exact absurd heq.symm (hnew j w hw')
  · rcases get?_insert_cases hw with ⟨rfl, rfl⟩ | hw'
    · exact absurd heq (hnew i v hv')
    · exact h i j v w hv' hw' heq

/-- A row is overwritten by one with the same value. -/
theorem UniqueOn.set (h : t.UniqueOn f) {old new : ρ} (hold : t.get? k = some old)
    (heq : f new = f old) : (t.set k new).UniqueOn f := by
  have hrow : ∀ j v, (t.set k new).get? j = some v → ∃ v', t.get? j = some v' ∧ f v = f v' := by
    intro j v hv
    rcases get?_set_cases hv with ⟨rfl, rfl⟩ | ⟨-, hv⟩
    · exact ⟨old, hold, heq⟩
    · exact ⟨v, hv, rfl⟩
  intro i j v w hv hw hvw
  obtain ⟨v', hv', hfv⟩ := hrow i v hv
  obtain ⟨w', hw', hfw⟩ := hrow j w hw
  exact h i j v' w' hv' hw' (hfv.symm.trans (hvw.trans hfw))

theorem UniqueOn.keep (h : t.UniqueOn f) (p : κ → ρ → Bool) : (t.keep p).UniqueOn f :=
  fun i j v w hv hw => h i j v w (get?_keep.mp hv).1 (get?_keep.mp hw).1

end UniqueOn

/-- When as many rows as asked-for keys are found, every key was found. -/
theorem mem_of_select_length {ks : List κ} (hsub : ∀ k v, p k v = true → k ∈ ks)
    (hlen : ks.length ≤ (t.select p).length) (hk : k ∈ ks) :
    ∃ v, t.get? k = some v ∧ p k v = true := by
  have hss : ((t.select p).map Prod.fst).Subperm ks := by
    refine List.subperm_of_subset (select_keys_nodup t p) ?_
    intro j hj
    obtain ⟨⟨j', v⟩, hmem, hj'⟩ := List.mem_map.mp hj
    have hjj : j' = j := hj'
    subst hjj
    exact hsub j' v (mem_select.mp hmem).2
  have hperm := hss.perm_of_length_le (by rw [List.length_map]; exact hlen)
  obtain ⟨⟨k', v⟩, hmem, hk'⟩ := List.mem_map.mp (hperm.mem_iff.mpr hk)
  have hkk : k' = k := hk'
  subst hkk
  exact ⟨v, mem_select.mp hmem⟩

/-! ## Aggregates -/

section Monoid

variable [AddCommMonoid M]

theorem sum_congr {g g' : κ → ρ → M} (h : ∀ k v, t.get? k = some v → g k v = g' k v) :
    t.sum g = t.sum g' := by
  unfold sum
  congr 1
  refine List.map_congr_left ?_
  intro r hr
  exact h r.1 r.2 (mem_rows.mp hr)

theorem sum_eq_zero {g : κ → ρ → M} (h : ∀ k v, t.get? k = some v → g k v = 0) : t.sum g = 0 := by
  unfold sum
  refine List.sum_eq_zero ?_
  intro x hx
  obtain ⟨r, hr, rfl⟩ := List.mem_map.mp hx
  exact h r.1 r.2 (mem_rows.mp hr)

theorem sum_insert (h : t.get? k = none) (v : ρ) (g : κ → ρ → M) :
    (t.insert k v).sum g = t.sum g + g k v := by
  unfold sum
  rw [insert_rows h, List.map_append, List.sum_append]
  simp

theorem sum_insertAll (g : κ → ρ → M) :
    ∀ (l : List (κ × ρ)) (t : Table κ ρ), (l.map Prod.fst).Nodup →
      (∀ k ∈ l.map Prod.fst, t.get? k = none) →
      (t.insertAll l).sum g
        = t.sum g + (l.map (fun r => g r.1 r.2)).sum := by
  intro l
  induction l with
  | nil => intro t _ _; simp [insertAll]
  | cons hd _ ih =>
    intro t hnd hfresh
    obtain ⟨k, v⟩ := hd
    have hnd' := List.nodup_cons.mp hnd
    have hk : t.get? k = none := hfresh k List.mem_cons_self
    rw [insertAll_cons, ih _ hnd'.2, sum_insert hk, List.map_cons, List.sum_cons, add_assoc]
    intro j hj
    have hjk : j ≠ k := by
      intro h
      subst h
      exact hnd'.1 hj
    rw [get?_insert_ne t v hjk]
    exact hfresh j (List.mem_cons_of_mem _ hj)

end Monoid

section Group

variable [AddCommGroup M]

private theorem sum_rows_set {old : ρ} (g : κ → ρ → M) :
    ∀ rows : List (κ × ρ), (rows.map Prod.fst).Nodup → lookupRow rows k = some old →
      ((rows.map (fun r => (r.1, if r.1 = k then v else r.2))).map
          (fun r => g r.1 r.2)).sum
        = (rows.map (fun r => g r.1 r.2)).sum - g k old + g k v := by
  intro rows
  induction rows with
  | nil => intro _ h; exact nomatch h
  | cons hd rest ih =>
    intro hnd h
    obtain ⟨k', w⟩ := hd
    have hnd' : k' ∉ rest.map Prod.fst ∧ (rest.map Prod.fst).Nodup := List.nodup_cons.mp hnd
    rw [lookupRow_cons] at h
    rw [List.map_cons, List.map_cons, List.sum_cons, List.map_cons, List.sum_cons]
    by_cases hk : k' = k
    · subst hk
      rw [if_pos rfl] at h
      have hw : w = old := Option.some.inj h
      -- no other row carries this key, so the tail is unchanged
      have htail : rest.map (fun r => (r.1, if r.1 = k' then v else r.2))
          = rest := by
        conv_rhs => rw [← List.map_id' rest]
        refine List.map_congr_left ?_
        intro r hr
        have hne : r.1 ≠ k' := by
          intro he
          exact hnd'.1 (he ▸ List.mem_map_of_mem hr)
        rw [if_neg hne]
      rw [htail, hw]
      simp only [if_true]
      abel
    · rw [if_neg hk] at h
      rw [ih hnd'.2 h]
      simp only [if_neg hk]
      abel

/-- **THE AGGREGATE RULE**: overwriting one row moves a sum by new minus
    old. -/
theorem sum_set {old : ρ} (h : t.get? k = some old) (v : ρ) (g : κ → ρ → M) :
    (t.set k v).sum g = t.sum g - g k old + g k v :=
  sum_rows_set g t.rows t.nodup h

end Group

section Ordered

variable [AddCommMonoid M] [PartialOrder M] [IsOrderedAddMonoid M]

theorem sum_nonneg {g : κ → ρ → M} (h : ∀ k v, t.get? k = some v → 0 ≤ g k v) : 0 ≤ t.sum g := by
  unfold sum
  refine List.sum_nonneg ?_
  intro x hx
  obtain ⟨r, hr, rfl⟩ := List.mem_map.mp hx
  exact h r.1 r.2 (mem_rows.mp hr)

theorem sum_le_sum {g g' : κ → ρ → M} (h : ∀ k v, t.get? k = some v → g k v ≤ g' k v) :
    t.sum g ≤ t.sum g' := by
  unfold sum
  refine List.sum_le_sum ?_
  intro r hr
  exact h r.1 r.2 (mem_rows.mp hr)

/-- One row of a table of non-negative terms is below the whole sum. -/
theorem single_le_sum {g : κ → ρ → M} (hnn : ∀ k v, t.get? k = some v → 0 ≤ g k v)
    (h : t.get? k = some v) :
    g k v ≤ t.sum g := by
  unfold sum
  refine List.single_le_sum ?_ _ ?_
  · intro x hx
    obtain ⟨r, hr, rfl⟩ := List.mem_map.mp hx
    exact hnn r.1 r.2 (mem_rows.mp hr)
  · exact List.mem_map.mpr ⟨(k, v), mem_rows.mpr h, rfl⟩

end Ordered

end Keyed

end Table
