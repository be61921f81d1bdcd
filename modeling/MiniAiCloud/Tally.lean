import MiniAiCloud.Table

/-! # Dictionaries of counters

    A dictionary from keys to integers is a table; a key that is missing counts
    zero.  Counters are raised (`add`), collected from a list of items (`collect`)
    and drawn from, never below zero (`draw`).

    `amount` reads every one of them back: a collected counter is the sum of the
    weights that went under its key, and a drawing of `n` moves its own counter
    down by `n` and no other. -/

namespace Tally

open Table Option

variable {κ α : Type} [DecidableEq κ]

/-- `d.get(key, 0)`. -/
def amount (t : Table κ ℤ) (k : κ) : ℤ := (t.get? k).getD 0

/-- `d[key] = d.get(key, 0) + n`. -/
def add (t : Table κ ℤ) (k : κ) (n : ℤ) : Table κ ℤ :=
  match t.get? k with
  | none => t.insert k n
  | some m => t.set k (m + n)

/-- The keys of a dictionary. -/
def keys (t : Table κ ℤ) : List κ := t.rows.map Prod.fst

/-- A dictionary of the weights of some items, by key. -/
def collect (key : α → κ) (weight : α → ℤ) (items : List α) : Table κ ℤ :=
  items.foldl (fun t x => add t (key x) (weight x)) .empty

/-- Take `n` from a counter that has as much. -/
def draw (t : Table κ ℤ) (k : κ) (n : ℤ) : Option (Table κ ℤ) :=
  if amount t k < n then none else some (t.modify k (· - n))

@[simp] theorem amount_empty (k : κ) : amount (.empty : Table κ ℤ) k = 0 := rfl

theorem mem_keys {t : Table κ ℤ} {k : κ} : k ∈ keys t ↔ t.get? k ≠ none := by
  rw [ne_eq, get?_eq_none, not_not]
  rfl

/-- **RAISING** a counter raises no other. -/
theorem amount_add (t : Table κ ℤ) (k : κ) (n : ℤ) (j : κ) :
    amount (add t k n) j = amount t j + if k = j then n else 0 := by
  cases hk : t.get? k with
  | none =>
    simp only [add, hk, amount]
    rw [get?_insert hk]
    by_cases hj : k = j
    · subst hj
      rw [if_pos rfl, if_pos rfl, hk]
      simp
    · rw [if_neg (fun h => hj h.symm), if_neg hj, add_zero]
  | some =>
    simp only [add, hk, amount]
    rw [get?_set]
    by_cases hj : k = j
    · subst hj
      rw [if_pos rfl, hk]
      simp
    · rw [if_neg hj, add_zero]
      simp only [if_neg (fun h : j = k => hj h.symm)]
      rw [map_id']

theorem keys_add {t : Table κ ℤ} {k j : κ} {n : ℤ} :
    j ∈ keys (add t k n) ↔ j = k ∨ j ∈ keys t := by
  cases hk : t.get? k with
  | none =>
    simp only [mem_keys, add, hk]
    rw [get?_insert hk]
    by_cases hj : j = k
    · simp [hj]
    · simp [hj]
  | some =>
    simp only [mem_keys, add, hk]
    rw [ne_eq, get?_set_eq_none]
    constructor
    · exact .inr
    · rintro (rfl | hj)
      · rw [hk]
        simp
      · exact hj

/-- A counter above zero has an entry. -/
theorem mem_rows_of_amount {t : Table κ ℤ} {k : κ} (h : 0 < amount t k) :
    (k, amount t k) ∈ t.rows := by
  cases hk : t.get? k with
  | none =>
    rw [amount, hk] at h
    exact absurd h (lt_irrefl 0)
  | some =>
    rw [amount, hk]
    exact mem_rows.mpr hk

/-- Raising a counter changes no entry under another key. -/
theorem rows_add_filter {t : Table κ ℤ} {k : κ} {n : ℤ} {p : κ × ℤ → Bool}
    (hp : ∀ m, p (k, m) = false) : (add t k n).rows.filter p = t.rows.filter p := by
  cases hk : t.get? k with
  | none =>
    simp only [add, hk]
    rw [insert_rows hk, List.filter_append]
    simp [hp]
  | some =>
    simp only [add, hk]
    simp only [Table.set, Table.modify, Table.mapRows]
    induction t.rows with
    | nil => rfl
    | cons row _ ih =>
      rw [List.map_cons]
      by_cases hrow : row.1 = k
      · rw [if_pos hrow, List.filter_cons_of_neg (by simp [hrow, hp]),
          List.filter_cons_of_neg (by rw [← hrow] at hp; simp [hp row.2]), ih]
      · rw [if_neg hrow, List.filter_cons, List.filter_cons, ih]

/-- A dictionary with at most one key. -/
theorem rows_of_single {t : Table κ ℤ} {k : κ} (h : ∀ j ∈ keys t, j = k) :
    t.rows = [] ∨ t.rows = [(k, amount t k)] := by
  have hnd := t.nodup
  cases hrows : t.rows with
  | nil => exact .inl rfl
  | cons first rest =>
    have hfirst : first.1 = k := h first.1 (by rw [keys, hrows]; exact List.mem_cons_self)
    cases rest with
    | nil =>
      have hget : t.get? k = some first.2 :=
        mem_rows.mp (by rw [hrows, ← hfirst]; exact List.mem_cons_self)
      rw [amount, hget, ← hfirst]
      exact .inr rfl
    | cons second =>
      have hsec : second.1 = k := h second.1 (by simp [keys, hrows])
      rw [hrows, List.map_cons, List.map_cons, hfirst, hsec] at hnd
      simp at hnd

/-- A counter is the sum of its own entry. -/
theorem sum_entry (t : Table κ ℤ) (j : κ) :
    t.sum (fun k n => if k = j then n else 0) = amount t j := by
  cases hj : t.get? j with
  | none =>
    rw [amount, hj, sum_eq_zero]
    · rfl
    · intro k v hk
      refine if_neg ?_
      rintro rfl
      rw [hj] at hk
      cases hk
  | some n =>
    -- set the entry to zero: then nothing is left to sum
    have hset := sum_set hj 0 (fun k n => if k = j then n else 0)
    have hzero : (t.set j 0).sum (fun k n => if k = j then n else 0) = 0 := by
      refine sum_eq_zero ?_
      intro k v hk
      rcases get?_set_cases hk with ⟨_, rfl⟩ | ⟨hne, _⟩
      · exact ite_self 0
      · exact if_neg hne
    rw [hzero, if_pos rfl, if_pos rfl] at hset
    rw [amount, hj, getD_some]
    omega

/-- An invariant of the turns of a loop that may stop holds at its end. -/
theorem foldlM_invariant {σ β : Type} {step : σ → β → Option σ} {I : List β → σ → Prop}
    (xs : List β) (hstep : ∀ done x s s', x ∈ xs → I done s → step s x = some s' →
      I (done ++ [x]) s') {s s' : σ} (hinit : I [] s) (h : xs.foldlM step s = some s') :
    I xs s' := by
  have key : ∀ (rest done : List β) (s : σ), (∀ x ∈ rest, x ∈ xs) → I done s →
      rest.foldlM step s = some s' → I (done ++ rest) s' := by
    intro rest
    induction rest with
    | nil =>
      intro _ _ _ hI h
      rw [List.append_nil, ← some.inj h]
      exact hI
    | cons x _ ih =>
      intro done s hmem hI h
      rw [List.foldlM_cons] at h
      obtain ⟨mid, hmid, hr⟩ := bind_eq_some_iff.mp h
      have hnext := ih (done ++ [x]) mid (fun y hy => hmem y (List.mem_cons_of_mem _ hy))
        (hstep done x s mid (hmem x List.mem_cons_self) hI hmid) hr
      rw [List.append_assoc] at hnext
      exact hnext
  exact key xs [] s (fun _ hx => hx) hinit h

section Collecting

variable (key : α → κ) (weight : α → ℤ)

private theorem amount_foldl (k : κ) : ∀ (items : List α) (t : Table κ ℤ),
      amount (items.foldl (fun t x => add t (key x) (weight x)) t) k
        = amount t k + (items.map (fun x => if key x = k then weight x else 0)).sum := by
  intro items
  induction items with
  | nil =>
    intro t
    simp
  | cons _ _ ih =>
    intro t
    rw [List.foldl_cons, ih, amount_add, List.map_cons, List.sum_cons, add_assoc]

/-- **COLLECTING**: a counter is the sum of the weights under its key. -/
theorem amount_collect (items : List α) (k : κ) : amount (collect key weight items) k
      = (items.map (fun x => if key x = k then weight x else 0)).sum := by
  rw [collect, amount_foldl, amount_empty, zero_add]

private theorem keys_foldl {k : κ} : ∀ (items : List α) (t : Table κ ℤ),
      k ∈ keys (items.foldl (fun t x => add t (key x) (weight x)) t)
        ↔ k ∈ keys t ∨ ∃ x ∈ items, key x = k := by
  intro items
  induction items with
  | nil =>
    intro t
    simp
  | cons _ _ ih =>
    intro t
    rw [List.foldl_cons, ih, keys_add, List.exists_mem_cons_iff]
    constructor
    · rintro ((rfl | ht) | hr)
      · exact .inr (.inl rfl)
      · exact .inl ht
      · exact .inr (.inr hr)
    · rintro (ht | rfl | hr)
      · exact .inl (.inr ht)
      · exact .inl (.inl rfl)
      · exact .inr hr

theorem mem_keys_collect {items : List α} {k : κ} :
    k ∈ keys (collect key weight items) ↔ ∃ x ∈ items, key x = k := by
  rw [collect, keys_foldl]
  simp [keys, Table.empty]

/-- Counting items: every weight is one. -/
theorem amount_collect_one (items : List α) (k : κ) :
    amount (collect key (fun _ => 1) items) k = (items.countP (fun x => key x = k) : ℤ) := by
  rw [amount_collect]
  induction items with
  | nil => rfl
  | cons x _ ih =>
    rw [List.map_cons, List.sum_cons, ih, List.countP_cons]
    by_cases hx : key x = k
    · simp [hx, add_comm]
    · simp [hx]

end Collecting

section Drawing

variable {t t' : Table κ ℤ} {k : κ} {n : ℤ}

theorem draw_keys (h : draw t k n = some t') : keys t' = keys t := by
  rw [draw] at h
  split at h
  · exact absurd h (by simp)
  · rw [← some.inj h, keys, keys, Table.modify, Table.mapRows, List.map_map]
    rfl

/-- **DRAWING** takes from its own counter alone. -/
theorem amount_draw (h : draw t k n = some t') {j : κ} (hj : j ∈ keys t) :
    amount t' j = amount t j - if k = j then n else 0 := by
  rw [draw] at h
  split at h
  · exact absurd h (by simp)
  · rw [← some.inj h, amount, amount, get?_modify]
    obtain ⟨m, hm⟩ := ne_none_iff_exists'.mp (mem_keys.mp hj)
    rw [hm]
    by_cases hk : k = j
    · simp [hk]
    · have hjk : ¬ j = k := fun h => hk h.symm
      simp [hk, hjk]

/-- A counter that was drawn from had as much. -/
theorem le_amount_of_draw (h : draw t k n = some t') : n ≤ amount t k := by
  rw [draw] at h
  split at h
  · exact absurd h (by simp)
  · rename_i hlt
    exact not_lt.mp hlt

end Drawing

end Tally
