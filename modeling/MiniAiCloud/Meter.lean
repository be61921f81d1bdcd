import MiniAiCloud.Table

/-! # Denormalised counters

    Entries carry a weight and a key; a counter row at a key claims to show the
    total weight of the entries with that key.  `Shows` is that claim, and the
    rules below say when it survives a write: an entry that is added or rewritten
    must move the counter at its key by the same difference, and a counter row
    that is opened must start at zero where nothing is counted yet. -/

namespace Meter

open Table

variable {ι η κ ρ M : Type} [DecidableEq κ]

/-- The weight of the entries at a key. -/
def total [AddCommMonoid M] (entries : Table ι η) (key : η → κ) (weight : η → M)
    (k : κ) : M :=
  entries.sum (fun _ e => if key e = k then weight e else 0)

/-- Every counter row shows the total at its key. -/
def Shows [AddCommMonoid M] (entries : Table ι η) (rows : Table κ ρ) (key : η → κ)
    (weight : η → M) (shown : ρ → M) : Prop :=
  ∀ k r, rows.get? k = some r → shown r = total entries key weight k

section Monoid

variable [AddCommMonoid M] {entries : Table ι η} {key : η → κ} {weight : η → M}

theorem total_empty (k : κ) : total (Table.empty : Table ι η) key weight k = 0 := rfl

/-- A new counter row starts at zero where nothing is counted. -/
theorem Shows.open_row {rows : Table κ ρ} {shown : ρ → M}
    (h : Shows entries rows key weight shown) {k : κ} {r : ρ}
    (hzero : total entries key weight k = 0) (hr : shown r = 0) :
    Shows entries (rows.insert k r) key weight shown := by
  intro j s hj
  rcases get?_insert_cases hj with ⟨hjk, hs⟩ | hold
  · rw [hjk, hs, hr, hzero]
  · exact h j s hold

/-- A write to a counter row that shows the same. -/
theorem Shows.modify_row {rows : Table κ ρ} {shown : ρ → M}
    (h : Shows entries rows key weight shown) {k : κ} {f : ρ → ρ}
    (hf : ∀ r, rows.get? k = some r → shown (f r) = shown r) :
    Shows entries (rows.modify k f) key weight shown := by
  intro j s hj
  rcases get?_modify_cases hj with ⟨hjk, r, hr, hs⟩ | ⟨_, hold⟩
  · rw [hs, hf r hr, hjk]
    exact h k r hr
  · exact h j s hold

variable [DecidableEq ι]

/-- Nothing is counted at a key whose entries weigh nothing. -/
theorem total_eq_zero {k : κ} (h : ∀ x e, entries.get? x = some e → key e = k → weight e = 0) :
    total entries key weight k = 0 := by
  refine sum_eq_zero ?_
  intro x e hx
  by_cases hk : key e = k
  · rw [if_pos hk]
    exact h x e hx hk
  · rw [if_neg hk]

theorem total_insert {x : ι} (hx : entries.get? x = none) (e : η) (k : κ) :
    total (entries.insert x e) key weight k
      = total entries key weight k + if key e = k then weight e else 0 :=
  sum_insert hx e _

/-- **THE ADDING RULE**: a new entry moves the counter at its key by its
    weight. -/
theorem Shows.add_entry {rows : Table κ ρ} {shown : ρ → M}
    (h : Shows entries rows key weight shown) {x : ι} {e : η} {f : ρ → ρ}
    (hx : entries.get? x = none)
    (hf : ∀ r, rows.get? (key e) = some r → shown (f r) = shown r + weight e) :
    Shows (entries.insert x e) (rows.modify (key e) f) key weight shown := by
  intro j s hj
  rw [total_insert hx]
  rcases get?_modify_cases hj with ⟨hjk, r, hr, hs⟩ | ⟨hne, hold⟩
  · rw [hs, hf r hr, h (key e) r hr, hjk, if_pos rfl]
  · rw [if_neg (Ne.symm hne), add_zero]
    exact h j s hold

end Monoid

section Group

variable [DecidableEq ι] [AddCommGroup M] {entries : Table ι η} {key : η → κ} {weight : η → M}

theorem total_set {x : ι} {old new : η} (hx : entries.get? x = some old)
    (hkey : key new = key old) (k : κ) :
    total (entries.set x new) key weight k
      = total entries key weight k
        + if key old = k then weight new - weight old else 0 := by
  show (entries.set x new).sum _ = _
  rw [sum_set hx, hkey]
  show total entries key weight k - _ + _ = _
  by_cases hk : key old = k
  · rw [if_pos hk, if_pos hk, if_pos hk]
    abel
  · rw [if_neg hk, if_neg hk, if_neg hk]
    abel

/-- **THE REWRITING RULE**: a rewritten entry moves the counter at its key by
    the difference of the weights. -/
theorem Shows.set_entry {rows : Table κ ρ} {shown : ρ → M}
    (h : Shows entries rows key weight shown) {x : ι} {old new : η} {f : ρ → ρ}
    (hx : entries.get? x = some old) (hkey : key new = key old)
    (hf : ∀ r, rows.get? (key old) = some r → shown (f r) = shown r + (weight new - weight old)) :
    Shows (entries.set x new) (rows.modify (key old) f) key weight shown := by
  intro j s hj
  rw [total_set hx hkey]
  rcases get?_modify_cases hj with ⟨hjk, r, hr, hs⟩ | ⟨hne, hold⟩
  · rw [hs, hf r hr, h (key old) r hr, hjk, if_pos rfl]
  · rw [if_neg (Ne.symm hne), add_zero]
    exact h j s hold

/-- A rewritten entry of the same weight moves no counter. -/
theorem Shows.same_entry {rows : Table κ ρ} {shown : ρ → M}
    (h : Shows entries rows key weight shown) {x : ι} {old new : η}
    (hx : entries.get? x = some old) (hkey : key new = key old)
    (hwt : weight new = weight old) :
    Shows (entries.set x new) rows key weight shown := by
  intro j s hj
  rw [total_set hx hkey, hwt, sub_self, ite_self, add_zero]
  exact h j s hj

end Group

section Ordered

variable [DecidableEq ι] [AddCommMonoid M] [PartialOrder M] [IsOrderedAddMonoid M]
variable {entries : Table ι η} {key : η → κ} {weight : η → M}

/-- A counter shows at least the weight of each of its entries. -/
theorem weight_le_total (hnn : ∀ x e, entries.get? x = some e → 0 ≤ weight e)
    {x : ι} {e : η} (hx : entries.get? x = some e) :
    weight e ≤ total entries key weight (key e) := by
  have hle := single_le_sum
    (g := fun _ e' => if key e' = key e then weight e' else 0) (v := e) (k := x)
    (fun y e' hy => by
      by_cases hk : key e' = key e
      · rw [if_pos hk]
        exact hnn y e' hy
      · rw [if_neg hk]) hx
  rw [if_pos rfl] at hle
  exact hle

/-- A counter row covers each of its entries. -/
theorem Shows.covers {ρ : Type} {rows : Table κ ρ} {shown : ρ → M}
    (h : Shows entries rows key weight shown)
    (hnn : ∀ x e, entries.get? x = some e → 0 ≤ weight e) {x : ι} {e : η} {r : ρ}
    (hx : entries.get? x = some e) (hr : rows.get? (key e) = some r) :
    weight e ≤ shown r := by
  rw [h (key e) r hr]
  exact weight_le_total hnn hx

end Ordered

end Meter
