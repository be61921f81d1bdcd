import MiniAiCloud.Table

/-! # Row locks

    Transactions that lock rows before they write.  A session holds the keys it locked
    and its work: what it read under the locks and is about to write.  A session opens
    only where nobody else holds its rows, so the rows of two sessions are disjoint
    (`Exclusive`), and what a session knows about its rows stays true while others
    write theirs (`Knows.frame`). -/

namespace RowLocks

open Table

variable {κ δ : Type}

/-- A transaction in flight: the rows it locked and its work. -/
structure Session (κ δ : Type) where
  rows : List κ
  work : δ

/-- The transactions in flight, by an identity of their own. -/
abbrev Sessions (κ δ : Type) := Table ℕ (Session κ δ)

/-- Nobody holds these rows. -/
def Free (sessions : Sessions κ δ) (rows : List κ) : Prop :=
  ∀ entry ∈ sessions.rows, ∀ k ∈ rows, k ∉ entry.2.rows

instance [DecidableEq κ] (sessions : Sessions κ δ) (rows : List κ) :
    Decidable (Free sessions rows) :=
  inferInstanceAs (Decidable (∀ entry ∈ sessions.rows, ∀ k ∈ rows, k ∉ entry.2.rows))

/-- No two sessions hold one row. -/
def Exclusive (sessions : Sessions κ δ) : Prop :=
  ∀ i j s t, sessions.get? i = some s → sessions.get? j = some t → i ≠ j →
    ∀ k ∈ s.rows, k ∉ t.rows

/-- What every session knows. -/
def Knows (P : Session κ δ → Prop) (sessions : Sessions κ δ) : Prop :=
  ∀ i s, sessions.get? i = some s → P s

variable {sessions : Sessions κ δ} {i : ℕ} {s : Session κ δ} {P Q : Session κ δ → Prop}

/-- A session opens on free rows. -/
theorem Exclusive.insert (h : Exclusive sessions) (hfree : Free sessions s.rows) :
    Exclusive (sessions.insert i s) := by
  intro j l t u ht hu hne k hk hk'
  rcases get?_insert_cases ht with ⟨rfl, rfl⟩ | ht'
  · rcases get?_insert_cases hu with ⟨rfl, _⟩ | hu'
    · exact hne rfl
    · exact hfree (l, u) (mem_rows.mpr hu') k hk hk'
  · rcases get?_insert_cases hu with ⟨_, rfl⟩ | hu'
    · exact hfree (j, t) (mem_rows.mpr ht') k hk' hk
    · exact h j l t u ht' hu' hne k hk hk'

/-- A session goes on with the same rows. -/
theorem Exclusive.set (h : Exclusive sessions) (hs : sessions.get? i = some s) {t : Session κ δ}
    (hrows : t.rows = s.rows) : Exclusive (sessions.set i t) := by
  intro j l u v hu hv hne k hk hk'
  rcases get?_set_cases hu with ⟨rfl, rfl⟩ | ⟨_, hu'⟩
  · rcases get?_set_cases hv with ⟨rfl, _⟩ | ⟨_, hv'⟩
    · exact hne rfl
    · rw [hrows] at hk
      exact h j l s v hs hv' hne k hk hk'
  · rcases get?_set_cases hv with ⟨rfl, rfl⟩ | ⟨_, hv'⟩
    · rw [hrows] at hk'
      exact h j l u s hu' hs hne k hk hk'
    · exact h j l u v hu' hv' hne k hk hk'

/-- A session ends. -/
theorem Exclusive.erase (h : Exclusive sessions) : Exclusive (sessions.erase i) := by
  intro j l t u ht hu
  exact h j l t u (get?_erase.mp ht).1 (get?_erase.mp hu).1

variable (h : Knows P sessions)

include h

theorem Knows.insert (hs : P s) : Knows P (sessions.insert i s) := by
  intro j t ht
  rcases get?_insert_cases ht with ⟨_, rfl⟩ | ht'
  · exact hs
  · exact h j t ht'

theorem Knows.set (hs : P s) : Knows P (sessions.set i s) := by
  intro j t ht
  rcases get?_set_cases ht with ⟨_, rfl⟩ | ⟨_, ht'⟩
  · exact hs
  · exact h j t ht'

theorem Knows.erase : Knows P (sessions.erase i) := by
  intro j t ht
  exact h j t (get?_erase.mp ht).1

/-- **THE FRAME RULE**: a session that ends has touched its own rows only, so what the
    others know of theirs is still true. -/
theorem Knows.frame (hexclusive : Exclusive sessions) (hs : sessions.get? i = some s)
    (hframe : ∀ t : Session κ δ, (∀ k ∈ t.rows, k ∉ s.rows) → P t → Q t) :
    Knows Q (sessions.erase i) := by
  intro j t ht
  obtain ⟨hget, hne⟩ := get?_erase.mp ht
  exact hframe t (hexclusive j i t s hget hs hne) (h j t hget)

end RowLocks
