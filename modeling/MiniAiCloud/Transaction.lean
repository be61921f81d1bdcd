import Mathlib.Logic.Basic

/-! # Transactions: exceptions over a mutable store

    A transaction body is an `EStateM` computation.  A raised exception keeps
    the store as it was at the raise, which is what an ORM session does: only
    the enclosing transaction (`commit`) throws the changes away.

    Bodies are taken apart with the inversion lemmas (`bind_ok`, `raiseIf_ok`,
    ...): a body that returned went through every guard.  What a body can raise
    is said with `RaisesOnly` and composed with `RaisesOnly.bind`. -/

namespace Transaction

variable {ε σ α β : Type}
variable {m x handler : EStateM ε σ α} {s s' : σ} {f : α → EStateM ε σ β} {e : ε} {P : ε → Prop}
  {R : σ → σ → Prop} {handles : ε → Bool} {c : Prop} {a : α}

/-- `if c: raise e`. -/
def raiseIf (c : Prop) [Decidable c] (e : ε) : EStateM ε σ Unit :=
  if c then throw e else pure ()

/-- The value, or raise `e` where there is none. -/
def expect (o : Option α) (e : ε) : EStateM ε σ α :=
  match o with
  | some a => pure a
  | none => throw e

/-- `try: m  except E: handler`, for the exceptions `E` that `handles` accepts.
    What `m` wrote before it raised stays written. -/
def catching (handles : ε → Bool) (m handler : EStateM ε σ α) :
    EStateM ε σ α := fun s =>
  match m s with
  | .ok a s' => .ok a s'
  | .error e s' => if handles e = true then handler s' else .error e s'

/-- Run a body as one transaction: an exception rolls every change back. -/
def commit (m : EStateM ε σ α) (s : σ) : σ :=
  match m s with
  | .ok _ s' => s'
  | .error _ _ => s

/-- The store a body leaves, also when it raises. -/
def leaves (m : EStateM ε σ α) (s : σ) : σ :=
  match m s with
  | .ok _ s' => s'
  | .error _ s' => s'

/-- The value a body returns, if it returns. -/
def returned (m : EStateM ε σ α) (s : σ) : Option α :=
  match m s with
  | .ok a _ => some a
  | .error _ _ => none

/-- The exception a body raises, if it raises. -/
def raised (m : EStateM ε σ α) (s : σ) : Option ε :=
  match m s with
  | .ok _ _ => none
  | .error e _ => some e

/-- Run a body and drop what it returns. -/
abbrev void (m : EStateM ε σ α) : EStateM ε σ Unit := do
  let _ ← m

/-! ## Inversion -/

theorem bind_ok {s'' : σ} {b : β} : (x >>= f) s = .ok b s''
      ↔ ∃ a s', x s = .ok a s' ∧ f a s' = .ok b s'' := by
  show EStateM.bind x f s = .ok b s'' ↔ _
  unfold EStateM.bind
  cases hx : x s with
  | ok a s' =>
    constructor
    · intro h
      exact ⟨a, s', rfl, h⟩
    · rintro ⟨_, _, heq, h⟩
      cases heq
      exact h
  | error =>
    constructor
    · intro h
      exact nomatch h
    · rintro ⟨_, _, heq, -⟩
      exact nomatch heq

theorem bind_error {s'' : σ} : (x >>= f) s = .error e s'' ↔ x s = .error e s''
        ∨ ∃ a s', x s = .ok a s' ∧ f a s' = .error e s'' := by
  show EStateM.bind x f s = .error e s'' ↔ _
  unfold EStateM.bind
  cases hx : x s with
  | ok a s' =>
    constructor
    · intro h
      exact .inr ⟨a, s', rfl, h⟩
    · rintro (h | ⟨_, _, heq, h⟩)
      · exact nomatch h
      · cases heq
        exact h
  | error =>
    constructor
    · intro h
      cases h
      exact .inl rfl
    · rintro (h | ⟨_, _, heq, -⟩)
      · cases h
        rfl
      · exact nomatch heq

theorem bind_of_ok (h : x s = .ok a s') : (x >>= f) s = f a s' := by
  show EStateM.bind x f s = f a s'
  unfold EStateM.bind
  rw [h]

theorem bind_of_error (h : x s = .error e s') : (x >>= f) s = .error e s' := by
  show EStateM.bind x f s = .error e s'
  unfold EStateM.bind
  rw [h]

theorem pure_ok {b : α} :
    (pure a : EStateM ε σ α) s = .ok b s' ↔ a = b ∧ s = s' := by
  show EStateM.Result.ok a s = .ok b s' ↔ _
  constructor
  · intro h
    cases h
    exact ⟨rfl, rfl⟩
  · rintro ⟨rfl, rfl⟩
    rfl

theorem pure_error : ¬ (pure a : EStateM ε σ α) s = .error e s' := nofun

theorem throw_ok : ¬ (throw e : EStateM ε σ α) s = .ok a s' := nofun

theorem throw_error {e' : ε} :
    (throw e : EStateM ε σ α) s = .error e' s' ↔ e = e' ∧ s = s' := by
  show EStateM.Result.error e s = .error e' s' ↔ _
  constructor
  · intro h
    cases h
    exact ⟨rfl, rfl⟩
  · rintro ⟨rfl, rfl⟩
    rfl

theorem get_ok {a : σ} :
    (get : EStateM ε σ σ) s = .ok a s' ↔ a = s ∧ s' = s := by
  show EStateM.Result.ok s s = .ok a s' ↔ _
  constructor
  · intro h
    cases h
    exact ⟨rfl, rfl⟩
  · rintro ⟨rfl, rfl⟩
    rfl

/-- A body that first reads the store. -/
theorem bind_get (f : σ → EStateM ε σ β) (s : σ) : ((get : EStateM ε σ σ) >>= f) s = f s s := rfl

theorem get_error : ¬ (get : EStateM ε σ σ) s = .error e s' := nofun

theorem modify_error {f : σ → σ} : ¬ (modify f : EStateM ε σ PUnit) s = .error e s' := nofun

theorem modify_ok {f : σ → σ} {u : PUnit} :
    (modify f : EStateM ε σ PUnit) s = .ok u s' ↔ s' = f s := by
  show EStateM.Result.ok PUnit.unit (f s) = .ok u s' ↔ _
  constructor
  · intro h
    cases h
    rfl
  · rintro rfl
    rfl

theorem raiseIf_ok [Decidable c] {u : Unit} :
    (raiseIf c e : EStateM ε σ Unit) s = .ok u s' ↔ ¬ c ∧ s' = s := by
  unfold raiseIf
  by_cases hc : c
  · rw [if_pos hc]
    exact ⟨fun h => absurd h throw_ok, fun h => absurd hc h.1⟩
  · rw [if_neg hc, pure_ok]
    exact ⟨fun h => ⟨hc, h.2.symm⟩, fun h => ⟨rfl, h.2.symm⟩⟩

theorem raiseIf_error [Decidable c] {e' : ε} : (raiseIf c e : EStateM ε σ Unit) s = .error e' s'
      ↔ c ∧ e = e' ∧ s = s' := by
  unfold raiseIf
  by_cases hc : c
  · rw [if_pos hc, throw_error]
    exact ⟨fun h => ⟨hc, h⟩, fun h => h.2⟩
  · rw [if_neg hc]
    exact ⟨fun h => absurd h pure_error, fun h => absurd h.1 hc⟩

theorem raiseIf_neg [Decidable c] (hc : ¬ c) (s : σ) :
    (raiseIf c e : EStateM ε σ Unit) s = .ok () s :=
  raiseIf_ok.mpr ⟨hc, rfl⟩

theorem expect_ok {o : Option α} :
    (expect o e : EStateM ε σ α) s = .ok a s' ↔ o = some a ∧ s' = s := by
  cases o with
  | none => exact ⟨fun h => absurd h throw_ok, fun h => nomatch h.1⟩
  | some b =>
    show (pure b : EStateM ε σ α) s = .ok a s' ↔ _
    rw [pure_ok]
    exact ⟨fun h => ⟨congrArg some h.1, h.2.symm⟩, fun h => ⟨Option.some.inj h.1, h.2.symm⟩⟩

theorem raise_ok [Decidable c] {b : β} {f : Unit → EStateM ε σ β} :
    (raiseIf c e >>= f) s = .ok b s' ↔ ¬ c ∧ f () s = .ok b s' := by
  simp only [bind_ok, raiseIf_ok]
  constructor
  · rintro ⟨_, _, ⟨hc, rfl⟩, h⟩
    exact ⟨hc, h⟩
  · rintro ⟨hc, h⟩
    exact ⟨(), s, ⟨hc, rfl⟩, h⟩

theorem bind_expect {o : Option α} {b : β} :
    (expect o e >>= f) s = .ok b s' ↔ ∃ a, o = some a ∧ f a s = .ok b s' := by
  simp only [bind_ok, expect_ok]
  constructor
  · rintro ⟨a, _, ⟨ho, rfl⟩, h⟩
    exact ⟨a, ho, h⟩
  · rintro ⟨a, ho, h⟩
    exact ⟨a, s, ⟨ho, rfl⟩, h⟩

theorem expect_error {o : Option α} {e' : ε} : (expect o e : EStateM ε σ α) s = .error e' s'
      ↔ o = none ∧ e = e' ∧ s = s' := by
  cases o with
  | none =>
    show (throw e : EStateM ε σ α) s = .error e' s' ↔ _
    rw [throw_error]
    exact ⟨fun h => ⟨rfl, h⟩, fun h => h.2⟩
  | some b => exact ⟨fun h => absurd h pure_error, fun h => nomatch h.1⟩

theorem catching_cases {result : EStateM.Result ε σ α} (h : catching handles m handler s = result) :
    m s = result
      ∨ ∃ e s', m s = .error e s' ∧ handles e = true ∧ handler s' = result := by
  unfold catching at h
  cases hm : m s with
  | ok =>
    rw [hm] at h
    exact .inl h
  | error e s' =>
    rw [hm] at h
    dsimp only at h
    by_cases he : handles e = true
    · rw [if_pos he] at h
      exact .inr ⟨e, s', rfl, he, h⟩
    · rw [if_neg he] at h
      exact .inl h

/-- What leaves a `try` is not handled, or raised by the handler. -/
theorem catching_error (h : catching handles m handler s = .error e s') :
    (m s = .error e s' ∧ handles e ≠ true) ∨ ∃ mid, handler mid = .error e s' := by
  rw [catching] at h
  cases hm : m s with
  | ok =>
    rw [hm] at h
    cases h
  | error e' mid =>
    simp only [hm] at h
    by_cases hhnd : handles e' = true
    · rw [if_pos hhnd] at h
      exact .inr ⟨mid, h⟩
    · rw [if_neg hhnd] at h
      cases h
      exact .inl ⟨rfl, hhnd⟩

theorem returned_eq_some :
    returned m s = some a ↔ ∃ s', m s = .ok a s' := by
  rw [returned]
  cases m s with
  | ok b s' =>
    constructor
    · intro h
      exact ⟨s', by rw [Option.some.inj h]⟩
    · rintro ⟨t, h⟩
      cases h
      rfl
  | error =>
    constructor
    · intro h
      cases h
    · rintro ⟨_, h⟩
      cases h

/-- A body that never returns leaves nothing behind. -/
theorem commit_of_raises (h : ∀ a s', m s ≠ .ok a s') :
    returned m s = none ∧ commit m s = s := by
  rw [returned, commit]
  cases hm : m s with
  | ok a s' => exact absurd hm (h a s')
  | error => exact ⟨rfl, rfl⟩

theorem raised_eq_some :
    raised m s = some e ↔ ∃ s', m s = .error e s' := by
  rw [raised]
  cases m s with
  | ok =>
    constructor
    · intro h
      cases h
    · rintro ⟨_, h⟩
      cases h
  | error _ s' =>
    constructor
    · intro h
      exact ⟨s', by rw [Option.some.inj h]⟩
    · rintro ⟨t, h⟩
      cases h
      rfl

/-- Inversion of a call whose result is dropped. -/
theorem void_ok {u : Unit} (h : void m s = .ok u s') : ∃ a, m s = .ok a s' := by
  obtain ⟨a, _, hm, hp⟩ := bind_ok.mp h
  rw [← (pure_ok.mp hp).2]
  exact ⟨a, hm⟩

theorem void_elim {u : Unit} {C : Prop} (h : void m s = .ok u s')
    (hm : ∀ a, m s = .ok a s' → C) : C :=
  let ⟨a, ha⟩ := void_ok h
  hm a ha

theorem void_returns (h : ∀ a s', m s ≠ .ok a s') (u : Unit) (s' : σ) : void m s ≠ .ok u s' := by
  intro hok
  obtain ⟨a, ha⟩ := void_ok hok
  exact h a s' ha

theorem void_error (h : void m s = .error e s') :
    m s = .error e s' := by
  rcases bind_error.mp h with hm | ⟨a, mid, -, hp⟩
  · exact hm
  · exact absurd hp pure_error

theorem commit_of_ok (h : m s = .ok a s') :
    commit m s = s' := by
  rw [commit, h]

theorem commit_of_error (h : m s = .error e s') :
    commit m s = s := by
  rw [commit, h]

theorem commit_void (m : EStateM ε σ α) (s : σ) : commit (void m) s = commit m s := by
  cases h : m s with
  | ok =>
    rw [commit_of_ok h]
    exact commit_of_ok (bind_of_ok h)
  | error =>
    rw [commit_of_error h]
    exact commit_of_error (bind_of_error h)

/-! ## What a body can raise -/

/-- Every exception of `m` satisfies `P`. -/
def RaisesOnly (P : ε → Prop) (m : EStateM ε σ α) : Prop :=
  ∀ s e s', m s = .error e s' → P e

theorem RaisesOnly.bind (hx : RaisesOnly P x) (hf : ∀ a, RaisesOnly P (f a)) :
    RaisesOnly P (x >>= f) := by
  intro s e s' h
  rcases bind_error.mp h with h1 | ⟨a, t, -, h2⟩
  · exact hx s e s' h1
  · exact hf a t e s' h2

theorem RaisesOnly.pure (a : α) : RaisesOnly P (pure a : EStateM ε σ α) :=
  fun _ _ _ h => absurd h pure_error

theorem RaisesOnly.get : RaisesOnly P (MonadState.get : EStateM ε σ σ) := fun _ _ _ h => nomatch h

theorem RaisesOnly.modify (f : σ → σ) : RaisesOnly P (modify f : EStateM ε σ PUnit) :=
  fun _ _ _ h => nomatch h

theorem RaisesOnly.raiseIf [Decidable c] (he : P e) :
    RaisesOnly P (Transaction.raiseIf c e : EStateM ε σ Unit) := by
  intro _ _ _ h
  rw [← (raiseIf_error.mp h).2.1]
  exact he

theorem RaisesOnly.expect {o : Option α} (he : P e) :
    RaisesOnly P (Transaction.expect o e : EStateM ε σ α) := by
  intro _ _ _ h
  rw [← (expect_error.mp h).2.1]
  exact he

theorem RaisesOnly.ite [Decidable c] {y : EStateM ε σ α} (hx : RaisesOnly P x)
    (hy : RaisesOnly P y) :
    RaisesOnly P (if c then x else y) := by
  by_cases hc : c
  · rw [if_pos hc]
    exact hx
  · rw [if_neg hc]
    exact hy

theorem RaisesOnly.catching (hm : RaisesOnly P m) (hh : RaisesOnly P handler) :
    RaisesOnly P (Transaction.catching handles m handler) := by
  intro s e s' h
  rcases catching_error h with ⟨hrsd, _⟩ | ⟨mid, hhdr⟩
  · exact hm s e s' hrsd
  · exact hh mid e s' hhdr

/-! ## What a body can change -/

/-- Whatever `m` does, returning or raising, the store moves along `R`. -/
def Moves (R : σ → σ → Prop) (m : EStateM ε σ α) : Prop :=
  ∀ s, R s (leaves m s)

theorem Moves.of_ok (h : Moves R m) (hm : m s = .ok a s') : R s s' := by
  have h0 := h s
  unfold leaves at h0
  rw [hm] at h0
  exact h0

theorem Moves.of_error (h : Moves R m) (hm : m s = .error e s') : R s s' := by
  have h0 := h s
  unfold leaves at h0
  rw [hm] at h0
  exact h0

theorem Moves.bind (htrans : ∀ a b c, R a b → R b c → R a c) (hx : Moves R x)
    (hf : ∀ a, Moves R (f a)) :
    Moves R (x >>= f) := by
  intro s
  unfold leaves
  cases hxs : x s with
  | ok a s' =>
    rw [bind_of_ok hxs]
    exact htrans _ _ _ (hx.of_ok hxs) (hf a s')
  | error =>
    rw [bind_of_error hxs]
    exact hx.of_error hxs

theorem Moves.of_result (hok : ∀ s a s', m s = .ok a s' → R s s')
    (herror : ∀ s e s', m s = .error e s' → R s s') : Moves R m := by
  intro s
  unfold leaves
  cases hm : m s with
  | ok a s' => exact hok s a s' hm
  | error e s' => exact herror s e s' hm

theorem Moves.catching (htrans : ∀ a b c, R a b → R b c → R a c) (hm : Moves R m)
    (hh : Moves R handler) :
    Moves R (catching handles m handler) := by
  refine Moves.of_result ?_ ?_
  · intro _ _ _ h
    rcases catching_cases h with h1 | ⟨e, mid, h1, -, h2⟩
    · exact hm.of_ok h1
    · exact htrans _ _ _ (hm.of_error h1) (hh.of_ok h2)
  · intro _ _ _ h
    rcases catching_cases h with h1 | ⟨e', mid, h1, -, h2⟩
    · exact hm.of_error h1
    · exact htrans _ _ _ (hm.of_error h1) (hh.of_error h2)

/-- `m` leaves the store as it found it, returning or raising. -/
def Reads (m : EStateM ε σ α) : Prop := ∀ s, leaves m s = s

theorem Reads.pure (a : α) : Reads (pure a : EStateM ε σ α) := fun _ => rfl

theorem Reads.throw (e : ε) : Reads (throw e : EStateM ε σ α) := fun _ => rfl

theorem Reads.get : Reads (MonadState.get : EStateM ε σ σ) := fun _ => rfl

theorem Reads.raiseIf (c : Prop) [Decidable c] (e : ε) :
    Reads (raiseIf c e : EStateM ε σ Unit) := by
  intro s
  unfold Transaction.raiseIf
  by_cases hc : c
  · rw [if_pos hc]
    rfl
  · rw [if_neg hc]
    rfl

theorem Reads.expect (o : Option α) (e : ε) :
    Reads (expect o e : EStateM ε σ α) := by
  intro s
  cases o with
  | none | some a => rfl

theorem Moves.of_reads (hrefl : ∀ s, R s s) (h : Reads m) : Moves R m := by
  intro s
  rw [h s]
  exact hrefl s

theorem Reads.of_ok (h : Reads m) (hm : m s = .ok a s') : s' = s := by
  have h0 := h s
  unfold leaves at h0
  rw [hm] at h0
  exact h0

theorem Reads.of_error (h : Reads m) (hm : m s = .error e s') : s' = s := by
  have h0 := h s
  unfold leaves at h0
  rw [hm] at h0
  exact h0

theorem Reads.bind (hx : Reads x) (hf : ∀ a, Reads (f a)) : Reads (x >>= f) :=
  fun s => Moves.bind (fun a b c (h : b = a) (h' : c = b) => h'.trans h)
    hx hf s

/-- A check before the rest. -/
theorem Reads.check [Decidable c] {f : Unit → EStateM ε σ α} (h : Reads (f ())) :
    Reads (Transaction.raiseIf c e >>= f) :=
  (Reads.raiseIf c e).bind fun _ => h

theorem Reads.ite [Decidable c] {y : EStateM ε σ α} (hx : Reads x) (hy : Reads y) :
    Reads (if c then x else y) := by
  by_cases hc : c
  · rw [if_pos hc]
    exact hx
  · rw [if_neg hc]
    exact hy

/-! ## A part of the store -/

/-- `m` leaves a part of the store as it found it. -/
def Keeps {τ : Type} (part : σ → τ) (m : EStateM ε σ α) : Prop :=
  Moves (fun s s' => part s' = part s) m

section Parts

variable {τ : Type} {part : σ → τ}

theorem Keeps.of_ok (h : Keeps part m) (hm : m s = .ok a s') : part s' = part s :=
  Moves.of_ok (R := fun s s' => part s' = part s) h hm

theorem Keeps.of_error (h : Keeps part m) (hm : m s = .error e s') : part s' = part s :=
  Moves.of_error (R := fun s s' => part s' = part s) h hm

theorem Keeps.of_reads (h : Reads m) : Keeps part m :=
  Moves.of_reads (R := fun s s' => part s' = part s) (fun _ => rfl) h

theorem Keeps.modify {f : σ → σ} (h : ∀ s, part (f s) = part s) :
    Keeps part (modify f : EStateM ε σ Unit) := h

theorem Keeps.bind (hx : Keeps part x) (hf : ∀ a, Keeps part (f a)) : Keeps part (x >>= f) :=
  Moves.bind (R := fun s s' => part s' = part s) (fun _ _ _ h h' => h'.trans h) hx hf

theorem Keeps.pure (a : α) : Keeps part (pure a : EStateM ε σ α) := .of_reads (.pure a)

theorem Keeps.get : Keeps part (MonadState.get : EStateM ε σ σ) := .of_reads .get

theorem Keeps.check [Decidable c] {f : Unit → EStateM ε σ α} (h : Keeps part (f ())) :
    Keeps part (Transaction.raiseIf c e >>= f) :=
  .bind (.of_reads (.raiseIf c e)) fun _ => h

theorem Keeps.ite [Decidable c] {y : EStateM ε σ α} (hx : Keeps part x) (hy : Keeps part y) :
    Keeps part (if c then x else y) := by
  by_cases hc : c
  · rw [if_pos hc]
    exact hx
  · rw [if_neg hc]
    exact hy

end Parts

end Transaction
