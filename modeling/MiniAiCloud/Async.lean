import MiniAiCloud.Table

/-! # Asynchronous programs

    A program awaits operations one after the other and goes on with the answer of each
    or with the exception it raised.  Between two operations others may run, so what a
    program keeps true is stated against what the others may do: `Safe rely guar` says
    that each of its operations keeps an invariant and stays within `guar`, while the
    others stay within `rely`.  `Pool` holds the programs in flight over one shared state,
    and `Pool.Sound` is the invariant of their interleavings. -/

namespace Async

open Table

/-- Operations, and the type of the answer to each. -/
structure Signature where
  Op : Type
  Answer : Op → Type

variable {S : Signature} {σ ε χ α β : Type}

/-- A step that may raise, and what follows it. -/
theorem except_bind_ok {x : Except ε α} {f : α → Except ε β} {b : β} :
    x >>= f = .ok b ↔ ∃ a, x = .ok a ∧ f a = .ok b := by
  cases x with
  | error e => exact ⟨fun h => (nomatch h), fun ⟨_, h, _⟩ => nomatch h⟩
  | ok a => exact ⟨fun h => ⟨a, rfl, h⟩, fun ⟨_, ha, h⟩ => Except.ok.inj ha ▸ h⟩

inductive Prog (S : Signature) (ε α : Type) where
  | done (result : Except ε α)
  | await (op : S.Op) (resume : Except ε (S.Answer op) → Prog S ε α)

namespace Prog

def bind : Prog S ε α → (α → Prog S ε β) → Prog S ε β
  | done (.ok a), f => f a
  | done (.error e), _ => done (.error e)
  | await op resume, f => await op (fun answer => (resume answer).bind f)

instance : Monad (Prog S ε) where
  pure a := done (.ok a)
  bind := bind

/-- Await one operation. -/
def call (op : S.Op) : Prog S ε (S.Answer op) := await op done

def raise (e : ε) : Prog S ε α := done (.error e)

/-- `if c: raise e`. -/
def raiseIf (c : Prop) [Decidable c] (e : ε) : Prog S ε Unit :=
  if c then raise e else pure ()

theorem raiseIf_bind_pos {c : Prop} [Decidable c] (hc : c) (e : ε) (rest : Unit → Prog S ε α) :
    (raiseIf c e >>= rest) = raise e := by
  rw [raiseIf, if_pos hc]
  rfl

theorem raiseIf_bind_neg {c : Prop} [Decidable c] (hc : ¬ c) (e : ε)
    (rest : Unit → Prog S ε α) : (raiseIf c e >>= rest) = rest () := by
  rw [raiseIf, if_neg hc]
  rfl

/-- `try: ... except (...) as e: ...`, for the exceptions that `handles` names. -/
def catching (handles : ε → Bool) (handler : ε → Prog S ε α) : Prog S ε α → Prog S ε α
  | done (.ok a) => done (.ok a)
  | done (.error e) => if handles e then handler e else done (.error e)
  | await op resume => await op (fun answer => (resume answer).catching handles handler)

/-- The program without its value. -/
def void (p : Prog S ε α) : Prog S ε Unit := p >>= fun _ => pure ()

end Prog

/-- What an operation does to the shared state; `choice` is what the outside decides. -/
structure Machine (S : Signature) (σ ε χ : Type) where
  exec : (choice : χ) → (op : S.Op) → σ → Except ε (S.Answer op) × σ

/-- One operation of a program. -/
def Prog.advance (M : Machine S σ ε χ) (choice : χ) : Prog S ε α → σ → Prog S ε α × σ
  | .done result, s => (.done result, s)
  | .await op resume, s =>
    let (answer, s') := M.exec choice op s
    (resume answer, s')

/-- A program that runs alone to its end, with the same choice throughout. -/
def Prog.run (M : Machine S σ ε χ) (choice : χ) : Prog S ε α → σ → Except ε α × σ
  | .done result, s => (result, s)
  | .await op resume, s =>
    let (answer, s') := M.exec choice op s
    (resume answer).run M choice s'

section Running

variable {M : Machine S σ ε χ} {choice : χ} {s t : σ}

/-- The second of two programs runs from where the first returned. -/
theorem Prog.run_bind_ok {p : Prog S ε α} {f : α → Prog S ε β} {a : α}
    (h : p.run M choice s = (.ok a, t)) : (p >>= f).run M choice s = (f a).run M choice t := by
  induction p generalizing s with
  | done =>
    cases h
    rfl
  | await _ _ ih => exact ih _ h

/-- An exception of the first ends both. -/
theorem Prog.run_bind_error {p : Prog S ε α} {f : α → Prog S ε β} {e : ε}
    (h : p.run M choice s = (.error e, t)) : (p >>= f).run M choice s = (.error e, t) := by
  induction p generalizing s with
  | done =>
    cases h
    rfl
  | await _ _ ih => exact ih _ h

theorem Prog.run_catching_ok {handles : ε → Bool} {handler : ε → Prog S ε α}
    {p : Prog S ε α} {a : α} (h : p.run M choice s = (.ok a, t)) :
    (p.catching handles handler).run M choice s = (.ok a, t) := by
  induction p generalizing s with
  | done =>
    cases h
    rfl
  | await _ _ ih => exact ih _ h

/-- A handled exception runs its handler, any other leaves. -/
theorem Prog.run_catching_error {handles : ε → Bool} {handler : ε → Prog S ε α}
    {p : Prog S ε α} {e : ε} (h : p.run M choice s = (.error e, t)) :
    (p.catching handles handler).run M choice s
      = if handles e = true then (handler e).run M choice t else (.error e, t) := by
  induction p generalizing s with
  | done =>
    cases h
    show (if handles e = true then handler e else .done (.error e)).run M choice t = _
    split_ifs with hhandles
    · rfl
    · rfl
  | await _ _ ih => exact ih _ h

end Running

/-! ## What a program keeps true -/

section Safety

variable (M : Machine S σ ε χ) (inv : σ → Prop) (rely guar : σ → σ → Prop)

/-- Wherever the others leave the state, the next operation keeps the invariant and the
    guarantee; at the end `post` holds. -/
def Prog.Safe (post : Except ε α → σ → Prop) : Prog S ε α → σ → Prop
  | .done result, s => post result s
  | .await op resume, s => ∀ t, rely s t → inv t → ∀ choice,
      inv (M.exec choice op t).2 ∧ guar t (M.exec choice op t).2
        ∧ (resume (M.exec choice op t).1).Safe post (M.exec choice op t).2

variable {M inv rely guar}

theorem Prog.Safe.mono {post post' : Except ε α → σ → Prop} {p : Prog S ε α} {s : σ}
    (h : p.Safe M inv rely guar post s) (hpost : ∀ result t, post result t → post' result t) :
    p.Safe M inv rely guar post' s := by
  induction p generalizing s with
  | done result => exact hpost result s h
  | await _ _ ih =>
    intro t ht hinv choice
    obtain ⟨hkeeps, hguar, hr⟩ := h t ht hinv choice
    exact ⟨hkeeps, hguar, ih _ hr⟩

/-- What holds if the program returns. -/
def returns (next : α → σ → Prop) : Except ε α → σ → Prop
  | .ok a, s => next a s
  | .error _, _ => True

/-- What has to hold after the first of two programs. -/
def onOk (next : α → σ → Prop) (post : Except ε β → σ → Prop) : Except ε α → σ → Prop
  | .ok a, s => next a s
  | .error e, s => post (.error e) s

/-- What has to hold after a program whose exceptions are handled. -/
def onError (handles : ε → Bool) (next : ε → σ → Prop) (post : Except ε α → σ → Prop) :
    Except ε α → σ → Prop
  | .ok a, s => post (.ok a) s
  | .error e, s => if handles e = true then next e s else post (.error e) s

/-- **SEQUENCING**. -/
theorem Prog.safe_bind {post : Except ε β → σ → Prop} {p : Prog S ε α} {f : α → Prog S ε β}
    {s : σ} (h : p.Safe M inv rely guar (onOk (fun a => (f a).Safe M inv rely guar post) post) s) :
    (p >>= f).Safe M inv rely guar post s := by
  induction p generalizing s with
  | done result =>
    cases result with
    | ok => exact h
    | error => exact h
  | await _ _ ih =>
    intro t ht hinv choice
    obtain ⟨hkeeps, hguar, hr⟩ := h t ht hinv choice
    exact ⟨hkeeps, hguar, ih _ hr⟩

/-- The second program goes on where the first has returned. -/
theorem Prog.Safe.then {first : Except ε α → σ → Prop} {post : Except ε β → σ → Prop}
    {p : Prog S ε α} {f : α → Prog S ε β} {s : σ} (h : p.Safe M inv rely guar first s)
    (herror : ∀ e t, first (.error e) t → post (.error e) t)
    (hok : ∀ a t, first (.ok a) t → (f a).Safe M inv rely guar post t) :
    (p >>= f).Safe M inv rely guar post s := by
  refine safe_bind (h.mono fun result t hafter => ?_)
  cases result with
  | ok a => exact hok a t hafter
  | error e => exact herror e t hafter

/-- **EXCEPTIONS**. -/
theorem Prog.safe_catching {post : Except ε α → σ → Prop} {handles : ε → Bool}
    {handler : ε → Prog S ε α} {p : Prog S ε α} {s : σ}
    (h : p.Safe M inv rely guar
      (onError handles (fun e => (handler e).Safe M inv rely guar post) post) s) :
    (p.catching handles handler).Safe M inv rely guar post s := by
  induction p generalizing s with
  | done result =>
    cases result with
    | ok => exact h
    | error =>
      rw [Prog.catching]
      rw [Prog.Safe, onError] at h
      split_ifs at h ⊢ with hhandles
      · exact h
      · exact h
  | await _ _ ih =>
    intro t ht hinv choice
    obtain ⟨hkeeps, hguar, hr⟩ := h t ht hinv choice
    exact ⟨hkeeps, hguar, ih _ hr⟩

/-- **GUARDS**. -/
theorem Prog.safe_raiseIf {post : Except ε α → σ → Prop} {c : Prop} [Decidable c] {e : ε}
    {rest : Unit → Prog S ε α} {s : σ} (herror : c → post (.error e) s)
    (hr : ¬ c → (rest ()).Safe M inv rely guar post s) :
    (Prog.raiseIf c e >>= rest).Safe M inv rely guar post s := by
  by_cases hc : c
  · rw [raiseIf_bind_pos hc]
    exact herror hc
  · rw [raiseIf_bind_neg hc]
    exact hr hc

/-- The others may go on before the program does. -/
theorem Prog.Safe.later (htrans : ∀ s t u, rely s t → rely t u → rely s u)
    {p : Prog S ε α} {s t : σ} (h : p.Safe M inv rely guar (fun _ _ => True) s)
    (ht : rely s t) : p.Safe M inv rely guar (fun _ _ => True) t := by
  cases p with
  | done => trivial
  | await op resume => exact fun u hu => h u (htrans s t u ht hu)

end Safety

/-! ## Programs in flight -/

variable {Λ : Type}

/-- A shared state and the programs in flight over it, each with a label. -/
structure Pool (S : Signature) (σ ε Λ : Type) where
  shared : σ
  procs : Table ℕ (Λ × Prog S ε Unit)

namespace Pool

/-- Program `i` after a step: it goes on, unless it has ended. -/
def settle (pool : Pool S σ ε Λ) (i : ℕ) (label : Λ) : Prog S ε Unit × σ → Pool S σ ε Λ
  | (.done _, s) => ⟨s, pool.procs.erase i⟩
  | (.await op resume, s) => ⟨s, (pool.procs.erase i).insert i (label, .await op resume)⟩

/-- The program of a label makes its first step. -/
def start (M : Machine S σ ε χ) (prog : Λ → Prog S ε Unit) (i : ℕ) (label : Λ) (choice : χ)
    (pool : Pool S σ ε Λ) : Pool S σ ε Λ :=
  if pool.procs.get? i ≠ none then pool
  else pool.settle i label ((prog label).advance M choice pool.shared)

/-- A program in flight makes one step. -/
def advance (M : Machine S σ ε χ) (i : ℕ) (choice : χ) (pool : Pool S σ ε Λ) :
    Pool S σ ε Λ :=
  match pool.procs.get? i with
  | none => pool
  | some (label, p) => pool.settle i label (p.advance M choice pool.shared)

/-- A program stops where it is: its host has gone. -/
def abandon (i : ℕ) (pool : Pool S σ ε Λ) : Pool S σ ε Λ :=
  { pool with procs := pool.procs.erase i }

/-- A program with this label is in flight. -/
def InFlight (pool : Pool S σ ε Λ) (label : Λ) : Prop :=
  ∃ i p, pool.procs.get? i = some (label, p)

end Pool

/-- What the programs of each label may assume and have to keep. -/
structure Contract (Λ σ : Type) where
  inv : σ → Prop
  rely : Λ → σ → σ → Prop
  guar : Λ → σ → σ → Prop
  /-- What is true as long as a program with the label is in flight. -/
  knows : Λ → σ → Prop
  /-- The labels that may be in flight together. -/
  apart : Λ → Λ → Prop
  trans : ∀ l s t u, rely l s t → rely l t u → rely l s u
  apart_symm : ∀ l l', apart l l' → apart l' l
  shields : ∀ l l' s t, apart l l' → guar l s t → rely l' s t
  knows_rely : ∀ l s t, rely l s t → knows l s → knows l t
  knows_guar : ∀ l s t, guar l s t → knows l s → knows l t

/-- The invariant of the interleavings. -/
structure Pool.Sound (M : Machine S σ ε χ) (C : Contract Λ σ) (pool : Pool S σ ε Λ) :
    Prop where
  inv : C.inv pool.shared
  safe : ∀ i l p, pool.procs.get? i = some (l, p) →
    p.Safe M C.inv (C.rely l) (C.guar l) (fun _ _ => True) pool.shared
  knows : ∀ l, pool.InFlight l → C.knows l pool.shared
  apart : ∀ i j l l' p p', i ≠ j → pool.procs.get? i = some (l, p) →
    pool.procs.get? j = some (l', p') → C.apart l l'

section Interleaving

variable {M : Machine S σ ε χ} {C : Contract Λ σ} {pool : Pool S σ ε Λ}

theorem Pool.sound_empty {s : σ} (hinv : C.inv s) :
    (⟨s, .empty⟩ : Pool S σ ε Λ).Sound M C where
  inv := hinv
  safe _ _ _ h := nomatch h
  knows _ := fun ⟨_, _, h⟩ => nomatch h
  apart _ _ _ _ _ _ _ h := nomatch h

/-- Something outside the pool changes the state. -/
theorem Pool.Sound.outside (h : pool.Sound M C) {t : σ} (hinv : C.inv t)
    (hrely : ∀ l, pool.InFlight l → C.rely l pool.shared t) :
    ({ pool with shared := t } : Pool S σ ε Λ).Sound M C where
  inv := hinv
  safe i l p hp := (h.safe i l p hp).later (C.trans l) (hrely l ⟨i, p, hp⟩)
  knows l hl := C.knows_rely l _ _ (hrely l hl) (h.knows l hl)
  apart := h.apart

theorem Pool.Sound.abandon (h : pool.Sound M C) (i : ℕ) : (pool.abandon i).Sound M C where
  inv := h.inv
  safe j l p hp := h.safe j l p (get?_erase.mp hp).1
  knows l := fun ⟨j, p, hp⟩ => h.knows l ⟨j, p, (get?_erase.mp hp).1⟩
  apart j k l l' p p' hne hp hp' :=
    h.apart j k l l' p p' hne (get?_erase.mp hp).1 (get?_erase.mp hp').1

/-- The others, after program `i` made a step within its guarantee. -/
theorem Pool.Sound.others (h : pool.Sound M C) {i : ℕ} {l : Λ} {p : Prog S ε Unit} {t : σ}
    (hp : pool.procs.get? i = some (l, p)) (hinv : C.inv t) (hguar : C.guar l pool.shared t) :
    (⟨t, pool.procs.erase i⟩ : Pool S σ ε Λ).Sound M C := by
  refine (h.abandon i).outside hinv ?_
  rintro l' ⟨j, p', hp'⟩
  obtain ⟨hget, hne⟩ := get?_erase.mp hp'
  exact C.shields l l' _ _ (h.apart i j l l' p p' (Ne.symm hne) hp hget) hguar

/-- A program goes on beside the others. -/
theorem Pool.Sound.settle {i : ℕ} {l : Λ} {p : Prog S ε Unit} {t : σ}
    (h : (⟨t, pool.procs.erase i⟩ : Pool S σ ε Λ).Sound M C)
    (hsafe : p.Safe M C.inv (C.rely l) (C.guar l) (fun _ _ => True) t)
    (hgoes : ∀ op resume, p = .await op resume → C.knows l t
      ∧ ∀ j l' p', j ≠ i → pool.procs.get? j = some (l', p') → C.apart l l') :
    (pool.settle i l (p, t)).Sound M C := by
  cases p with
  | done => exact h
  | await op resume =>
    obtain ⟨hknows, hapart⟩ := hgoes op resume rfl
    refine ⟨h.inv, ?_, ?_, ?_⟩
    · intro j l' p' hp'
      rcases get?_insert_cases hp' with ⟨_, heq⟩ | hold
      · cases heq
        exact hsafe
      · exact h.safe j l' p' hold
    · rintro l' ⟨j, p', hp'⟩
      rcases get?_insert_cases hp' with ⟨_, heq⟩ | hold
      · cases heq
        exact hknows
      · exact h.knows l' ⟨j, p', hold⟩
    · intro j k l₁ l₂ p₁ p₂ hne hp₁ hp₂
      rcases get?_insert_cases hp₁ with ⟨rfl, heq⟩ | hold₁
      · cases heq
        rcases get?_insert_cases hp₂ with ⟨rfl, _⟩ | hold₂
        · exact absurd rfl hne
        · exact hapart k l₂ p₂ (Ne.symm hne) (get?_erase.mp hold₂).1
      · rcases get?_insert_cases hp₂ with ⟨rfl, heq⟩ | hold₂
        · cases heq
          exact C.apart_symm _ _ (hapart j l₁ p₁ hne (get?_erase.mp hold₁).1)
        · exact h.apart j k l₁ l₂ p₁ p₂ hne hold₁ hold₂

/-- **ONE STEP OF ONE PROGRAM** keeps what the others rely on. -/
theorem Pool.Sound.advance (h : pool.Sound M C) (hrefl : ∀ l s, C.rely l s s) (i : ℕ)
    (choice : χ) : (pool.advance M i choice).Sound M C := by
  cases hent : pool.procs.get? i with
  | none =>
    rw [Pool.advance, hent]
    exact h
  | some entry =>
    obtain ⟨l, p⟩ := entry
    rw [Pool.advance, hent]
    have hoths : ∀ j l' p', j ≠ i → pool.procs.get? j = some (l', p') → C.apart l l' :=
      fun j l' p' hne hp' => h.apart i j l l' p p' (Ne.symm hne) hent hp'
    have hknows := h.knows l ⟨i, p, hent⟩
    cases p with
    | done => exact h.abandon i
    | await =>
      obtain ⟨hinv, hguar, hr⟩ := h.safe i l _ hent pool.shared (hrefl l _) h.inv choice
      exact (h.others hent hinv hguar).settle hr
        (fun _ _ _ => ⟨C.knows_guar l _ _ hguar hknows, hoths⟩)

/-- **A PROGRAM STARTS** beside programs it is apart from, or ends at once without an
    effect. -/
theorem Pool.Sound.start (h : pool.Sound M C) (hrefl : ∀ l s, C.rely l s s)
    {prog : Λ → Prog S ε Unit} (i : ℕ) (l : Λ) (choice : χ)
    (hsafe : (prog l).Safe M C.inv (C.rely l) (C.guar l) (fun _ _ => True) pool.shared)
    (hgoes : (∃ result, (prog l).advance M choice pool.shared = (.done result, pool.shared))
      ∨ (∀ l', pool.InFlight l' → C.apart l l')
        ∧ C.knows l ((prog l).advance M choice pool.shared).2) :
    (pool.start M prog i l choice).Sound M C := by
  rw [Pool.start]
  split_ifs with hfree
  · exact h
  · rcases hgoes with ⟨result, hended⟩ | ⟨hapart, hknows⟩
    · rw [hended]
      exact h.abandon i
    · cases hprog : prog l with
      | done => exact h.abandon i
      | await op =>
        rw [hprog] at hsafe hknows
        obtain ⟨hinv, hguar, hr⟩ := hsafe pool.shared (hrefl l _) h.inv choice
        have houtside : (⟨(M.exec choice op pool.shared).2, pool.procs.erase i⟩ :
            Pool S σ ε Λ).Sound M C :=
          (h.outside hinv (fun l' hl' => C.shields l l' _ _ (hapart l' hl') hguar)).abandon i
        refine houtside.settle hr ?_
        exact fun _ _ _ => ⟨hknows, fun j l' p' _ hp' => hapart l' ⟨j, p', hp'⟩⟩

end Interleaving

end Async
