import Mathlib.Logic.Relation

/-! # Runs of a labelled system

    A system has initial states and a total step function for each label.  A
    run takes labels one after the other; `ok` says which labels a run may take
    in which state.  What holds initially and survives one step holds in every
    reachable state (`Reach.invariant`), and what survives one step survives a
    continuation of any length (`Steps.preserves`). -/

namespace Reachability

variable {σ ι : Type}

/-- Initial states and a step function for each label. -/
structure System (σ ι : Type) where
  init : σ → Prop
  step : ι → σ → σ

/-- The states some run of allowed labels reaches. -/
inductive Reach (S : System σ ι) (ok : ι → σ → Prop) : σ → Prop where
  | init {s : σ} : S.init s → Reach S ok s
  | step {s : σ} (i : ι) : Reach S ok s → ok i s → Reach S ok (S.step i s)

/-- A continuation of a run: `t` is reached from `s` by allowed labels. -/
inductive Steps (S : System σ ι) (ok : ι → σ → Prop) (s : σ) : σ → Prop where
  | refl : Steps S ok s s
  | step {t : σ} (i : ι) : Steps S ok s t → ok i t → Steps S ok s (S.step i t)

variable {S : System σ ι} {ok : ι → σ → Prop}

/-- **THE INVARIANT RULE.** -/
theorem Reach.invariant {I : σ → Prop} (hinit : ∀ s, S.init s → I s)
    (hstep : ∀ i s, I s → ok i s → I (S.step i s)) {s : σ}
    (h : Reach S ok s) : I s := by
  induction h with
  | init h0 => exact hinit _ h0
  | step i _ hok ih => exact hstep i _ ih hok

theorem Steps.preserves {I : σ → Prop} (hstep : ∀ i s, I s → ok i s → I (S.step i s)) {s t : σ}
    (h : Steps S ok s t) (hs : I s) : I t := by
  induction h with
  | refl => exact hs
  | step i _ hok ih => exact hstep i _ ih hok

/-- A continuation of a reachable state is reachable. -/
theorem Reach.steps {s t : σ} (hs : Reach S ok s) (h : Steps S ok s t) :
    Reach S ok t := by
  induction h with
  | refl => exact hs
  | step i _ hok ih => exact .step i ih hok

/-! ## Runs given as lists of labels -/

/-- The state a list of labels leads to. -/
def System.run (S : System σ ι) (labels : List ι) (s : σ) : σ :=
  labels.foldl (fun t i => S.step i t) s

/-- Every label of the list is allowed where it is taken. -/
def Allowed (S : System σ ι) (ok : ι → σ → Prop) : List ι → σ → Prop
  | [], _ => True
  | i :: rest, s => ok i s ∧ Allowed S ok rest (S.step i s)

instance decidableAllowed [∀ i s, Decidable (ok i s)] :
    ∀ labels s, Decidable (Allowed S ok labels s)
  | [], _ => isTrue trivial
  | _ :: labels, _ =>
    have := decidableAllowed labels
    inferInstanceAs (Decidable (_ ∧ _))

theorem Steps.run {s t : σ} : ∀ (labels : List ι), Steps S ok s t → Allowed S ok labels t →
      Steps S ok s (S.run labels t) := by
  intro labels
  induction labels generalizing t with
  | nil => exact fun h _ => h
  | cons i rest ih => exact fun h hok => ih (.step i h hok.1) hok.2

theorem Reach.run {s : σ} (labels : List ι) (h : Reach S ok s)
    (hok : Allowed S ok labels s) : Reach S ok (S.run labels s) :=
  h.steps (.run labels Steps.refl hok)

/-- A run whose labels are allowed everywhere. -/
theorem allowed_of_forall :
    ∀ (labels : List ι), (∀ i ∈ labels, ∀ s, ok i s) → ∀ s, Allowed S ok labels s := by
  intro labels
  induction labels with
  | nil => exact fun _ _ => trivial
  | cons i _ ih =>
    intro h s
    exact ⟨h i List.mem_cons_self s, ih (fun j hj => h j (List.mem_cons_of_mem i hj)) _⟩

end Reachability
