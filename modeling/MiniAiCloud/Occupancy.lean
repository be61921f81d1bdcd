import Mathlib.Data.List.Count
import Mathlib.Data.Int.Notation

/-! # Seats and the holds on them

    A seat opens, serves and closes for good.  It gets at most one owner over its
    life, and while it serves it counts the holds that users have on it.  Its manager
    moves it on (`Seat.Turns`); users take a hold on a seat that serves and give a
    hold back.  Under any interleaving of these moves the count of a serving seat is
    the number of outstanding holds of its owner, and a closed seat counts nothing
    (`Balanced`). -/

namespace Occupancy

open List

variable {κ ω ρ : Type}

/-- Where a seat is in its life; `ρ` says how it ended. -/
inductive Phase (ρ : Type) where
  | opening
  | serving
  | closed (outcome : ρ)
  deriving DecidableEq

structure Seat (ω ρ : Type) where
  owner : Option ω
  phase : Phase ρ
  count : ℤ

variable {seats seats' a b c : κ → Option (Seat ω ρ)} {s t u : Seat ω ρ}
  {holds holds' : List (κ × ω)} {k : κ} {o : ω}

/-- A seat that was just set up. -/
def Seat.fresh : Seat ω ρ := ⟨none, .opening, 0⟩

/-- What outlives every move: the owner and the end. -/
structure Seat.Lasts (s s' : Seat ω ρ) : Prop where
  owner : ∀ o, s.owner = some o → s'.owner = some o
  closed : ∀ outcome, s.phase = .closed outcome → s' = s

/-- A move of the manager.  The count of a serving seat is left alone until the seat
    closes; before that it may be reset. -/
structure Seat.Turns (s s' : Seat ω ρ) : Prop extends Seat.Lasts s s' where
  opening : s'.phase = .opening → s.phase = .opening
  count : s'.count = s.count ∨ s'.count = 0
  kept : s.phase = .serving → s'.phase = .serving → s'.count = s.count
  cleared : ∀ outcome, s.phase = .serving → s'.phase = .closed outcome → s'.count = 0

theorem Seat.Lasts.refl (s : Seat ω ρ) : s.Lasts s := ⟨fun _ h => h, fun _ _ => rfl⟩

theorem Seat.Lasts.trans (hst : s.Lasts t) (htu : t.Lasts u) :
    s.Lasts u := by
  refine ⟨fun o h => htu.owner o (hst.owner o h), fun outcome h => ?_⟩
  have hts : t = s := hst.closed outcome h
  rw [← hts] at h ⊢
  exact htu.closed outcome h

theorem Seat.Turns.refl (s : Seat ω ρ) : s.Turns s where
  toLasts := .refl s
  opening := fun h => h
  count := Or.inl rfl
  kept := fun _ _ => rfl
  cleared := fun outcome hs hc => by rw [hs] at hc; cases hc

/-- A serving seat that still serves after two moves served in between. -/
theorem Seat.Turns.trans (hst : s.Turns t) (htu : t.Turns u) :
    s.Turns u where
  toLasts := hst.toLasts.trans htu.toLasts
  opening := fun h => hst.opening (htu.opening h)
  count := by
    rcases htu.count with h | h
    · rw [h]
      exact hst.count
    · exact .inr h
  kept := by
    intro hs hu
    cases ht : t.phase with
    | opening =>
      rw [hst.opening ht] at hs
      cases hs
    | serving => rw [htu.kept ht hu, hst.kept hs ht]
    | closed outcome =>
      rw [htu.closed outcome ht, ht] at hu
      cases hu
  cleared := by
    intro outcome hs hu
    cases ht : t.phase with
    | opening =>
      rw [hst.opening ht] at hs
      cases hs
    | serving => exact htu.cleared outcome ht hu
    | closed outcome' =>
      rw [htu.closed outcome' ht]
      exact hst.cleared outcome' hs ht

/-- A seat that is still opening may get any phase. -/
theorem Seat.turns_of_opening (h : s.phase = .opening) (phase : Phase ρ) :
    s.Turns { s with phase := phase } where
  owner := fun _ ho => ho
  closed := fun outcome hc => by rw [h] at hc; cases hc
  opening := fun _ => h
  count := Or.inl rfl
  kept := fun _ _ => rfl
  cleared := fun outcome hs _ => by rw [h] at hs; cases hs

/-- Any seat may keep its phase. -/
theorem Seat.turns_in_place {phase : Phase ρ} (h : s.phase = phase) :
    s.Turns { s with phase := phase } := by
  rw [← h]
  exact .refl s

/-- A seat that is still opening may get an owner, or the same one again. -/
theorem Seat.turns_to_owner (h : s.phase = .opening)
    (hown : s.owner = none ∨ s.owner = some o) : s.Turns ⟨some o, .opening, 0⟩ where
  owner := by
    intro p hp
    rcases hown with hn | hsome
    · rw [hn] at hp
      cases hp
    · rw [← hsome, hp]
  closed := fun outcome hc => by rw [h] at hc; cases hc
  opening := fun _ => h
  count := Or.inr rfl
  kept := fun _ hs => by cases hs
  cleared := fun outcome _ hc => by cases hc

/-- A seat that has not closed may close. -/
theorem Seat.turns_to_closed (h : ∀ outcome, s.phase ≠ .closed outcome) (outcome : ρ) :
    s.Turns { s with phase := .closed outcome, count := 0 } where
  owner := fun _ ho => ho
  closed := fun outcome' hc => absurd hc (h outcome')
  opening := fun ho => by cases ho
  count := Or.inr rfl
  kept := fun _ hs => by cases hs
  cleared := fun _ _ _ => rfl

/-! ## A whole house of seats -/

/-- Every seat makes a move of its manager, and no seat is added. -/
structure Moved (seats seats' : κ → Option (Seat ω ρ)) : Prop where
  old : ∀ k s, seats k = some s → ∃ s', seats' k = some s' ∧ s.Turns s'
  none : ∀ k, seats k = none → seats' k = none

/-- Fresh seats are added. -/
structure Added (seats seats' : κ → Option (Seat ω ρ)) : Prop where
  old : ∀ k s, seats k = some s → seats' k = some s
  new : ∀ k s, seats k = none → seats' k = some s → s = .fresh

/-- Every seat makes a move of its manager, and new seats are fresh. -/
structure Turned (seats seats' : κ → Option (Seat ω ρ)) : Prop where
  old : ∀ k s, seats k = some s → ∃ s', seats' k = some s' ∧ s.Turns s'
  new : ∀ k s, seats k = none → seats' k = some s → s = .fresh

theorem Added.turned (h : Added seats seats') : Turned seats seats' where
  old := fun k s hs => ⟨s, h.old k s hs, .refl s⟩
  new := h.new

theorem Turned.refl (seats : κ → Option (Seat ω ρ)) : Turned seats seats where
  old := fun _ s h => ⟨s, h, .refl s⟩
  new := fun k s hn hsome => by rw [hn] at hsome; cases hsome

theorem Moved.trans (hab : Moved a b) (hbc : Turned b c) :
    Turned a c where
  old := by
    intro k s hs
    obtain ⟨s', hs', hturn⟩ := hab.old k s hs
    obtain ⟨s'', hs'', hturn'⟩ := hbc.old k s' hs'
    exact ⟨s'', hs'', hturn.trans hturn'⟩
  new := fun k s ha hc => hbc.new k s (hab.none k ha) hc

/-- One seat gets another count; its owner and its phase stay. -/
structure Recounted (seats seats' : κ → Option (Seat ω ρ)) (k : κ) (s : Seat ω ρ)
    (count : ℤ) : Prop where
  here : seats k = some s
  there : seats' k = some { s with count := count }
  others : ∀ j, j ≠ k → seats' j = seats j

/-- Every seat lasts. -/
def Lasting (seats seats' : κ → Option (Seat ω ρ)) : Prop :=
  ∀ k s, seats k = some s → ∃ s', seats' k = some s' ∧ s.Lasts s'

theorem Lasting.refl (seats : κ → Option (Seat ω ρ)) : Lasting seats seats :=
  fun _ s h => ⟨s, h, .refl s⟩

theorem Lasting.trans (hab : Lasting a b) (hbc : Lasting b c) : Lasting a c := by
  intro k s hs
  obtain ⟨s', hs', hlasts⟩ := hab k s hs
  obtain ⟨s'', hs'', hlasts'⟩ := hbc k s' hs'
  exact ⟨s'', hs'', hlasts.trans hlasts'⟩

theorem Turned.lasting (h : Turned seats seats') :
    Lasting seats seats' := by
  intro k s hs
  obtain ⟨s', hs', hturn⟩ := h.old k s hs
  exact ⟨s', hs', hturn.toLasts⟩

theorem Recounted.lasting [DecidableEq κ] {count : ℤ} (h : Recounted seats seats' k s count)
    (hsrvg : s.phase = .serving) : Lasting seats seats' := by
  intro j t ht
  by_cases hj : j = k
  · subst hj
    rw [h.here] at ht
    cases ht
    refine ⟨_, h.there, fun _ ho => ho, fun outcome hc => ?_⟩
    rw [hsrvg] at hc
    cases hc
  · exact ⟨t, (h.others j hj).trans ht, .refl t⟩

section Holds

variable [DecidableEq κ] [DecidableEq ω]

/-- The holds of its owner on a seat. -/
def outstanding (holds : List (κ × ω)) (k : κ) (s : Seat ω ρ) : ℤ :=
  match s.owner with
  | none => 0
  | some o => holds.count (k, o)

/-- The counts agree with the holds. -/
structure Balanced (seats : κ → Option (Seat ω ρ)) (holds : List (κ × ω)) : Prop where
  opening : ∀ k s, seats k = some s → s.phase = .opening →
    s.count = 0 ∧ ∀ o, (k, o) ∉ holds
  serving : ∀ k s, seats k = some s → s.phase = .serving →
    s.count = outstanding holds k s
  closed : ∀ k s outcome, seats k = some s → s.phase = .closed outcome → s.count = 0
  owned : ∀ k o, (k, o) ∈ holds → ∃ s, seats k = some s ∧ s.owner = some o

theorem outstanding_of_notMem (h : ∀ o, (k, o) ∉ holds) (s : Seat ω ρ) :
    outstanding holds k s = 0 := by
  cases hown : s.owner with
  | none => simp only [outstanding, hown]
  | some o =>
    simp only [outstanding, hown]
    exact_mod_cast count_eq_zero_of_not_mem (h o)

variable (h : Balanced seats holds)

include h

/-- A seat without an owner has no holds on it. -/
theorem Balanced.unheld (hs : seats k = some s)
    (hown : s.owner = none) (o : ω) : (k, o) ∉ holds := by
  intro hmem
  obtain ⟨_, hs', ho⟩ := h.owned k o hmem
  rw [hs] at hs'
  cases hs'
  rw [hown] at ho
  cases ho

/-- A key without a seat has no holds on it. -/
theorem Balanced.unheld_of_none (hn : seats k = none) (o : ω) :
    (k, o) ∉ holds := by
  intro hmem
  obtain ⟨s, hs, -⟩ := h.owned k o hmem
  rw [hn] at hs
  cases hs

/-- **MANAGERS KEEP THE BALANCE.** -/
theorem Balanced.turned (hturned : Turned seats seats') :
    Balanced seats' holds := by
  -- the seat before the move, or a fresh one
  have before : ∀ k s', seats' k = some s' →
      (∃ s, seats k = some s ∧ s.Turns s') ∨ seats k = none ∧ s' = .fresh := by
    intro k s' hs'
    cases hs : seats k with
    | none => exact .inr ⟨rfl, hturned.new k s' hs hs'⟩
    | some s =>
      obtain ⟨t, ht, hturn⟩ := hturned.old k s hs
      rw [hs'] at ht
      cases ht
      exact .inl ⟨s, rfl, hturn⟩
  refine ⟨?_, ?_, ?_, ?_⟩
  · intro k s' hs' hphase
    rcases before k s' hs' with ⟨s, hs, hturn⟩ | ⟨hn, rfl⟩
    · obtain ⟨hzero, hfree⟩ := h.opening k s hs (hturn.opening hphase)
      refine ⟨?_, hfree⟩
      rcases hturn.count with hcnt | hcnt
      · rw [hcnt, hzero]
      · exact hcnt
    · exact ⟨rfl, h.unheld_of_none hn⟩
  · intro k s' hs' hphase
    rcases before k s' hs' with ⟨s, hs, hturn⟩ | ⟨-, rfl⟩
    · cases hsp : s.phase with
      | opening =>
        obtain ⟨hzero, hfree⟩ := h.opening k s hs hsp
        rw [outstanding_of_notMem hfree]
        rcases hturn.count with hcnt | hcnt
        · rw [hcnt, hzero]
        · exact hcnt
      | serving =>
        rw [hturn.kept hsp hphase, h.serving k s hs hsp]
        cases hown : s.owner with
        | none =>
          have hfree := h.unheld hs hown
          rw [outstanding_of_notMem hfree, outstanding_of_notMem hfree]
        | some o => simp only [outstanding, hown, hturn.owner o hown]
      | closed outcome =>
        rw [hturn.closed outcome hsp, hsp] at hphase
        cases hphase
    · cases hphase
  · intro k s' outcome hs' hphase
    rcases before k s' hs' with ⟨s, hs, hturn⟩ | ⟨-, rfl⟩
    · cases hsp : s.phase with
      | opening =>
        rcases hturn.count with hcnt | hcnt
        · rw [hcnt, (h.opening k s hs hsp).1]
        · exact hcnt
      | serving => exact hturn.cleared outcome hsp hphase
      | closed outcome' =>
        rw [hturn.closed outcome' hsp]
        exact h.closed k s outcome' hs hsp
    · cases hphase
  · intro k o hmem
    obtain ⟨s, hs, hown⟩ := h.owned k o hmem
    obtain ⟨s', hs', hturn⟩ := hturned.old k s hs
    exact ⟨s', hs', hturn.owner o hown⟩

/-- One serving seat and the holds on it change together; the holds on other seats
    stay. -/
theorem Balanced.recounted {count : ℤ}
    (hseats : Recounted seats seats' k s count) (hphase : s.phase = .serving)
    (hcnt : count = outstanding holds' k s) (howned : ∀ p, (k, p) ∈ holds' → s.owner = some p)
    (hoths : ∀ j p, j ≠ k → holds'.count (j, p) = holds.count (j, p)) :
    Balanced seats' holds' := by
  have hmem : ∀ j p, j ≠ k → (j, p) ∈ holds' → (j, p) ∈ holds := by
    intro j p hj hp
    rw [← count_pos_iff, ← hoths j p hj]
    exact count_pos_iff.mpr hp
  refine ⟨?_, ?_, ?_, ?_⟩
  · intro j t ht hopen
    by_cases hj : j = k
    · subst hj
      rw [hseats.there] at ht
      cases ht
      rw [hphase] at hopen
      cases hopen
    · rw [hseats.others j hj] at ht
      obtain ⟨hzero, hfree⟩ := h.opening j t ht hopen
      exact ⟨hzero, fun p hp => hfree p (hmem j p hj hp)⟩
  · intro j t ht hserve
    by_cases hj : j = k
    · subst hj
      rw [hseats.there] at ht
      cases ht
      exact hcnt
    · rw [hseats.others j hj] at ht
      rw [h.serving j t ht hserve]
      cases hown : t.owner with
      | none => simp only [outstanding, hown]
      | some p => simp only [outstanding, hown, hoths j p hj]
  · intro j t outcome ht hclos
    by_cases hj : j = k
    · subst hj
      rw [hseats.there] at ht
      cases ht
      rw [hphase] at hclos
      cases hclos
    · rw [hseats.others j hj] at ht
      exact h.closed j t outcome ht hclos
  · intro j p hp
    by_cases hj : j = k
    · subst hj
      exact ⟨_, hseats.there, howned p hp⟩
    · rw [hseats.others j hj]
      exact h.owned j p (hmem j p hj hp)

/-- The owner of a seat is who has holds on it. -/
theorem Balanced.owner_of_mem (hs : seats k = some s)
    (hmem : (k, o) ∈ holds) : s.owner = some o := by
  obtain ⟨t, ht, ho⟩ := h.owned k o hmem
  rw [hs] at ht
  cases ht
  exact ho

/-- **A NEW HOLD** on a serving seat adds one to its count. -/
theorem Balanced.acquired
    (hseats : Recounted seats seats' k s (s.count + 1)) (hphase : s.phase = .serving)
    (hown : s.owner = some o) : Balanced seats' ((k, o) :: holds) := by
  refine h.recounted hseats hphase ?_ ?_ ?_
  · have hcnt := h.serving k s hseats.here hphase
    simp only [outstanding, hown] at hcnt ⊢
    rw [hcnt, count_cons_self]
    rfl
  · intro p hp
    rcases mem_cons.mp hp with he | hp
    · rw [show p = o from congrArg Prod.snd he]
      exact hown
    · exact h.owner_of_mem hseats.here hp
  · intro j p hj
    have hne : ¬ ((k, o) : κ × ω) = (j, p) := fun he => hj (congrArg Prod.fst he).symm
    exact count_cons_of_ne hne

/-- **A HOLD GIVEN BACK** to a serving seat takes one from its count. -/
theorem Balanced.released
    (hseats : Recounted seats seats' k s (s.count - 1)) (hphase : s.phase = .serving)
    (hback : holds.Perm ((k, o) :: holds')) : Balanced seats' holds' := by
  have hmem : ∀ x ∈ holds', x ∈ holds := fun x hx => hback.mem_iff.mpr (mem_cons_of_mem _ hx)
  have hown := h.owner_of_mem hseats.here (hback.mem_iff.mpr mem_cons_self)
  refine h.recounted hseats hphase ?_ ?_ ?_
  · have hcnt := h.serving k s hseats.here hphase
    simp only [outstanding, hown] at hcnt ⊢
    rw [hcnt, hback.count_eq, count_cons_self]
    omega
  · exact fun p hp => h.owner_of_mem hseats.here (hmem _ hp)
  · intro j p hj
    have hne : ((k, o) : κ × ω) ≠ (j, p) := fun he => hj (congrArg Prod.fst he).symm
    rw [hback.count_eq, count_cons_of_ne hne]

/-- A hold given back after its seat has closed changes nothing but the holds. -/
theorem Balanced.late {outcome : ρ} (hs : seats k = some s)
    (hphase : s.phase = .closed outcome) (hback : holds.Perm ((k, o) :: holds')) :
    Balanced seats holds' := by
  have hmem : ∀ x ∈ holds', x ∈ holds := fun x hx => hback.mem_iff.mpr (mem_cons_of_mem _ hx)
  refine ⟨?_, ?_, h.closed, fun j p hp => h.owned j p (hmem _ hp)⟩
  · intro j t ht hopen
    obtain ⟨hzero, hfree⟩ := h.opening j t ht hopen
    exact ⟨hzero, fun p hp => hfree p (hmem _ hp)⟩
  · intro j t ht hserve
    have hj : j ≠ k := by
      intro hj
      subst hj
      rw [hs] at ht
      cases ht
      rw [hphase] at hserve
      cases hserve
    rw [h.serving j t ht hserve]
    cases hown : t.owner with
    | none => simp only [outstanding, hown]
    | some p =>
      have hne : ((k, o) : κ × ω) ≠ (j, p) := fun he => hj (congrArg Prod.fst he).symm
      simp only [outstanding, hown, hback.count_eq, count_cons_of_ne hne]

/-- The count of a serving seat covers every hold on it. -/
theorem Balanced.count_pos (hs : seats k = some s)
    (hphase : s.phase = .serving) (hown : s.owner = some o) (hmem : (k, o) ∈ holds) :
    0 < s.count := by
  rw [h.serving k s hs hphase]
  simp only [outstanding, hown]
  exact_mod_cast count_pos_iff.mpr hmem

end Holds

end Occupancy
