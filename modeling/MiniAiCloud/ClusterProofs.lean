import MiniAiCloud.Cluster

/-! # What every run of the cluster keeps

    The invariants that hold whatever an ending may report and whatever a hold
    charges: the lifecycle of a job, the dependency gate, the dependency graph
    without cycles, and the fate of a cancelled job.  Each is one step lemma;
    `Steps.keeps` carries it over any number of steps. -/

namespace MiniAiCloud

open Relation Table Option TaskStatus Job

variable {a b : Cluster} {R : Rules} {job job' : Job} {t x d : Uuid} {keep : Bool}
  {s target : TaskStatus}

namespace Cluster

/-- What one step keeps, any number of steps keeps. -/
theorem Steps.keeps {I : Cluster → Prop} (hstep : ∀ a b, I a → Step R a b → I b)
    (h : Steps R a b) (ha : I a) : I b := by
  induction h with
  | refl => exact ha
  | tail _ hlast ih => exact hstep _ _ ih hlast

end Cluster

/-! ## The lifecycle of a job -/

/-- What the row of a job says in each phase.  No job is left in `scheduling`:
    placement goes from the queue to an assignment at once. -/
structure Job.Wellformed (job : Job) : Prop where
  unscheduled : job.status ≠ .scheduling
  holding : job.status ∈ holdingStatuses → job.execution ≠ none ∧ job.worker ≠ none
  waiting : job.status ∈ waitingStatuses →
    job.execution = none ∧ job.worker = none ∧ job.cancel = false
  launched : job.status ∈ launchStatuses → job.cancel = false

/-- A job that rests: it neither waits nor holds. -/
theorem Job.Wellformed.of_final (hfin : job.status ∈ finalTaskStatuses) : job.Wellformed := by
  have hhold := not_holding_of_final _ hfin
  refine ⟨?_, fun h => absurd h hhold, ?_, ?_⟩
  · intro hs
    rw [hs] at hfin
    revert hfin
    decide
  · exact fun h => absurd h (not_waiting_of_final _ hfin)
  · exact fun h => absurd (holding_of_launch _ h) hhold

theorem Job.Wellformed.new (p : Uuid) (gpus : ℤ) : (new p gpus).Wellformed :=
  ⟨fun h => (by cases h),
    fun h => absurd h (by show pending ∉ holdingStatuses; decide),
    fun _ => ⟨rfl, rfl, rfl⟩, fun _ => rfl⟩

theorem Job.Wellformed.assigned (job : Job) (w : WorkerId) (x : Uuid) :
    (job.assigned w x).Wellformed := by
  refine ⟨?_, ?_, ?_, ?_⟩
  · intro h
    cases h
  · exact fun _ => ⟨some_ne_none x, some_ne_none w⟩
  · intro h
    exact absurd h (by show TaskStatus.assigned ∉ waitingStatuses; decide)
  · exact fun _ => rfl

/-- A waiting job owns nothing. -/
theorem Job.Wellformed.waits (hst : job.status ∈ waitingStatuses)
    (hempty : job.execution = none ∧ job.worker = none ∧ job.cancel = false) :
    job.Wellformed := by
  have hhold := not_holding_of_waiting _ hst
  refine ⟨?_, fun h => absurd h hhold, fun _ => hempty, fun _ => hempty.2.2⟩
  intro hs
  rw [hs] at hst
  revert hst
  decide

/-- A holding job that goes on holding. -/
theorem Job.Wellformed.holds (h : job.Wellformed) (hfrom : job.status ∈ holdingStatuses)
    (hto : job'.status ∈ holdingStatuses) (hexec : job'.execution = job.execution)
    (hwk : job'.worker = job.worker)
    (hcncl : job'.status ∈ launchStatuses → job'.cancel = false) :
    job'.Wellformed := by
  refine ⟨?_, ?_, ?_, hcncl⟩
  · intro hs
    rw [hs] at hto
    revert hto
    decide
  · intro _
    rw [hexec, hwk]
    exact h.holding hfrom
  · exact fun hw => absurd hto (not_holding_of_waiting _ hw)

namespace Cluster

/-- **THE LIFECYCLE INVARIANT**: every job is well formed and has a book, and
    both ends of an edge exist. -/
structure Lifecycle (a : Cluster) : Prop where
  wellformed : ∀ t job, a.jobs.get? t = some job → job.Wellformed
  booked : ∀ t job, a.jobs.get? t = some job → a.books.get? job.project ≠ none
  ends : ∀ t d g, a.edges.get? (t, d) = some g →
    a.jobs.get? t ≠ none ∧ a.jobs.get? d ≠ none

/-- Rewriting one job keeps the invariant. -/
theorem Lifecycle.set_job (h : Lifecycle a) (hjob : a.jobs.get? t = some job)
    (hjobs : b.jobs = a.jobs.set t job') (hproj : job'.project = job.project)
    (hwell : job'.Wellformed) (hedges : b.edges = a.edges)
    (hbooks : ∀ p, a.books.get? p ≠ none → b.books.get? p ≠ none) :
    Lifecycle b := by
  refine ⟨?_, ?_, ?_⟩
  · intro u other hu
    rw [hjobs] at hu
    rcases get?_set_cases hu with ⟨_, hoth⟩ | ⟨_, hold⟩
    · rw [hoth]
      exact hwell
    · exact h.wellformed u other hold
  · intro u other hu
    rw [hjobs] at hu
    rcases get?_set_cases hu with ⟨_, hoth⟩ | ⟨_, hold⟩
    · rw [hoth, hproj]
      exact hbooks _ (h.booked t job hjob)
    · exact hbooks _ (h.booked u other hold)
  · intro u d g hg
    rw [hedges] at hg
    obtain ⟨hsrc, htgt⟩ := h.ends u d g hg
    rw [hjobs]
    exact ⟨fun hn => hsrc (get?_set_eq_none.mp hn),
      fun hn => htgt (get?_set_eq_none.mp hn)⟩

/-- Tables other than the jobs may change as long as no book is lost. -/
theorem Lifecycle.of_jobs (h : Lifecycle a) (hjobs : b.jobs = a.jobs)
    (hedges : ∀ t d g, b.edges.get? (t, d) = some g → a.jobs.get? t ≠ none ∧ a.jobs.get? d ≠ none)
    (hbooks : ∀ p, a.books.get? p ≠ none → b.books.get? p ≠ none) :
    Lifecycle b := by
  refine ⟨?_, ?_, ?_⟩
  · intro t job ht
    rw [hjobs] at ht
    exact h.wellformed t job ht
  · intro t job ht
    rw [hjobs] at ht
    exact hbooks _ (h.booked t job ht)
  · intro t d g hg
    rw [hjobs]
    exact hedges t d g hg

private theorem books_set {q : Uuid} {book : Book} (p : Uuid) (h : a.books.get? p ≠ none) :
    (a.books.set q book).get? p ≠ none :=
  fun hn => h (get?_set_eq_none.mp hn)

private theorem ne_none_insert {κ ρ : Type} [DecidableEq κ] {t : Table κ ρ} {k j : κ}
    {v : ρ} (h : t.get? j ≠ none) : (t.insert k v).get? j ≠ none := by
  obtain ⟨w, hw⟩ := ne_none_iff_exists'.mp h
  rw [get?_insert_of_some hw]
  exact some_ne_none w

/-- The row an ending writes is well formed. -/
theorem CanEnd.wellformed (hcan : CanEnd R a t x job target keep) (hwell : job.Wellformed)
    (userCancel : Bool) :
    (job.ended target keep userCancel).Wellformed := by
  obtain ⟨hwait, hsched, hlau⟩ := hcan.allowed.from_holding hcan.holding
  cases keep with
  | false => exact .of_final (hcan.final rfl)
  | true =>
    refine ⟨hsched, fun _ => ?_, fun h => absurd h hwait, fun h => ?_⟩
    · exact hwell.holding hcan.holding
    · exact hwell.launched (hlau h)

/-- One step keeps the lifecycle. -/
theorem Lifecycle.step (h : Lifecycle a) (hstep : Step R a b) : Lifecycle b := by
  cases hstep with
  | join w session hnew | rejoin w slot session hslot hw | handover x hold slot hhold hslot =>
    exact h.of_jobs rfl h.ends (fun _ hp => hp)
  | openBook p hnew => exact h.of_jobs rfl h.ends (fun _ hp => ne_none_insert hp)
  | submit _ p gpus book _ hnew hbook hdeps =>
    refine ⟨?_, ?_, ?_⟩
    · intro u job hu
      rcases get?_insert_cases hu with ⟨_, hjob⟩ | hold
      · rw [hjob]
        exact .new p gpus
      · exact h.wellformed u job hold
    · intro u job hu
      rcases get?_insert_cases hu with ⟨_, hjob⟩ | hold
      · refine books_set _ ?_
        rw [hjob]
        show a.books.get? p ≠ none
        rw [hbook]
        exact some_ne_none book
      · exact books_set _ (h.booked u job hold)
    · intro u d g hg
      rcases get?_insertAll_cases _ _ hg with hold | ⟨_, hmem⟩
      · obtain ⟨hsrc, htgt⟩ := h.ends u d g hold
        exact ⟨ne_none_insert hsrc, ne_none_insert htgt⟩
      · obtain ⟨d', hd', heq⟩ := List.mem_map.mp hmem
        obtain ⟨hkey, _⟩ := Prod.mk.inj heq
        obtain ⟨hu, hd⟩ := Prod.mk.inj hkey
        rw [← hu, ← hd]
        refine ⟨?_, ne_none_insert (hdeps d' hd')⟩
        rw [get?_insert_self hnew]
        exact some_ne_none _
  | enqueue t job hjob hst =>
    have hwaits : job.status ∈ waitingStatuses := by
      rcases hst with hs | hs
      · rw [hs]
        decide
      · rw [hs]
        decide
    refine h.set_job hjob rfl rfl ?_ rfl (fun _ hp => hp)
    exact .waits (by show queued ∈ waitingStatuses; decide)
      ((h.wellformed t job hjob).waiting hwaits)
  | drop _ _ _ _ _ hjob =>
    refine h.set_job hjob rfl rfl ?_ rfl (fun p hp => books_set p hp)
    exact .of_final (by show cancelled ∈ finalTaskStatuses; decide)
  | assign _ x job hold _ _ _ _ hcan =>
    exact h.set_job hcan.job_eq rfl rfl (.assigned job hold.worker x)
      rfl (fun p hp => books_set p hp)
  | progress t job _ hjob hfrom hto =>
    have hwell := h.wellformed t job hjob
    refine h.set_job hjob rfl rfl ?_ rfl (fun _ hp => hp)
    exact hwell.holds (holding_of_launch _ hfrom) (holding_of_launch _ hto) rfl rfl
      (fun _ => hwell.launched hfrom)
  | stop t job hjob hfrom =>
    have hheld : job.status ∈ holdingStatuses := by
      rcases hfrom with hlau | hs
      · exact holding_of_launch _ hlau
      · rw [hs]
        decide
    refine h.set_job hjob rfl rfl ?_ rfl (fun _ hp => hp)
    exact (h.wellformed t job hjob).holds hheld (by show stopping ∈ holdingStatuses; decide) rfl rfl
        (fun hs => absurd hs (by show stopping ∉ launchStatuses; decide))
  | preempt t job hjob hfrom =>
    refine h.set_job hjob rfl rfl ?_ rfl (fun _ hp => hp)
    exact (h.wellformed t job hjob).holds (holding_of_launch _ hfrom)
        (by show preempting ∈ holdingStatuses; decide) rfl rfl
        (fun hs => absurd hs (by show preempting ∉ launchStatuses; decide))
  | cancelPreempting t job hjob hfrom =>
    have hheld : job.status ∈ holdingStatuses := by
      rw [hfrom]
      decide
    refine h.set_job hjob rfl rfl ?_ rfl (fun _ hp => hp)
    refine (h.wellformed t job hjob).holds hheld hheld rfl rfl ?_
    intro hs
    have hs' : job.status ∈ launchStatuses := hs
    rw [hfrom] at hs'
    exact absurd hs' (by decide)
  | settle t _ job _ _ _ _ userCancel hcan =>
    exact h.set_job hcan.job_eq rfl rfl
      (hcan.wellformed (h.wellformed t job hcan.job_eq) userCancel) rfl
      (fun p hp => books_set p hp)
  | abandon t _ job _ _ userCancel _ _ hcan =>
    exact h.set_job hcan.job_eq rfl rfl
      (hcan.wellformed (h.wellformed t job hcan.job_eq) userCancel) rfl
      (fun _ hp => hp)
  | requeue _ _ _ hjob =>
    refine h.set_job hjob rfl rfl ?_ rfl (fun p hp => books_set p hp)
    exact .waits (by show retrying ∈ waitingStatuses; decide) ⟨rfl, rfl, rfl⟩
  | link t d g job hcan =>
    refine h.of_jobs rfl ?_ (fun _ hp => hp)
    intro u v g' hg
    rcases get?_insert_cases hg with ⟨hkey, _⟩ | hold
    · obtain ⟨hu, hv⟩ := Prod.mk.inj hkey
      rw [hu, hv, hcan.source]
      exact ⟨some_ne_none job, hcan.destination⟩
    · exact h.ends u v g' hold

end Cluster

/-! ## How a step moves a job -/

/-- The statuses of a job that got an execution for its current attempt. -/
def startedStatuses : List TaskStatus := .succeeded :: holdingStatuses

/-- The user's cancellation is recorded in the row, in one of three ways. -/
def Job.Doomed (job : Job) : Prop :=
  job.status = .stopping ∧ job.cancel = true
    ∨ job.status = .preempting ∧ job.cancel = true ∧ job.userCancel = true
    ∨ job.status = .cancelled

/-- A doomed job is one the user wants gone. -/
theorem Job.Doomed.cancelling (h : job.Doomed) (hne : job.status ≠ .cancelled) :
    job.Cancelling := by
  rcases h with ⟨hs, hc⟩ | ⟨_, hc, hu⟩ | hs
  · exact ⟨hc, .inl (by rw [hs]; decide)⟩
  · exact ⟨hc, .inr hu⟩
  · exact absurd hs hne

theorem Job.Doomed.not_launch (h : job.Doomed) :
    job.status ∉ launchStatuses := by
  rcases h with ⟨hs, _⟩ | ⟨hs, _, _⟩ | hs
  · rw [hs]
    decide
  · rw [hs]
    decide
  · rw [hs]
    decide

theorem Job.Doomed.not_waiting (h : job.Doomed) :
    job.status ∉ waitingStatuses := by
  rcases h with ⟨hs, _⟩ | ⟨hs, _, _⟩ | hs
  · rw [hs]
    decide
  · rw [hs]
    decide
  · rw [hs]
    decide

namespace Cluster

/-- What holds of the row of a job before and after a step that rewrites it. -/
structure Moved (a : Cluster) (t : Uuid) (job job' : Job) : Prop where
  project : job'.project = job.project
  unfinished : job.status ∉ [.succeeded, .cancelled]
  started : job'.status ∈ startedStatuses → job.status ∈ startedStatuses
    ∨ ∀ d g, a.edges.get? (t, d) = some g → a.Succeeded d
  doomed : job.Doomed →
    job'.Doomed ∧ (job'.status = job.status ∨ job'.status = .cancelled)
  execution : ∀ x, job'.execution = some x →
    job.execution = some x ∨ a.executions.get? x = none
  holding : job'.status ∈ holdingStatuses → job.status ∈ holdingStatuses
    ∨ ∀ x, job'.execution = some x → a.executions.get? x = none

private theorem started_of_holding (h : s ∈ holdingStatuses) : s ∈ startedStatuses :=
  List.mem_cons_of_mem _ h

private theorem unfinished_of_holding :
    ∀ s ∈ holdingStatuses, s ∉ [succeeded, .cancelled] := by
  decide

private theorem unfinished_of_waiting :
    ∀ s ∈ waitingStatuses, s ∉ [succeeded, .cancelled] := by
  decide

/-- A job that starts to wait, or that goes on waiting, has not started. -/
private theorem Moved.waits (hproj : job'.project = job.project)
    (hfrom : job.status ∉ [.succeeded, .cancelled]) (hdoom : ¬ job.Doomed)
    (hto : job'.status ∉ startedStatuses)
    (hexec : ∀ x, job'.execution = some x → job.execution = some x) :
    Moved a t job job' :=
  ⟨hproj, hfrom, fun h => absurd h hto, fun h => absurd h hdoom,
    fun x hx => .inl (hexec x hx), fun h => absurd (started_of_holding h) hto⟩

private theorem Moved.holds (hproj : job'.project = job.project)
    (hfrom : job.status ∈ holdingStatuses) (hdoom : job.Doomed →
      job'.Doomed ∧ (job'.status = job.status ∨ job'.status = .cancelled))
    (hexec : ∀ x, job'.execution = some x → job.execution = some x) :
    Moved a t job job' :=
  ⟨hproj, unfinished_of_holding _ hfrom, fun _ => .inl (started_of_holding hfrom), hdoom,
    fun x hx => .inl (hexec x hx), fun _ => .inl hfrom⟩

/-- An ending names no new execution. -/
theorem Job.ended_execution (userCancel : Bool) :
    ∀ y, (job.ended target keep userCancel).execution = some y → job.execution = some y := by
  intro y hy
  cases keep with
  | true => exact hy
  | false => cases hy

/-- An ending of a doomed job is its cancellation. -/
theorem CanEnd.moved (hcan : CanEnd R a t x job target keep) (userCancel : Bool) :
    Moved a t job (job.ended target keep userCancel) := by
  refine Moved.holds rfl hcan.holding ?_ ?_
  · intro hd
    have htgt : target = .cancelled := by
      refine hcan.cancelling (hd.cancelling ?_)
      intro hs
      have hheld := hcan.holding
      rw [hs] at hheld
      exact absurd hheld (by decide)
    exact ⟨.inr (.inr htgt), .inr htgt⟩
  · exact Job.ended_execution userCancel

/-- **THE JOB RULE**: a step leaves the jobs alone, adds a new one, or rewrites
    one as `Moved` says. -/
theorem Step.jobs (hstep : Step R a b) : b.jobs = a.jobs
      ∨ (∃ t p n, a.jobs.get? t = none ∧ b.jobs = a.jobs.insert t (new p n))
      ∨ ∃ t job job', a.jobs.get? t = some job ∧ b.jobs = a.jobs.set t job'
          ∧ Moved a t job job' := by
  cases hstep with
  | join w session hnew | rejoin w slot session hslot hw | handover x hold slot hhold hslot
  | openBook p hnew | link t d g job hcan => exact .inl rfl
  | submit t p gpus _ _ hnew =>
    exact .inr (.inl ⟨t, p, gpus, hnew, rfl⟩)
  | enqueue t job hjob hst =>
    have hwaits : job.status ∈ waitingStatuses := by
      rcases hst with hs | hs
      · rw [hs]
        decide
      · rw [hs]
        decide
    exact .inr (.inr ⟨t, job, _, hjob, rfl, .waits rfl (unfinished_of_waiting _ hwaits)
        (fun hd => hd.not_waiting hwaits)
        (by show queued ∉ startedStatuses; decide) (fun _ hx => hx)⟩)
  | drop t job _ _ _ hjob hst =>
    exact .inr (.inr ⟨t, job, _, hjob, rfl, .waits rfl (unfinished_of_waiting _ hst)
        (fun hd => hd.not_waiting hst)
        (by show cancelled ∉ startedStatuses; decide)
        (fun _ hx => hx)⟩)
  | assign t _ job _ _ _ _ _ hcan =>
    have hwaits : job.status ∈ waitingStatuses := by
      rw [hcan.queued]
      decide
    refine .inr (.inr ⟨t, job, _, hcan.job_eq, rfl, rfl,
      unfinished_of_waiting _ hwaits, fun _ => .inr hcan.ready,
      fun hd => absurd hwaits hd.not_waiting, ?_, ?_⟩)
    · intro y hy
      cases hy
      exact .inr hcan.execution_fresh
    · intro _
      right
      intro y hy
      cases hy
      exact hcan.execution_fresh
  | progress t job status hjob hfrom hto | preempt t job hjob hfrom =>
    exact .inr (.inr ⟨t, job, _, hjob, rfl, .holds rfl (holding_of_launch _ hfrom)
        (fun hd => absurd hfrom hd.not_launch) (fun _ hx => hx)⟩)
  | stop t job hjob hfrom =>
    have hheld : job.status ∈ holdingStatuses := by
      rcases hfrom with hlau | hs
      · exact holding_of_launch _ hlau
      · rw [hs]
        decide
    refine .inr (.inr ⟨t, job, _, hjob, rfl,
      Moved.holds rfl hheld (fun hd => ⟨.inl ⟨rfl, rfl⟩, ?_⟩) (fun _ hx => hx)⟩)
    rcases hfrom with hlau | hs
    · exact absurd hlau hd.not_launch
    · exact .inl hs.symm
  | cancelPreempting t job hjob hfrom =>
    have hheld : job.status ∈ holdingStatuses := by
      rw [hfrom]
      decide
    exact .inr (.inr ⟨t, job, _, hjob, rfl, .holds rfl hheld
        (fun _ => ⟨.inr (.inl ⟨hfrom, rfl, rfl⟩), .inl rfl⟩) (fun _ hx => hx)⟩)
  | settle t x job hold book target keep userCancel hcan hhold hlive hbook
  | abandon t x job target keep userCancel w f hcan hdead hf =>
    exact .inr (.inr ⟨t, job, _, hcan.job_eq, rfl, hcan.moved userCancel⟩)
  | requeue t job _ hjob hst =>
    have hrests : ∀ s ∈ [failed, .timedOut, .preempted],
        s ∉ [succeeded, .cancelled] ∧ s ≠ .stopping ∧ s ≠ .preempting
          ∧ s ≠ .cancelled := by
      decide
    obtain ⟨hopen, hstop, hpre, hcanc⟩ := hrests _ hst
    refine .inr (.inr ⟨t, job, _, hjob, rfl, .waits rfl hopen ?_
      (by show retrying ∉ startedStatuses; decide)
      (fun _ hx => by cases hx)⟩)
    rintro (⟨hs, _⟩ | ⟨hs, _, _⟩ | hs)
    · exact hstop hs
    · exact hpre hs
    · exact hcanc hs

/-- A succeeded job stays succeeded. -/
theorem Succeeded.step (h : a.Succeeded d) (hstep : Step R a b) : b.Succeeded d := by
  obtain ⟨job, hjob, hs⟩ := h
  rcases hstep.jobs with heq | ⟨t, p, n, _, heq⟩ | ⟨t, old, new, hold, heq, hmoved⟩
  · exact ⟨job, by rw [heq]; exact hjob, hs⟩
  · exact ⟨job, by rw [heq]; exact get?_insert_of_some hjob _, hs⟩
  · refine ⟨job, ?_, hs⟩
    have hne : d ≠ t := by
      intro hdt
      subst hdt
      rw [hold] at hjob
      have hj : old = job := some.inj hjob
      rw [← hj] at hs
      exact hmoved.unfinished (by rw [hs]; decide)
    rw [heq, get?_set_ne _ _ hne]
    exact hjob

/-! ## The dependency gate -/

/-- **THE GATE**: what a started job depends on has succeeded. -/
def Gated (a : Cluster) : Prop :=
  ∀ t d g job, a.edges.get? (t, d) = some g → a.jobs.get? t = some job →
    job.status ∈ startedStatuses → a.Succeeded d

/-- What a step does to the edges: a new edge leaves a job that waits. -/
theorem Step.edge_cases (hstep : Step R a b) {g : Option Uuid} (h : b.edges.get? (t, d) = some g) :
    a.edges.get? (t, d) = some g
      ∨ (∃ p n, a.jobs.get? t = none ∧ b.jobs = a.jobs.insert t (new p n))
      ∨ ∃ job, a.jobs.get? t = some job ∧ job.status ∈ waitingStatuses
          ∧ b.jobs = a.jobs := by
  cases hstep with
  | submit _ p gpus _ _ hnew =>
    rcases get?_insertAll_cases _ _ h with hold | ⟨_, hmem⟩
    · exact .inl hold
    · obtain ⟨_, _, heq⟩ := List.mem_map.mp hmem
      obtain ⟨hkey, _⟩ := Prod.mk.inj heq
      obtain ⟨ht, _⟩ := Prod.mk.inj hkey
      subst ht
      exact .inr (.inl ⟨p, gpus, hnew, rfl⟩)
  | link _ _ _ job hcan =>
    rcases get?_insert_cases h with ⟨hkey, _⟩ | hold
    · obtain ⟨ht, _⟩ := Prod.mk.inj hkey
      subst ht
      exact .inr (.inr ⟨job, hcan.source, hcan.unstarted, rfl⟩)
    · exact .inl hold
  | _ => exact .inl h

private theorem not_started_of_waiting :
    ∀ s ∈ waitingStatuses, s ∉ startedStatuses := by
  decide

/-- One step keeps the gate. -/
theorem Gated.step (h : Gated a) (hlife : Lifecycle a) (hstep : Step R a b) : Gated b := by
  intro t d g job hedge hjob hbeg
  rcases hstep.edge_cases hedge with hold | ⟨p, n, hnew, hjobs⟩ | ⟨old, hsrc, hw, hjobs⟩
  · -- an old edge: the job had started before, or starts now and is ready
    rcases hstep.jobs with heq | ⟨t', p, n, hnew, heq⟩ | ⟨t', job₁, job₂, h₁, heq, hm⟩
    · rw [heq] at hjob
      exact (h t d g job hold hjob hbeg).step hstep
    · rw [heq] at hjob
      rcases get?_insert_cases hjob with ⟨htt, _⟩ | hjob
      · rw [← htt] at hnew
        exact absurd hnew (hlife.ends t d g hold).1
      · exact (h t d g job hold hjob hbeg).step hstep
    · rw [heq] at hjob
      rcases get?_set_cases hjob with ⟨htt, hj⟩ | ⟨_, hjob⟩
      · subst htt
        subst hj
        rcases hm.started hbeg with hwas | hready
        · exact (h t d g job₁ hold h₁ hwas).step hstep
        · exact (hready d g hold).step hstep
      · exact (h t d g job hold hjob hbeg).step hstep
  · -- a new edge of a job that was just submitted
    rw [hjobs, get?_insert_self hnew] at hjob
    have hj : new p n = job := some.inj hjob
    rw [← hj] at hbeg
    exact absurd hbeg (by show pending ∉ startedStatuses; decide)
  · -- a new edge of a job that waits
    rw [hjobs, hsrc] at hjob
    have hj : old = job := some.inj hjob
    rw [← hj] at hbeg
    exact absurd hbeg (not_started_of_waiting _ hw)

/-! ## A cancelled job -/

/-- The cancellation of the job is recorded: it is still in the status `s` or
    cancelled. -/
def Doomed (a : Cluster) (t : Uuid) (s : TaskStatus) : Prop :=
  ∃ job, a.jobs.get? t = some job ∧ job.Doomed
    ∧ (job.status = s ∨ job.status = .cancelled)

/-- One step keeps the job doomed. -/
theorem Doomed.step (h : a.Doomed t s) (hstep : Step R a b) : b.Doomed t s := by
  obtain ⟨job, hjob, hd, hs⟩ := h
  rcases hstep.jobs with heq | ⟨u, p, n, _, heq⟩ | ⟨u, old, new, hold, heq, hmoved⟩
  · exact ⟨job, by rw [heq]; exact hjob, hd, hs⟩
  · exact ⟨job, by rw [heq]; exact get?_insert_of_some hjob _, hd, hs⟩
  · by_cases htu : t = u
    · subst htu
      rw [hold] at hjob
      have hj : old = job := some.inj hjob
      rw [← hj] at hd hs
      obtain ⟨hd', hsame⟩ := hmoved.doomed hd
      refine ⟨new, ?_, hd', ?_⟩
      · rw [heq, get?_set_self hold]
      · rcases hsame with heq' | hcncd
        · rw [heq']
          exact hs
        · exact .inr hcncd
    · exact ⟨job, by rw [heq, get?_set_ne _ _ htu]; exact hjob, hd, hs⟩

/-- A doomed job gets no new execution. -/
theorem Doomed.no_execution {grant : Grant} (h : a.Doomed t s) (hstep : Step R a b)
    (hx : b.executions.get? x = some grant) (ht : grant.job = t) :
    a.executions.get? x = some grant := by
  cases hstep with
  | assign t' _ job _ _ _ _ _ hcan =>
    rcases get?_insert_cases hx with ⟨_, hgrant⟩ | hold'
    · obtain ⟨job', hjob', hd, _⟩ := h
      have htt : t' = t := by
        rw [← ht, hgrant]
        exact hcan.owner.symm
      rw [← htt, hcan.job_eq] at hjob'
      have hj : job = job' := some.inj hjob'
      rw [← hj] at hd
      have hwaits : job.status ∈ waitingStatuses := by
        rw [hcan.queued]
        decide
      exact absurd hwaits hd.not_waiting
    · exact hold'
  | _ => exact hx

/-! ## An execution that was taken away -/

/-- The hold of the execution was given back. -/
def Released (a : Cluster) (x : Uuid) : Prop :=
  ∃ h, a.holds.get? x = some h ∧ h.live = false

theorem Step.executions_kept (hstep : Step R a b) {grant : Grant}
    (h : a.executions.get? x = some grant) :
    b.executions.get? x = some grant := by
  cases hstep with
  | assign =>
    exact get?_insert_of_some h _
  | _ => exact h

/-- A hold that was given back stays given back. -/
theorem Released.step (h : a.Released x) (hstep : Step R a b) : b.Released x := by
  obtain ⟨e, he, hdead⟩ := h
  cases hstep with
  | handover y _ slot hhold =>
    by_cases hxy : x = y
    · rw [← hxy, he] at hhold
      cases hhold
      refine ⟨{ e with session := slot.session }, ?_, hdead⟩
      rw [← hxy]
      exact get?_set_self he _
    · exact ⟨e, by rw [← he]; exact get?_set_ne _ _ hxy, hdead⟩
  | assign =>
    exact ⟨e, get?_insert_of_some he _, hdead⟩
  | settle _ y _ _ _ _ _ _ _ hhold hlive =>
    have hxy : x ≠ y := by
      intro hxy
      rw [← hxy, he] at hhold
      cases hhold
      rw [hdead] at hlive
      cases hlive
    exact ⟨e, by rw [← he]; exact get?_set_ne _ _ hxy, hdead⟩
  | _ => exact ⟨e, he, hdead⟩

/-- Every execution a job names was minted, together with its hold. -/
def Backed (a : Cluster) : Prop :=
  ∀ t job x, a.jobs.get? t = some job → job.execution = some x →
    a.holds.get? x ≠ none ∧ a.executions.get? x ≠ none

/-- A job that is rewritten without a new execution names what it named. -/
theorem Backed.set_job (h : Backed a) (hjob : a.jobs.get? t = some job)
    (hexec : ∀ x, job'.execution = some x → job.execution = some x) :
    ∀ u other x, (a.jobs.set t job').get? u = some other → other.execution = some x →
      a.holds.get? x ≠ none ∧ a.executions.get? x ≠ none := by
  intro u other x hu hx
  rcases get?_set_cases hu with ⟨_, hoth⟩ | ⟨_, hold⟩
  · rw [hoth] at hx
    exact h t job x hjob (hexec x hx)
  · exact h u other x hold hx

/-- One step keeps executions backed. -/
theorem Backed.step (h : Backed a) (hstep : Step R a b) :
    Backed b := by
  have hset : ∀ (y : Uuid) (e : Hold) x, a.holds.get? x ≠ none → (a.holds.set y e).get? x ≠ none :=
    fun y e x hx hn => hx (get?_set_eq_none.mp hn)
  cases hstep with
  | handover y =>
    intro t job x hjob hx
    exact ⟨hset y _ x (h t job x hjob hx).1, (h t job x hjob hx).2⟩
  | submit =>
    intro u job x hjob hx
    rcases get?_insert_cases hjob with ⟨_, rfl⟩ | hold
    · cases hx
    · exact h u job x hold hx
  | assign _ _ _ e _ _ _ _ hcan =>
    intro u other x hu hx
    rcases get?_set_cases hu with ⟨_, hoth⟩ | ⟨_, hold⟩
    · rw [hoth] at hx
      cases hx
      exact ⟨ne_none_iff_exists'.mpr ⟨e, get?_insert_self hcan.hold_fresh e⟩,
        ne_none_iff_exists'.mpr ⟨e.grant, get?_insert_self hcan.execution_fresh e.grant⟩⟩
    · obtain ⟨hheld, hmint⟩ := h u other x hold hx
      obtain ⟨e', he'⟩ := ne_none_iff_exists'.mp hheld
      obtain ⟨grant, hgrant⟩ := ne_none_iff_exists'.mp hmint
      exact ⟨ne_none_iff_exists'.mpr ⟨e', get?_insert_of_some he' e⟩,
        ne_none_iff_exists'.mpr ⟨grant, get?_insert_of_some hgrant e.grant⟩⟩
  | settle _ y _ _ _ _ _ userCancel hcan =>
    intro u other x hu hx
    obtain ⟨hheld, hmint⟩ := h.set_job hcan.job_eq (Job.ended_execution userCancel) u other x hu hx
    exact ⟨hset y _ x hheld, hmint⟩
  | abandon _ _ _ _ _ userCancel _ _ hcan =>
    exact h.set_job hcan.job_eq (Job.ended_execution userCancel)
  | requeue _ _ _ hjob =>
    exact h.set_job hjob (fun _ hx => by cases hx)
  | enqueue t job hjob hst | progress t job status hjob hfrom hto | stop t job hjob hfrom
  | preempt t job hjob hfrom | cancelPreempting t job hjob hfrom =>
    exact h.set_job hjob (fun _ hx => hx)
  | drop _ _ _ _ _ hjob =>
    exact h.set_job hjob (fun _ hx => hx)
  | _ => exact h

/-- The hold of an execution is live only while the job holds the execution. -/
def Tied (a : Cluster) (t x : Uuid) : Prop :=
  ∃ h, a.holds.get? x = some h ∧ (h.live = true → ∃ job, a.jobs.get? t = some job
    ∧ job.status ∈ holdingStatuses ∧ job.execution = some x)

/-- A backed execution that the job holds is tied to the job. -/
theorem Backed.tied (h : Backed a) (hjob : a.jobs.get? t = some job)
    (hheld : job.status ∈ holdingStatuses) (hx : job.execution = some x) : a.Tied t x := by
  obtain ⟨e, he⟩ := ne_none_iff_exists'.mp (h t job x hjob hx).1
  exact ⟨e, he, fun _ => ⟨job, hjob, hheld, hx⟩⟩

/-- One step keeps a hold tied: the job lets go of the execution only together
    with the hold. -/
theorem Tied.step (h : a.Tied t x) (hstep : Step R a b) : b.Tied t x := by
  obtain ⟨e, he, hown⟩ := h
  cases hlive : e.live with
  | false =>
    obtain ⟨e', he', hdead⟩ := Released.step ⟨e, he, hlive⟩ hstep
    exact ⟨e', he', fun hl => absurd (hdead.symm.trans hl) Bool.false_ne_true⟩
  | true =>
    obtain ⟨job, hjob, hheld, hx⟩ := hown hlive
    -- a rewritten row is tied when the job goes on holding
    have hset : ∀ u old new, a.jobs.get? u = some old →
        (old.status ∈ holdingStatuses → old.execution = some x →
          new.status ∈ holdingStatuses ∧ new.execution = some x) →
        ∃ job, (a.jobs.set u new).get? t = some job ∧ job.status ∈ holdingStatuses
          ∧ job.execution = some x := by
      intro u _ new hold hnew
      by_cases htu : t = u
      · rw [← htu, hjob] at hold
        cases hold
        rw [← htu]
        exact ⟨new, get?_set_self hjob new, hnew hheld hx⟩
      · rw [get?_set_ne _ _ htu]
        exact ⟨job, hjob, hheld, hx⟩
    cases hstep with
    | handover y =>
      by_cases hxy : x = y
      · rw [← hxy]
        exact ⟨_, get?_set_self he _, fun _ => ⟨job, hjob, hheld, hx⟩⟩
      · refine ⟨e, ?_, hown⟩
        rw [← he]
        exact get?_set_ne _ _ hxy
    | submit =>
      exact ⟨e, he, fun _ => ⟨job, get?_insert_of_some hjob _, hheld, hx⟩⟩
    | assign u _ old _ _ _ _ _ hcan =>
      refine ⟨e, get?_insert_of_some he _, fun _ => hset u old _ hcan.job_eq ?_⟩
      intro hs _
      rw [hcan.queued] at hs
      exact absurd hs (by decide)
    | settle u y old _ _ _ _ _ hcan hhold =>
      by_cases hxy : x = y
      · rw [← hxy, he] at hhold
        cases hhold
        rw [← hxy]
        exact ⟨_, get?_set_self he _, fun hl => absurd hl Bool.false_ne_true⟩
      · refine ⟨e, ?_, fun _ => hset u old _ hcan.job_eq ?_⟩
        · rw [← he]
          exact get?_set_ne _ _ hxy
        · intro _ hox
          rw [hcan.execution] at hox
          exact absurd (some.inj hox).symm hxy
    | abandon u _ old _ _ _ _ _ hcan hdead =>
      refine ⟨e, he, fun _ => hset u old _ hcan.job_eq ?_⟩
      intro _ hox
      rw [hcan.execution] at hox
      have hdead' := hdead e (some.inj hox ▸ he)
      rw [hlive] at hdead'
      cases hdead'
    | enqueue u old hold hst =>
      refine ⟨e, he, fun _ => hset u old _ hold ?_⟩
      intro hs _
      rcases hst with h' | h'
      all_goals
        rw [h'] at hs
        exact absurd hs (by decide)
    | drop u old _ _ _ hold hst =>
      refine ⟨e, he, fun _ => hset u old _ hold ?_⟩
      exact fun hs _ => absurd hs (not_holding_of_waiting _ hst)
    | requeue u old _ hold hst =>
      refine ⟨e, he, fun _ => hset u old _ hold ?_⟩
      have hfin : old.status ∈ finalTaskStatuses := by
        revert hst
        cases old.status <;> decide
      exact fun hs _ => absurd hs (not_holding_of_final _ hfin)
    | progress u old _ hold _ hto =>
      exact ⟨e, he, fun _ => hset u old _ hold (fun _ hox => ⟨holding_of_launch _ hto, hox⟩)⟩
    | stop u old hold =>
      exact ⟨e, he, fun _ => hset u old _ hold
        (fun _ hox => ⟨by show stopping ∈ _; decide, hox⟩)⟩
    | preempt u old hold =>
      exact ⟨e, he, fun _ => hset u old _ hold
        (fun _ hox => ⟨by show preempting ∈ _; decide, hox⟩)⟩
    | cancelPreempting u old hold =>
      exact ⟨e, he, fun _ => hset u old _ hold (fun hs hox => ⟨hs, hox⟩)⟩
    | _ => exact ⟨e, he, hown⟩

/-- The execution was taken away: its hold was given back and the job does not
    hold it. -/
structure Revoked (a : Cluster) (t x : Uuid) : Prop where
  released : a.Released x
  minted : a.executions.get? x ≠ none
  idle : ∀ job, a.jobs.get? t = some job → job.status ∈ holdingStatuses →
    job.execution ≠ some x

/-- A revoked execution stays revoked: a new one gets a fresh name. -/
theorem Revoked.step (h : a.Revoked t x) (hstep : Step R a b) : b.Revoked t x := by
  obtain ⟨grant, hgrant⟩ := ne_none_iff_exists'.mp h.minted
  refine ⟨h.released.step hstep, ne_none_iff_exists'.mpr ⟨grant, hstep.executions_kept hgrant⟩, ?_⟩
  intro job hjob hheld hx
  rcases hstep.jobs with heq | ⟨u, p, n, _, heq⟩ | ⟨u, old, new, hold, heq, hmoved⟩
  · rw [heq] at hjob
    exact h.idle job hjob hheld hx
  · rw [heq] at hjob
    rcases get?_insert_cases hjob with ⟨_, rfl⟩ | hjob
    · cases hx
    · exact h.idle job hjob hheld hx
  · rw [heq] at hjob
    rcases get?_set_cases hjob with ⟨htu, hj⟩ | ⟨_, hjob⟩
    · rw [hj] at hx hheld
      rw [← htu] at hold
      rcases hmoved.execution x hx with hwas | hfresh
      · rcases hmoved.holding hheld with hheld' | hfresh
        · exact h.idle old hold hheld' hwas
        · exact h.minted (hfresh x hx)
      · exact h.minted hfresh
    · exact h.idle job hjob hheld hx

/-- The worker is in the session, and the hold, of these devices and this demand,
    is the worker's in this session. -/
structure Tethered (a : Cluster) (w : WorkerId) (x s : Uuid) (exact : Bool) (gpus : ℤ) :
    Prop where
  slot : ∃ slot, a.slots.get? w = some slot ∧ slot.session = s
  hold : ∃ h, a.holds.get? x = some h ∧ h.worker = w ∧ h.session = s
    ∧ h.exact = exact ∧ h.gpus = gpus

/-- A slot keeps its session unless its worker joins again. -/
theorem Step.session_kept (hstep : Step R a b) {w : WorkerId} (hw : ¬ R.rejoin w) {slot : Slot}
    (h : a.slots.get? w = some slot) :
    ∃ slot', b.slots.get? w = some slot' ∧ slot'.session = slot.session := by
  have hmod : ∀ (v : WorkerId) (f : Slot → Slot),
      (∀ r, a.slots.get? v = some r → (f r).session = r.session) →
      ∃ slot', (a.slots.modify v f).get? w = some slot' ∧ slot'.session = slot.session := by
    intro v f hf
    rw [get?_modify, h]
    refine ⟨_, rfl, ?_⟩
    show (if w = v then f slot else slot).session = slot.session
    by_cases hwv : w = v
    · rw [if_pos hwv]
      exact hf slot (hwv ▸ h)
    · rw [if_neg hwv]
  cases hstep with
  | join => exact ⟨slot, get?_insert_of_some h _, rfl⟩
  | rejoin _ _ _ _ hv =>
    refine ⟨slot, ?_, rfl⟩
    rw [← h]
    exact get?_set_ne _ _ (fun hwv => hw (hwv ▸ hv))
  | assign _ _ _ e slot' _ _ charge hcan =>
    refine hmod e.worker (fun _ => slot'.plus e charge) ?_
    intro r hr
    rw [hcan.slot_eq] at hr
    cases hr
    rfl
  | settle _ _ _ e =>
    exact hmod e.worker (fun s => s.minus e) (fun _ _ => rfl)
  | abandon _ _ _ _ _ _ v f _ _ hf =>
    exact hmod v f (fun r _ => hf r)
  | _ => exact ⟨slot, h, rfl⟩

/-- One step keeps a hold tethered unless the worker joins again. -/
theorem Tethered.step {w : WorkerId} {s : Uuid} {exact : Bool} {gpus : ℤ}
    (h : a.Tethered w x s exact gpus) (hw : ¬ R.rejoin w) (hstep : Step R a b) :
    b.Tethered w x s exact gpus := by
  obtain ⟨⟨slot, hslot, hsess⟩, e, he, hwk, hs, heq⟩ := h
  refine ⟨?_, ?_⟩
  · obtain ⟨slot', hslot', hkept⟩ := hstep.session_kept hw hslot
    exact ⟨slot', hslot', hkept.trans hsess⟩
  · cases hstep with
    | handover y _ _ hhold hslot' =>
      by_cases hxy : x = y
      · rw [← hxy, he] at hhold
        cases hhold
        rw [hwk, hslot] at hslot'
        cases hslot'
        refine ⟨{ e with session := slot.session }, ?_, hwk, hsess, heq⟩
        rw [← hxy]
        exact get?_set_self he _
      · exact ⟨e, by rw [← he]; exact get?_set_ne _ _ hxy, hwk, hs, heq⟩
    | assign =>
      exact ⟨e, get?_insert_of_some he _, hwk, hs, heq⟩
    | settle _ y _ _ _ _ _ _ _ hhold =>
      by_cases hxy : x = y
      · rw [← hxy, he] at hhold
        cases hhold
        refine ⟨{ e with live := false }, ?_, hwk, hs, heq⟩
        rw [← hxy]
        exact get?_set_self he _
      · exact ⟨e, by rw [← he]; exact get?_set_ne _ _ hxy, hwk, hs, heq⟩
    | _ => exact ⟨e, he, hwk, hs, heq⟩

/-! ## The dependency graph -/

/-- **THE GRAPH INVARIANT**: the graph has no cycle, and an edge that follows an
    edge of a group is of the group. -/
structure Grouped (edges : Table (Uuid × Uuid) (Option Uuid)) : Prop where
  acyclic : Digraph.Acyclic (fun t d => edges.get? (t, d) ≠ none)
  chained : ∀ u v w g g', edges.get? (u, v) = some (some g) →
    edges.get? (v, w) = some g' → g' = some g

theorem Grouped.empty : Grouped Table.empty := by
  refine ⟨?_, ?_⟩
  · intro t hcycle
    obtain ⟨d, hd, _⟩ := TransGen.head'_iff.mp hcycle
    exact hd (get?_empty _)
  · intro _ _ _ _ _ h
    rw [get?_empty] at h
    cases h

/-- A new job with edges out of it keeps the invariant. -/
theorem Grouped.submit {edges : Table (Uuid × Uuid) (Option Uuid)} (h : Grouped edges)
    {dependencies : List Uuid} (ht : t ∉ dependencies)
    (hfresh : ∀ u v g, edges.get? (u, v) = some g → u ≠ t ∧ v ≠ t) :
    Grouped (edges.insertAll (dependencies.map (fun d => ((t, d), none)))) := by
  have hcases : ∀ u v g,
      (edges.insertAll (dependencies.map (fun d => ((t, d), none)))).get? (u, v) = some g →
      edges.get? (u, v) = some g ∨ u = t ∧ v ∈ dependencies ∧ g = none := by
    intro u v g huv
    rcases get?_insertAll_cases _ _ huv with hold | ⟨_, hmem⟩
    · exact .inl hold
    · obtain ⟨d, hd, heq⟩ := List.mem_map.mp hmem
      obtain ⟨hkey, hg⟩ := Prod.mk.inj heq
      obtain ⟨hu, hv⟩ := Prod.mk.inj hkey
      rw [← hv]
      exact .inr ⟨hu.symm, hd, hg.symm⟩
  refine ⟨?_, ?_⟩
  · have hgrown : Digraph.Acyclic
        (fun u v => edges.get? (u, v) ≠ none ∨ u = t ∧ v ∈ dependencies) := by
      refine h.acyclic.add_source ?_ ht
      intro u hu
      obtain ⟨g, hg⟩ := ne_none_iff_exists'.mp hu
      exact (hfresh u t g hg).2 rfl
    refine hgrown.mono ?_
    intro u v huv
    obtain ⟨g, hg⟩ := ne_none_iff_exists'.mp huv
    rcases hcases u v g hg with hold | ⟨hu, hv, _⟩
    · exact .inl (by rw [hold]; exact some_ne_none g)
    · exact .inr ⟨hu, hv⟩
  · intro u v w g g' huv hvw
    rcases hcases u v (some g) huv with huv | ⟨_, _, hn⟩
    · rcases hcases v w g' hvw with hvw | ⟨hv, _, _⟩
      · exact h.chained u v w g g' huv hvw
      · exact absurd hv (hfresh u v _ huv).2
    · cases hn

/-- An edge added to a group keeps the invariant: the check of the group alone
    is enough, because no path leaves the group. -/
theorem Grouped.link (h : Grouped a.edges) {g : Uuid} (hcan : CanLink a t d g job) :
    Grouped (a.edges.insert (t, d) (some g)) := by
  refine ⟨?_, ?_⟩
  · refine (h.acyclic.union_closed hcan.acyclic ?_).mono ?_
    · intro u v w huv hvw
      obtain ⟨g', hg'⟩ := ne_none_iff_exists'.mp hvw
      rcases huv with heq | huv
      · obtain ⟨_, hv⟩ := Prod.mk.inj heq
        rw [hg', hcan.grouped v w g' hg' (.inr (.inl hv))]
        exact .inr rfl
      · rw [hg', h.chained u v w g g' huv hg']
        exact .inr rfl
    · intro u v huv
      obtain ⟨g', hg'⟩ := ne_none_iff_exists'.mp huv
      rcases get?_insert_cases hg' with ⟨hkey, _⟩ | hold
      · exact .inr (.inl hkey)
      · exact .inl (by rw [hold]; exact some_ne_none g')
  · intro u v w g₁ g₂ huv hvw
    rcases get?_insert_cases huv with ⟨hkey, hg₁⟩ | huv
    · obtain ⟨_, hv⟩ := Prod.mk.inj hkey
      rcases get?_insert_cases hvw with ⟨_, hg₂⟩ | hvw
      · rw [hg₂, hg₁]
      · rw [hg₁]
        exact hcan.grouped v w g₂ hvw (.inr (.inl hv))
    · rcases get?_insert_cases hvw with ⟨hkey, hg₂⟩ | hvw
      · obtain ⟨hv, _⟩ := Prod.mk.inj hkey
        rw [hg₂]
        exact (hcan.grouped u v _ huv (.inr (.inr (.inl hv)))).symm
      · exact h.chained u v w g₁ g₂ huv hvw

/-- One step keeps the graph invariant. -/
theorem Grouped.step (h : Grouped a.edges) (hlife : Lifecycle a) (hstep : Step R a b) :
    Grouped b.edges := by
  cases hstep with
  | submit t _ _ _ _ hnew _ hdeps =>
    refine h.submit (fun ht => hdeps t ht hnew) ?_
    intro u v g huv
    obtain ⟨hu, hv⟩ := hlife.ends u v g huv
    exact ⟨fun hut => hu (hut ▸ hnew), fun hvt => hv (hvt ▸ hnew)⟩
  | link _ _ _ _ hcan => exact h.link hcan
  | _ => exact h

end Cluster

end MiniAiCloud
