import MiniAiCloud.ChronicleProofs
import MiniAiCloud.ReservationProofs

/-! # Preemption plans match the status of their victims

    A plan is opened with the status change that asks its victim to stop, and is
    completed with the one that ends it, whichever call that is.  What happens to
    the incoming task in the meantime does not touch the plan. -/

namespace MiniAiCloud

open Reachability Chronicle Table List

/-! ## Open plans -/

/-- The plans that still ask this task to stop. -/
def openPlans (plans : List PreemptionPlan) (t : Uuid) : List PreemptionPlan :=
  plans.filter (fun plan => plan.victimTaskId = t ∧ plan.state = .requested)

section Plans

variable {plans : List PreemptionPlan} {t u : Uuid} {now : Time}

theorem mem_openPlans {plan : PreemptionPlan} : plan ∈ openPlans plans t
      ↔ plan ∈ plans ∧ plan.victimTaskId = t ∧ plan.state = .requested := by
  rw [openPlans, mem_filter, decide_eq_true_iff]

/-- A plan that is still open was not completed. -/
theorem completedFor_open {plan : PreemptionPlan}
    (h : (plan.completedFor t now).state = .requested) : plan.completedFor t now = plan := by
  by_cases hmine : plan.victimTaskId = t ∧ plan.state = .requested
  · rw [PreemptionPlan.completedFor, if_pos hmine] at h
    cases h
  · exact if_neg hmine

theorem completedFor_victim (plan : PreemptionPlan) (t : Uuid) (now : Time) :
    (plan.completedFor t now).victimTaskId = plan.victimTaskId := by
  by_cases hmine : plan.victimTaskId = t ∧ plan.state = .requested
  · rw [PreemptionPlan.completedFor, if_pos hmine]
  · rw [PreemptionPlan.completedFor, if_neg hmine]

/-- Completing closes every open plan of the task. -/
theorem openPlans_completed_self :
    openPlans (plans.map (fun plan => plan.completedFor t now)) t = [] := by
  refine filter_eq_nil_iff.mpr ?_
  intro _ hplan hopen
  obtain ⟨_, _, rfl⟩ := mem_map.mp hplan
  obtain ⟨hvic, hreq⟩ := of_decide_eq_true hopen
  have heq := completedFor_open hreq
  rw [heq] at hvic hreq
  rw [PreemptionPlan.completedFor, if_pos ⟨hvic, hreq⟩] at heq
  rw [← heq] at hreq
  cases hreq

/-- The open plans of the other tasks stay as they are. -/
theorem openPlans_completed_other (hne : u ≠ t) :
    openPlans (plans.map (fun plan => plan.completedFor t now)) u = openPlans plans u := by
  induction plans with
  | nil => rfl
  | cons plan _ ih =>
    rw [openPlans, openPlans] at ih ⊢
    rw [map_cons, filter_cons, ih, filter_cons]
    by_cases hmine : plan.victimTaskId = t ∧ plan.state = .requested
    · -- the victim is the other task before and after
      have hvic : plan.victimTaskId ≠ u := fun heq => hne (heq.symm.trans hmine.1)
      rw [if_neg, if_neg]
      · exact fun hopen => hvic (of_decide_eq_true hopen).1
      · intro hopen
        have hsame := (of_decide_eq_true hopen).1
        rw [completedFor_victim] at hsame
        exact hvic hsame
    · have hsame : plan.completedFor t now = plan := if_neg hmine
      rw [hsame]

end Plans

/-! ## The invariant -/

/-- The task was asked to stop for another one. -/
def Chronicle.Asked (c : Chronicle) (t : Uuid) : Prop :=
  ∃ e, c.entries.get? t = some e ∧ e.status = .preempting

/-- A task that was asked has one open plan, no other task has one, and the open
    plans of an incoming task name one worker. -/
structure Chronicle.Planned (c : Chronicle) : Prop where
  asked : ∀ t, c.Asked t → ∃ plan, openPlans c.plans t = [plan]
  idle : ∀ t, ¬ c.Asked t → openPlans c.plans t = []
  worker : ∀ plan ∈ c.plans, ∀ other ∈ c.plans, plan.state = .requested →
    other.state = .requested → plan.incomingTaskId = other.incomingTaskId →
    plan.workerId = other.workerId

section Deeds

variable {T : Terms} {c c' : Chronicle} {u : Uuid} {e e' : Entry}

theorem asked_of_ne {t : Uuid} (hents : c'.entries = c.entries.set u e') (hne : t ≠ u) :
    c'.Asked t ↔ c.Asked t := by
  rw [Chronicle.Asked, Chronicle.Asked, hents, get?_set_ne _ _ hne]

theorem asked_self (hent : c.entries.get? u = some e) :
    c.Asked u ↔ e.status = .preempting := by
  constructor
  · rintro ⟨_, hf, hst⟩
    rw [hent] at hf
    rw [Option.some.inj hf]
    exact hst
  · exact fun hst => ⟨e, hent, hst⟩

/-- Neither the plans nor who was asked is touched. -/
theorem Chronicle.Planned.same (h : c.Planned) (hplans : c'.plans = c.plans)
    (hasked : ∀ t, c'.Asked t ↔ c.Asked t) : c'.Planned := by
  refine ⟨?_, ?_, ?_⟩
  · intro t ht
    rw [hplans]
    exact h.asked t ((hasked t).mp ht)
  · intro t ht
    rw [hplans]
    exact h.idle t (fun hc => ht ((hasked t).mpr hc))
  · rw [hplans]
    exact h.worker

/-- An entry is rewritten that is not asked to stop, before or after. -/
theorem Chronicle.Planned.set (h : c.Planned) (hplans : c'.plans = c.plans)
    (hent : c.entries.get? u = some e) (hents : c'.entries = c.entries.set u e')
    (heq : e'.status = .preempting ↔ e.status = .preempting) : c'.Planned := by
  refine h.same hplans ?_
  intro t
  by_cases htu : t = u
  · subst htu
    have hnew : c'.entries.get? t = some e' := by
      rw [hents]
      exact get?_set_self hent _
    rw [asked_self hnew, asked_self hent]
    exact heq
  · exact asked_of_ne hents htu

/-- A plan is opened for a task that was not asked yet. -/
theorem Chronicle.Planned.opened {plan : PreemptionPlan} (h : c.Planned)
    (hent : c.entries.get? u = some e) (hidle : e.status ≠ .preempting)
    (hents : c'.entries = c.entries.set u e') (hasks : e'.status = .preempting)
    (hplans : c'.plans = c.plans ++ [plan]) (hvic : plan.victimTaskId = u)
    (hreq : plan.state = .requested)
    (hwk : ∀ other ∈ c.plans, other.incomingTaskId = plan.incomingTaskId →
      other.state = .requested → other.workerId = plan.workerId) : c'.Planned := by
  have hnew : c'.entries.get? u = some e' := by
    rw [hents]
    exact get?_set_self hent _
  have hn := h.idle u (fun hasked => hidle ((asked_self hent).mp hasked))
  have hself : openPlans c'.plans u = [plan] := by
    rw [hplans, openPlans, filter_append, ← openPlans, hn, nil_append]
    exact filter_eq_self.mpr (fun other hoth => by
      rw [mem_singleton.mp hoth]
      exact decide_eq_true ⟨hvic, hreq⟩)
  have hoth : ∀ t, t ≠ u → openPlans c'.plans t = openPlans c.plans t := by
    intro t htu
    rw [hplans, openPlans, filter_append, ← openPlans]
    have hskip : [plan].filter
        (fun plan => decide (plan.victimTaskId = t ∧ plan.state = .requested)) = [] :=
      filter_eq_nil_iff.mpr (fun found hf hopen => htu (by
        rw [mem_singleton.mp hf] at hopen
        exact (of_decide_eq_true hopen).1.symm.trans hvic))
    rw [hskip, append_nil]
  refine ⟨?_, ?_, ?_⟩
  · intro t ht
    by_cases htu : t = u
    · rw [htu]
      exact ⟨plan, hself⟩
    · rw [hoth t htu]
      exact h.asked t ((asked_of_ne hents htu).mp ht)
  · intro t ht
    have htu : t ≠ u := by
      rintro rfl
      exact ht ((asked_self hnew).mpr hasks)
    rw [hoth t htu]
    exact h.idle t (fun hc => ht ((asked_of_ne hents htu).mpr hc))
  · rw [hplans]
    intro p hp q hq hpr hqr hinc
    rcases mem_append.mp hp with hold | hlast
    · rcases mem_append.mp hq with hold' | hlast'
      · exact h.worker p hold q hold' hpr hqr hinc
      · rw [mem_singleton.mp hlast'] at hinc ⊢
        exact hwk p hold hinc hpr
    · rw [mem_singleton.mp hlast] at hinc ⊢
      rcases mem_append.mp hq with hold' | hlast'
      · exact (hwk q hold' hinc.symm hqr).symm
      · rw [mem_singleton.mp hlast']

/-- The plans of a task that ends are completed. -/
theorem Chronicle.Planned.completed {now : Time} (h : c.Planned)
    (hent : c.entries.get? u = some e) (hents : c'.entries = c.entries.set u e')
    (hended : e'.status ≠ .preempting)
    (hplans : c'.plans = c.plans.map (fun plan => plan.completedFor u now)) :
    c'.Planned := by
  have hnew : c'.entries.get? u = some e' := by
    rw [hents]
    exact get?_set_self hent _
  refine ⟨?_, ?_, ?_⟩
  · intro t ht
    have htu : t ≠ u := by
      rintro rfl
      exact hended ((asked_self hnew).mp ht)
    rw [hplans, openPlans_completed_other htu]
    exact h.asked t ((asked_of_ne hents htu).mp ht)
  · intro t ht
    rw [hplans]
    by_cases htu : t = u
    · rw [htu]
      exact openPlans_completed_self
    · rw [openPlans_completed_other htu]
      exact h.idle t (fun hc => ht ((asked_of_ne hents htu).mpr hc))
  · rw [hplans]
    intro p hp q hq hpr hqr hinc
    obtain ⟨p, hpold, rfl⟩ := mem_map.mp hp
    obtain ⟨q, hqold, rfl⟩ := mem_map.mp hq
    have hp' := completedFor_open hpr
    have hq' := completedFor_open hqr
    rw [hp', hq'] at hinc
    rw [hp'] at hpr ⊢
    rw [hq'] at hqr ⊢
    exact h.worker p hpold q hqold hpr hqr hinc

/-- A job that waits or launches is not asked, and is not asked by a change. -/
theorem Entry.Changes.unasked {target : TaskStatus} (h : e.Changes T target e') :
    e.status ≠ .preempting ∧ target ≠ .preempting := by
  rcases h.kind with ⟨hwaits, htgt⟩ | ⟨hlau, htgt⟩
  · refine ⟨?_, ?_⟩
    · revert hwaits
      cases e.status <;> decide
    · revert htgt
      cases target <;> decide
  · refine ⟨?_, ?_⟩
    · revert hlau
      cases e.status <;> decide
    · revert htgt
      cases target <;> decide

/-- **EVERY DEED** keeps the plans and the statuses in step. -/
theorem Chronicle.Planned.deed (h : c.Planned) (hdeed : Deed T c c') : c'.Planned := by
  have hlaunching : ∀ s ∈ launchStatuses, s ≠ .preempting := by decide
  cases hdeed with
  | openDay p hnew | roll p day hday => exact h.same rfl (fun _ => Iff.rfl)
  | create t e _ hnew hst =>
    refine h.same rfl ?_
    intro u
    show (∃ found, (c.entries.insert t e).get? u = some found ∧ _) ↔ c.Asked u
    by_cases hut : u = t
    · rw [hut, get?_insert_self hnew]
      constructor
      · rintro ⟨_, hf, hasks⟩
        rw [← Option.some.inj hf, hst] at hasks
        cases hasks
      · rintro ⟨_, hf, _⟩
        rw [hnew] at hf
        cases hf
    · rw [get?_insert_ne _ _ hut]
      exact Iff.rfl
  | adjust _ _ _ hent hadj =>
    exact h.set rfl hent rfl (by rw [hadj.status])
  | change _ _ _ _ _ hent hchg =>
    obtain ⟨hbef, hafter⟩ := hchg.unasked
    refine h.set rfl hent rfl ?_
    rw [hchg.status]
    exact ⟨fun hs => absurd hs hafter, fun hs => absurd hs hbef⟩
  | assign _ _ _ _ _ _ _ hasg =>
    refine h.set rfl hasg.entry rfl ?_
    rw [hasg.status, hasg.queued]
    decide
  | preempt _ _ _ _ _ hent hlau _ hwk =>
    exact h.opened hent (hlaunching _ hlau) rfl rfl rfl rfl rfl hwk
  | finish _ e target _ hent _ _ hfin =>
    have hended : target ≠ .preempting := by
      revert hfin
      cases target <;> decide
    by_cases hasked : e.status = .preempting
    · exact h.completed hent rfl hended (if_pos hasked)
    · exact h.set (if_neg hasked) hent rfl
        ⟨fun hs => absurd hs hended, fun hs => absurd hs hasked⟩
  | release =>
    exact h.same rfl (fun _ => Iff.rfl)
  | requeue _ e _ _ hent hchs =>
    refine h.set rfl hent rfl ?_
    have hended : e.status ≠ .preempting := by
      cases hchs with
      | retry hst =>
        rcases hst with hs | hs
        · rw [hs]
          decide
        · rw [hs]
          decide
      | recovery hst =>
        rw [hst]
        decide
      | preempted hst =>
        rw [hst]
        decide
    exact ⟨TaskStatus.noConfusion, fun hs => absurd hs hended⟩

end Deeds

/-! ## Runs -/

/-- What the plans say about the tasks. -/
structure PreemptionBookkeeping (db : Db) : Prop where
  preempting_iff : ∀ t task, db.tasks.get? t = some task →
    (task.status = .preempting
      ↔ ∃ plan ∈ db.preemptionPlans, plan.victimTaskId = t ∧ plan.state = .requested)
  victims : ∀ plan ∈ db.preemptionPlans, plan.state = .requested →
    ∃ task, db.tasks.get? plan.victimTaskId = some task ∧ task.status = .preempting
  single : ∀ t task, db.tasks.get? t = some task → task.status = .preempting →
    ∃ plan, openPlans db.preemptionPlans t = [plan]
  worker : ∀ plan ∈ db.preemptionPlans, ∀ other ∈ db.preemptionPlans,
    plan.state = .requested → other.state = .requested →
    plan.incomingTaskId = other.incomingTaskId → plan.workerId = other.workerId
  reserved : ∀ t task, db.tasks.get? t = some task → task.status = .preempting →
    ∃ x r, task.executionId = some x ∧ Active db x r ∧ r.taskId = t

theorem Chronicle.Planned.empty : Chronicle.empty.Planned := by
  refine ⟨?_, fun t _ => rfl, fun plan hplan => absurd hplan not_mem_nil⟩
  rintro t ⟨e, he, _⟩
  cases he

/-- **PREEMPTION BOOKKEEPING** in every reachable state. -/
theorem preemption_bookkeeping (db : Db) (h : Reach controlPlane finalReports db) :
    PreemptionBookkeeping db := by
  have hpln := (reach_records Call.terms (fun _ _ hi => hi)
    (fun i _ _ => i.agrees_terms) Planned.empty (fun _ _ _ hc hdeed => hc.deed hdeed) h).2
  have haccs := reach_accounts h
  have hasked : ∀ {t task}, db.tasks.get? t = some task →
      (db.chronicle.Asked t ↔ task.status = .preempting) :=
    fun hrow => asked_self (chronicle_entry hrow)
  have hvics : ∀ plan ∈ db.preemptionPlans, plan.state = .requested →
      db.chronicle.Asked plan.victimTaskId := by
    intro plan hplan hreq
    by_contra hidle
    have hopen := mem_openPlans.mpr ⟨hplan, rfl, hreq⟩
    have hn : openPlans db.preemptionPlans plan.victimTaskId = [] := hpln.idle _ hidle
    rw [hn] at hopen
    cases hopen
  refine ⟨?_, ?_, ?_, hpln.worker, ?_⟩
  · intro t _ hrow
    constructor
    · intro hst
      obtain ⟨plan, hplan⟩ := hpln.asked t ((hasked hrow).mpr hst)
      have hmem : plan ∈ openPlans db.chronicle.plans t := by
        rw [hplan]
        exact mem_singleton_self plan
      obtain ⟨hin, hvic, hreq⟩ := mem_openPlans.mp hmem
      exact ⟨plan, hin, hvic, hreq⟩
    · rintro ⟨plan, hplan, rfl, hreq⟩
      exact (hasked hrow).mp (hvics plan hplan hreq)
  · intro plan hplan hreq
    obtain ⟨e, hent, hst⟩ := hvics plan hplan hreq
    obtain ⟨task, hrow, rfl⟩ := get?_map_eq_some.mp hent
    exact ⟨task, hrow, hst⟩
  · intro t _ hrow hst
    exact hpln.asked t ((hasked hrow).mpr hst)
  · intro t task hrow hst
    have hheld : task.status ∈ holdingStatuses := by
      rw [hst]
      decide
    obtain ⟨x, r, hact, ht⟩ := (haccs.active_iff hrow).mpr hheld
    obtain ⟨_, hown, hx, _⟩ := haccs.current hact
    rw [ht, hrow] at hown
    rw [← Option.some.inj hown] at hx
    exact ⟨x, r, hx, hact, ht⟩

/-- The worker as a scheduler sees it: its only place is taken. -/
def fullWorker : WorkerSnapshot where
  id := "w"
  status := .online
  runtimeTypes := ["docker"]
  runningTasks := 1
  concurrency := 1
  cpuAllocatableMillicores := 4000
  reservedCpuMillicores := 500
  memoryAllocatableMb := 4096
  reservedMemoryMb := 128

/-- A task that may be preempted runs when a more important one is queued. -/
def preemptedCalls : List Call :=
  [⟨0, registerWorker⟩,
   ⟨1, .createQueued 1 { halfCoreTask [] with preemptible := true, priority := 10 }⟩,
   ⟨2, .claim 1 "w" 11 30 none standardPrices []⟩,
   ⟨3, .createQueued 2 { halfCoreTask [] with priority := 90 }⟩,
   ⟨4, .requestPreemption 2 [fullWorker] 90 10 []⟩]

def preemptedCloud : Db := controlPlane.run preemptedCalls freshCloud

/-- The victim has one plan and keeps its reservation. -/
theorem preemption_bookkeeping_of_a_victim : ∃ task,
    preemptedCloud.tasks.get? 1 = some task ∧ task.status = .preempting
      ∧ (∃ plan, openPlans preemptedCloud.preemptionPlans 1 = [plan])
      ∧ ∃ x r, task.executionId = some x ∧ Active preemptedCloud x r ∧ r.taskId = 1 := by
  have hpre : (preemptedCloud.tasks.get? 1).map (·.status)
      = some .preempting := by decide +kernel
  obtain ⟨task, hrow, hst⟩ := Option.map_eq_some_iff.mp hpre
  have hbooks := preemption_bookkeeping preemptedCloud (freshCloud_final _ (by decide))
  exact ⟨task, hrow, hst, hbooks.single 1 task hrow hst, hbooks.reserved 1 task hrow hst⟩

end MiniAiCloud
