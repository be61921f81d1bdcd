import MiniAiCloud.SettlementDeeds

/-! # Assignment and preemption as deeds

    `claim` logs one event and `place` two, through a status no row ever keeps;
    both mint the next attempt.  Preemption opens one plan for each victim, and
    only where no plan of the incoming task is open. -/

namespace MiniAiCloud

open Transaction Chronicle Table

variable {task : Task} {devices : List (Uuid × GpuDevice)} {request : PlacementRequest}
  {u : Unit} {worker : Worker} {x incoming : Uuid} {locked : List Uuid}

/-! ## Assignment -/

section Assignments

variable {T : Terms} {db mid db' : Db} {t : Uuid} {w : WorkerId}

theorem chronicle_lastAttempt (db : Db) (t : Uuid) :
    db.chronicle.lastAttempt t = previousAttempt db t := by
  show (((db.executions.map TaskExecution.bill).select _).map _).foldl max 0 = _
  rw [select_map, List.map_map]
  rfl

/-- The bill of a new execution. -/
def Assignment.bill (task : Task) (t : Uuid) (attempt : ℤ) : Bill where
  task := t
  attempt := attempt
  cpu := task.cpuMillicores
  memory := task.memoryLimitMb
  gpus := task.gpuCount
  runtime := task.runtimeType

/-- What the writes of an assignment come to. -/
theorem assign_records {a : Assignment} (h : assign T.now t task worker a db = .ok u db') :
    db.executions.get? a.executionId = none ∧ db.reservations.get? a.executionId = none
      ∧ ∃ day, db.chronicle.days.get? task.projectId = some day
        ∧ db'.chronicle = { db.chronicle with
            entries := db.chronicle.entries.set t task.entry
            bills := db.chronicle.bills.insert a.executionId
              (Assignment.bill task t (previousAttempt db t + 1))
            stubs := db.chronicle.stubs.insert a.executionId ⟨t, task.projectId, none⟩
            days := db.chronicle.days.set task.projectId (day.rolled T.now) } := by
  rw [assign, bind_get] at h
  simp only [bind_ok, modify_ok] at h
  obtain ⟨_, db₁, hwks, _, _, hexec, _, db₃, hres, _, _, hbind, _, db₅,
    hexact, _, _, hquota, hsave⟩ := h
  obtain ⟨hx, hdb₂⟩ := insertExecution_ok hexec
  obtain ⟨_, hr, hdb₃⟩ := insertReservation_ok hres
  obtain ⟨_, _, hdb₄⟩ := bindDevices_ok hbind
  obtain ⟨day, hday, hdb₆⟩ := (reserveExecution_day hquota).chronicle
  have h₁ : db₁.chronicle = db.chronicle := by
    rw [hwks]
    rfl
  have h₃ : db₃.chronicle = { db.chronicle with
      bills := db.chronicle.bills.insert a.executionId
        (Assignment.bill task t (previousAttempt db t + 1))
      stubs := db.chronicle.stubs.insert a.executionId ⟨t, task.projectId, none⟩ } := by
    rw [hdb₃, hdb₂, ← h₁]
    show Chronicle.mk _ _ _ ((db₁.executions.insert _ _).map _)
      ((db₁.reservations.insert _ _).map _) _ _ = _
    rw [map_insert, map_insert]
    rfl
  have h₅ : db₅.chronicle = db₃.chronicle := by
    rw [(assertExactDeviceBinding_reads _ _).of_ok hexact, hdb₄]
    rfl
  rw [h₅, h₃] at hday
  rw [hwks] at hx
  rw [hdb₂, hwks] at hr
  refine ⟨hx, hr, day, hday, ?_⟩
  rw [saveTask_ok.mp hsave, chronicle_save, hdb₆, h₅, h₃, Day.plus_zero]
  rfl

/-- **AN ASSIGNMENT**: the day of the project is rolled and the next attempt is
    minted. -/
theorem assign_tells {old : Task} {a : Assignment} {events : List TaskEvent}
    (h : assign T.now t task worker a { db with taskEvents := db.taskEvents ++ events }
      = .ok u db') (hrow : db.tasks.get? t = some old) (hque : old.status = .queued)
    (hspec : task.toTaskSpec = old.toTaskSpec) (hst : task.status = .assigned)
    (hexec : task.executionId = some a.executionId) (hbeg : task.startedAt = none)
    (hrtr : task.retryCount = old.retryCount)
    (hrecs : task.recoveryCount = old.recoveryCount)
    (hpre : task.preemptionCount = old.preemptionCount)
    (hleads : Leads t old.status old.version events .assigned task.version)
    (hquiet : ∀ event ∈ events, event.status ≠ .running) : Tells T db db' := by
  obtain ⟨hx, hr, day, hday, hlast⟩ := assign_records h
  have hroll : Deed T db.chronicle { db.chronicle with
      days := db.chronicle.days.set task.projectId (day.rolled T.now) } :=
    Deed.roll task.projectId day hday
  have hatt : previousAttempt { db with taskEvents := db.taskEvents ++ events } t + 1
      = db.chronicle.lastAttempt t + 1 := by
    rw [chronicle_lastAttempt]
    rfl
  have hasg : Assigns { db.chronicle with
        days := db.chronicle.days.set task.projectId (day.rolled T.now) } t a.executionId
      old.entry task.entry events
      (Assignment.bill task t (db.chronicle.lastAttempt t + 1)) ⟨t, task.projectId, none⟩ := {
    entry := chronicle_entry hrow
    queued := hque
    bill_fresh := get?_map_eq_none.mpr hx
    stub_fresh := get?_map_eq_none.mpr hr
    bill_task := rfl
    bill_attempt := rfl
    bill_runtime := congrArg TaskSpec.runtimeType hspec
    stub_task := rfl
    stub_active := rfl
    spec := hspec
    status := hst
    execution := hexec
    startedAt := hbeg
    retries := hrtr
    recoveries := hrecs
    preemptions := hpre
    leads := hleads
    quiet := hquiet }
  rw [hatt] at hlast
  rw [Tells, hlast]
  exact (Relation.ReflTransGen.single hroll).trans (.single (.assign _ _ _ _ _ _ _ hasg))

/-- The checks of an assignment roll the day of the project. -/
theorem claimable_tells {session : Option Uuid}
    (h : claimable T.now t w session locked db = .ok (task, worker, devices) mid) :
    Tells T db mid := by
  rw [claimable, bind_get] at h
  simp only [bind_ok, expect_ok, raiseIf_ok, pure_ok, not_not] at h
  obtain ⟨_, _, ⟨_, rfl⟩, _, _, ⟨_, rfl⟩, _, _, hlock, _, _, ⟨_, rfl⟩, _, _, ⟨_, rfl⟩, _, _,
    ⟨_, rfl⟩, _, _, ⟨_, rfl⟩, _, _, ⟨_, rfl⟩, _, rfl⟩ := h
  exact (getLocked_day hlock).tells

theorem claim_tells {lease : ℚ} {session : Option Uuid} {prices : Prices} {result : Task × Uuid}
    (h : claim T.now t w x lease session prices locked db = .ok result db') :
    Tells T db db' := by
  simp only [claim, bind_ok, pure_ok] at h
  obtain ⟨⟨task, _, _⟩, mid, hclm, _, _, htr, _, _, hasg, _, rfl⟩ := h
  obtain ⟨hclr, _, _⟩ := claimable_ok hclm
  obtain ⟨hcan, rfl, _, hlogs, rfl⟩ := transition_logs htr
  have hrow : mid.tasks.get? t = some task := by
    rw [hclr.moves.tasks]
    exact hclr.row
  refine (claimable_tells hclm).trans
    (assign_tells hasg hrow hclr.queued rfl rfl rfl rfl rfl rfl rfl ?_ ?_)
  · refine Leads.step hlogs.task hlogs.before ?_ ?_ ?_
    · rw [hlogs.after]
      exact hcan
    · rw [hlogs.sequence]
      exact lt_add_one task.version
    · rw [hlogs.after]
      exact .done hlogs.sequence.le
  · intro _ hev
    rw [List.mem_singleton.mp hev, hlogs.after]
    decide

theorem placeable_tells (h : placeable T.now t w request db = .ok (task, worker, devices) mid) :
    Tells T db mid := by
  rw [placeable, bind_get] at h
  simp only [bind_ok, expect_ok, raiseIf_ok, pure_ok] at h
  obtain ⟨_, _, ⟨_, rfl⟩, _, _, ⟨_, rfl⟩, _, _, hlock, _, _, ⟨_, rfl⟩, _, _, ⟨_, rfl⟩, _, _,
    ⟨_, rfl⟩, _, _, ⟨_, rfl⟩, _, _, ⟨_, rfl⟩, _, _, ⟨_, rfl⟩, _, _, ⟨_, rfl⟩, _, _,
    hdevs, _, _, hcheck, _, rfl⟩ := h
  rw [(checkPlacement_reads _ _ _ _ _).of_ok hcheck, (placementDevices_ok hdevs).1]
  exact (getLocked_day hlock).tells

/-- A placement logs that the task is scheduled and that it is assigned. -/
theorem markPlaced_leads {marked : Task}
    (h : markPlaced T.now t task w x request devices db = .ok marked db') :
    ∃ events, db' = { db with taskEvents := db.taskEvents ++ events }
      ∧ Leads t task.status task.version events .assigned marked.version
      ∧ ∀ event ∈ events, event.status ≠ .running := by
  simp only [markPlaced, ensureTransition, recordTaskEvent, recordEvent, bind_ok, raiseIf_ok,
    modify_ok, pure_ok, not_not] at h
  obtain ⟨_, _, ⟨hscheduling, rfl⟩, _, _, rfl, _, _, ⟨hasg, rfl⟩, _, _, rfl, rfl, rfl⟩ := h
  refine ⟨_, by rw [List.append_assoc], ?_, ?_⟩
  · refine Leads.step rfl rfl hscheduling (lt_add_one _) ?_
    exact .step rfl rfl hasg (lt_add_one _) (.done (le_refl _))
  · intro _ hev
    rcases List.mem_append.mp hev with hfirst | hsec
    · rw [List.mem_singleton.mp hfirst]
      exact fun heq => TaskStatus.noConfusion heq
    · rw [List.mem_singleton.mp hsec]
      exact fun heq => TaskStatus.noConfusion heq

/-- The columns of a row that `place` marked. -/
theorem markPlaced_row {marked : Task}
    (h : markPlaced T.now t task w x request devices db = .ok marked db') :
    marked.entry = { task.entry with
      status := .assigned
      version := task.version + 1 + 1
      execution := some x
      startedAt := none
      lease := some (T.now + request.leaseSeconds)
      handled := false } := by
  simp only [markPlaced, ensureTransition, recordTaskEvent, recordEvent, bind_ok, raiseIf_ok,
    modify_ok, pure_ok, not_not] at h
  obtain ⟨_, _, _, _, _, _, _, _, _, _, _, _, rfl, _⟩ := h
  rfl

theorem place_tells {result : Task × Uuid} (h : place T.now t w x request db = .ok result db') :
    Tells T db db' := by
  simp only [place, bind_ok, pure_ok] at h
  obtain ⟨⟨task, _, _⟩, mid, hplc, _, _, hmark, _, _, hasg, _, rfl⟩ := h
  obtain ⟨hclr, _, _⟩ := placeable_ok hplc
  have hent := markPlaced_row hmark
  obtain ⟨_, rfl, hleads, hquiet⟩ := markPlaced_leads hmark
  have hrow : mid.tasks.get? t = some task := by
    rw [hclr.moves.tasks]
    exact hclr.row
  exact (placeable_tells hplc).trans (assign_tells hasg hrow hclr.queued
    (congrArg Entry.spec hent) (congrArg Entry.status hent)
    (congrArg Entry.execution hent) (congrArg Entry.startedAt hent)
    (congrArg Entry.retries hent) (congrArg Entry.recoveries hent)
    (congrArg Entry.preemptions hent) hleads hquiet)

end Assignments

/-! ## Marking and preempting -/

section Preemption

variable {T : Terms} {db db' : Db}

theorem markUnschedulable_tells {t : Uuid} {reason : String} {marked : Bool}
    (h : markUnschedulable t reason db = .ok marked db') : Tells T db db' := by
  rw [markUnschedulable, bind_get] at h
  cases htask : queuedTask db t with
  | none =>
    simp only [htask] at h
    exact .of_pure h
  | some =>
    simp only [htask] at h
    split_ifs at h with hreas
    · obtain ⟨_, _, hsave, hpure⟩ := bind_ok.mp h
      obtain ⟨_, rfl⟩ := pure_ok.mp hpure
      exact saveTask_unread hsave (queuedTask_eq_some.mp htask).1 rfl
    · exact .of_pure h

/-- The open plans of a task name this worker. -/
def PlansOn (incoming : Uuid) (w : WorkerId) (plans : List PreemptionPlan) : Prop :=
  ∀ plan ∈ plans, plan.incomingTaskId = incoming → plan.state = .requested →
    plan.workerId = w

theorem preemptVictim_tells {v : Uuid} {w : WorkerId} {victim : Task}
    (hrow : db.tasks.get? v = some victim) (hlau : victim.status ∈ launchStatuses)
    (hplans : PlansOn incoming w db.preemptionPlans)
    (h : preemptVictim T.now incoming w v victim db = .ok u db') :
    Tells T db db' ∧ PlansOn incoming w db'.preemptionPlans := by
  simp only [preemptVictim, ensureTransition, recordTaskEvent, recordEvent, bind_ok,
    raiseIf_ok, modify_ok] at h
  obtain ⟨_, before, ⟨_, rfl⟩, _, _, hsave, _, _, hmid, hdb⟩ := h
  rw [saveTask_ok.mp hsave] at hmid
  rw [hmid] at hdb
  rw [hdb]
  refine ⟨?_, ?_⟩
  · refine .single ?_
    show Deed T before.chronicle (Chronicle.mk ((before.tasks.set v _).map _) _ _ _ _ _ _)
    rw [map_set]
    exact .preempt v incoming w victim.entry _ (chronicle_entry hrow) hlau
      ⟨rfl, rfl, rfl, rfl, fun _ => rfl, rfl⟩ hplans
  · intro plan hplan hinc hreq
    rcases List.mem_append.mp hplan with hold | hnew
    · exact hplans plan hold hinc hreq
    · rw [List.mem_singleton.mp hnew]

/-- **`request_preemption`** opens plans only where none of the incoming task is
    open. -/
theorem requestPreemption_tells {workers : List WorkerSnapshot} {priority delta : ℤ}
    {decision : Option PreemptionDecision}
    (h : requestPreemption T.now incoming workers priority delta locked db
      = .ok decision db') : Tells T db db' := by
  rcases requestPreemption_ok h with ⟨rfl, _⟩ | ⟨task, chosen, last, htask, hque, hplans,
    hcho, hvics, hsave, _⟩
  · exact .refl _
  obtain ⟨hnd, hspec⟩ := choosePreemption_victims hcho
  have hrows := fun row hmem => (hspec row hmem).imp_right fun hvic => hvic.2.1
  have hn : PlansOn incoming chosen.workerId db.preemptionPlans := by
    intro plan hmem hinc hreq
    have hin : plan ∈ requestedPlans db incoming :=
      (List.perm_insertionSort _ _).mem_iff.mpr (List.mem_filter.mpr
        ⟨hmem, decide_eq_true ⟨hinc, hreq⟩⟩)
    rw [hplans] at hin
    cases hin
  have htells := (preemptVictims_each Tells.refl Tells.trans
    (fun hrow hlaud hplans hfirst => preemptVictim_tells (T := T) hrow hlaud hplans hfirst)
    hnd hrows hn hvics).1
  exact htells.trans
    (saveTask_unread hsave (preemptVictims_incoming htask hque hnd hrows hvics) rfl)

end Preemption

end MiniAiCloud
