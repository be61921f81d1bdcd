import MiniAiCloud.ChronicleRefinement

/-! # The end of an execution as deeds

    A report writes the status, releases, completes the plans and may requeue; a
    recovery releases before it writes the status.  The release touches neither
    the entries nor the plans, so both are told in one order: the status with its
    event and the plans (`finish`), the release, the requeue. -/

namespace MiniAiCloud

open Transaction Cluster Chronicle Table

variable {task task' old : Task} {freed : Chronicle} {grace : ℚ} {recovered : Bool} {u : Unit}
  {x : Uuid} {report result : Report} {startedAt : Option Time} {target : TaskStatus}
  {r : ResourceReservation}

/-! ## Releasing -/

/-- What releasing an execution does to the records: nothing where nothing is held,
    else the stub is closed and the run is billed. -/
inductive Frees (T : Terms) (c : Chronicle) (t x : Uuid) (startedAt : Option Time) :
    Chronicle → Prop where
  | idle : Frees T c t x startedAt c
  | release (bill : Bill) (stub : Stub) (day : Day) (usage : Option UsageLedger)
      (hbill : c.bills.get? x = some bill) (hstub : c.stubs.get? x = some stub)
      (hactive : stub.releasedAt = none) (hday : c.days.get? stub.project = some day)
      (hsettles : Settles T c.ledger t x startedAt bill stub usage) :
      Frees T c t x startedAt (c.released x stub day usage T.now)

section Release

variable {T : Terms} {db mid db' : Db} {t x p : Uuid}

/-- A ledger row is what the execution used between its start and now. -/
theorem ledgerEntry_bills {execution : TaskExecution} {start : Time} (h : start ≤ T.now) :
    Bills T t execution.bill r.stub start (ledgerEntry t r execution start T.now) := by
  have hdur : max 0 (T.now - start) = T.now - start := max_eq_right (sub_nonneg.mpr h)
  refine ⟨rfl, rfl, rfl, rfl, h, ?_, ?_, ?_⟩
  · show max 0 (T.now - start) * _ / 1000 = _
    rw [hdur]
    rfl
  · show max 0 (T.now - start) * _ / 1024 = _
    rw [hdur]
    rfl
  · show max 0 (T.now - start) * _ = _
    rw [hdur]
    rfl

theorem settleLedger_settles {execution : TaskExecution} {settled : Option ℚ}
    (h : settleLedger T.now t x r execution startedAt db = .ok settled db') :
    ∃ usage, Settles T db.usageLedger t x startedAt execution.bill r.stub usage
      ∧ settled = usage.map (·.cost)
      ∧ db' = { db with usageLedger := match usage with
          | none => db.usageLedger
          | some row => db.usageLedger.insert x row } := by
  rw [settleLedger, bind_get] at h
  cases startedAt with
  | none =>
    obtain ⟨rfl, rfl⟩ := pure_ok.mp h
    exact ⟨none, Settles.unstarted rfl, rfl, rfl⟩
  | some start =>
    by_cases hsett : (db.usageLedger.get? x).isSome = true
    · simp only [hsett, if_true] at h
      obtain ⟨rfl, rfl⟩ := pure_ok.mp h
      exact ⟨none, Settles.settled (Option.isSome_iff_ne_none.mp hsett), rfl, rfl⟩
    · simp only [hsett, Bool.false_eq_true, if_false, bind_ok, raiseIf_ok, modify_ok,
        pure_ok] at h
      obtain ⟨_, _, ⟨hperiod, heq⟩, _, _, hdb, rfl, rfl⟩ := h
      rw [heq] at hdb
      have hnew : db.usageLedger.get? x = none := by
        cases hrow : db.usageLedger.get? x with
        | none => rfl
        | some =>
          rw [hrow] at hsett
          exact absurd rfl hsett
      exact ⟨some _, Settles.usage start _ rfl hnew
        (ledgerEntry_bills (not_lt.mp hperiod)), rfl, hdb⟩

/-- Giving the quota back settles the cost on the day of the project. -/
theorem releaseQuota_day {d : ResourceDemand} {reserved settled : ℚ} {date : Option Date}
    {r : ProjectQuotaState}
    (h : releaseQuota T.now p d reserved settled date db = .ok r db') :
    DayMoves T.now p settled db db' := by
  obtain ⟨_, s, _, ⟨_, hs, _⟩, _, _, _, _, _, hr, hdb⟩ := releaseQuota_ok.mp h
  refine ⟨s, r, hs, hdb, ?_⟩
  rw [hr, ← rollDailyState_day]
  rfl

theorem Day.rolled_rolled (day : Day) (now : Time) :
    (day.rolled now).rolled now = day.rolled now := by
  by_cases hd : day.date ≠ now.date
  · rw [Day.rolled, Day.rolled, if_pos hd]
    exact if_neg (fun hne => hne rfl)
  · have heq : day.rolled now = day := if_neg hd
    rw [heq, heq]

/-- The worker step of a release is not part of the records. -/
theorem releaseWorker_chronicle (h : releaseWorker r db = .ok u db') :
    ∃ workers, db' = { db with workers := workers } := by
  obtain ⟨workers, hdb, _⟩ := releaseWorker_ok h
  exact ⟨workers, hdb⟩

/-- **RELEASING** closes the stub of an active reservation and bills its run. -/
theorem releaseAndSettle_frees {final : TaskStatus} {reason : String}
    (h : releaseAndSettle T.now t task x final reason db = .ok (true, task') db') :
    Frees T db.chronicle t x task.startedAt db'.chronicle ∧ task'.entry = task.entry := by
  rw [releaseAndSettle, bind_get] at h
  cases hact : activeReservation db x with
  | none =>
    simp only [hact] at h
    obtain ⟨hfalse, _⟩ := pure_ok.mp h
    cases hfalse
  | some r =>
    simp only [hact, bind_ok, releaseRows, modify_ok, ↓bind_expect, pure_ok] at h
    obtain ⟨_, _, hlock, _, _, hwk, _, _, hrows, execution, hexec, _, mid₄, hexecs, _, _, hledg,
        _, mid₆, hquota, htask, rfl⟩ := h
    obtain ⟨hres, hrel⟩ := activeReservation_eq_some.mp hact
    obtain ⟨_, hmid₂⟩ := releaseWorker_chronicle hwk
    obtain ⟨usage, hstl, rfl, hmid₅⟩ := settleLedger_settles hledg
    have hrow : task'.entry = task.entry := by
      rw [← (Prod.mk.inj htask).2]
      rfl
    refine ⟨?_, hrow⟩
    obtain ⟨s, r₁, hs, hmid₁, hday₁⟩ := getLocked_day hlock
    obtain ⟨s', _, hs', hdb', hday₂⟩ := releaseQuota_day hquota
    -- the row the release finds is the locked one
    have hf : s' = r₁ := by
      rw [hmid₅, hexecs, hrows, hmid₂, hmid₁] at hs'
      have hset : (db.quotaStates.set r.projectId r₁).get? r.projectId = some s' := hs'
      rw [get?_set_self hs] at hset
      exact (Option.some.inj hset).symm
    have hledger₄ : mid₄.usageLedger = db.usageLedger := by
      rw [hexecs, hrows, hmid₂, hmid₁]
      rfl
    rw [hledger₄] at hstl
    have hsts : mid₆.chronicle = db.chronicle.released x r.stub s.day usage T.now := by
      rw [Db.chronicle]
      simp only [hdb', hmid₅, hexecs, hrows, hmid₂, hmid₁, Db.withQuotaState]
      rw [map_set_eq hexec, map_set, set_set, map_set, hday₂,
        hf, hday₁, Day.plus_zero, Day.rolled_rolled]
      · rfl
      · rfl
    rw [hsts]
    exact Frees.release execution.bill r.stub s.day usage (chronicle_bill hexec)
      (chronicle_stub hres) hrel (get?_map_of_some hs _) hstl

theorem releaseExecution_frees {w : Option WorkerId} {final : TaskStatus} {reason : String}
    (h : releaseExecution T.now t task w x final reason db = .ok task' mid) :
    Frees T db.chronicle t x task.startedAt mid.chronicle ∧ task'.entry = task.entry := by
  obtain ⟨⟨released, _⟩, between, hrel, hr⟩ := bind_ok.mp h
  dsimp only at hr
  cases released with
  | true =>
    rw [if_pos rfl] at hr
    obtain ⟨rfl, rfl⟩ := pure_ok.mp hr
    exact releaseAndSettle_frees hrel
  | false =>
    rw [if_neg Bool.false_ne_true] at hr
    obtain ⟨_, rfl, rfl⟩ := releaseAndSettle_idle hrel
    obtain ⟨_, last, hcap, hpure⟩ := bind_ok.mp hr
    obtain ⟨rfl, rfl⟩ := pure_ok.mp hpure
    have hquiet : last.chronicle = between.chronicle := by
      cases w with
      | none =>
        obtain ⟨_, rfl⟩ := pure_ok.mp hcap
        rfl
      | some =>
        rw [releaseWorkerCapacity, modify_ok] at hcap
        rw [hcap]
        rfl
    rw [hquiet]
    exact ⟨Frees.idle, rfl⟩

end Release

/-! ## Ending -/

/-- The records of a task whose execution ended, but for what it held. -/
def Chronicle.ended (c : Chronicle) (t : Uuid) (e : Entry) (target : TaskStatus)
    (event : TaskEvent) (now : Time) : Chronicle :=
  { c with
    entries := c.entries.set t { e with status := target, version := e.version + 1 }
    events := c.events ++ [event]
    plans := if e.status = .preempting
      then c.plans.map (fun plan => plan.completedFor t now) else c.plans }

section Ends

variable {T : Terms} {c c' : Chronicle} {t x : Uuid} {e : Entry}

/-- A release neither reads nor writes the log. -/
theorem Frees.logged {events : List TaskEvent}
    (h : Frees T { c with events := events } t x startedAt c') :
    ∃ freed, Frees T c t x startedAt freed ∧ c' = { freed with events := events } := by
  cases h with
  | idle => exact ⟨c, Frees.idle, rfl⟩
  | release bill stub day usage hbill hstub hact hday hstl =>
    exact ⟨_, Frees.release bill stub day usage hbill hstub hact hday hstl, rfl⟩

theorem Frees.kept (h : Frees T c t x startedAt c') :
    c'.entries = c.entries ∧ c'.events = c.events ∧ c'.plans = c.plans
      ∧ c'.bills = c.bills := by
  cases h with
  | idle => exact ⟨rfl, rfl, rfl, rfl⟩
  | release =>
    exact ⟨rfl, rfl, rfl, rfl⟩

/-- **THE END** of an execution: the status, then the release. -/
theorem Frees.ends {event : TaskEvent} (h : Frees T c t x e.startedAt c')
    (hent : c.entries.get? t = some e) (hexec : e.execution = some x)
    (hhol : e.status ∈ holdingStatuses) (halw : CanTransition e.status target)
    (hfin : target ∈ finalTaskStatuses) (hlogs : Logs T t e target event) :
    Deeds T c (c'.ended t e target event T.now) := by
  have hfinish : Deed T c (c.ended t e target event T.now) :=
    Deed.finish t e target event hent hhol halw hfin hlogs
  cases h with
  | idle => exact .single hfinish
  | release bill stub day usage hbill hstub hact hday hstl =>
    have hended : (c.ended t e target event T.now).entries.get? t
        = some { e with status := target, version := e.version + 1 } :=
      get?_set_self hent _
    have hrel := Deed.release (T := T) (c := c.ended t e target event T.now) t x _ bill
      stub day usage hended hfin hexec hbill hstub hact hday hstl
    exact (Relation.ReflTransGen.single hfinish).trans (Relation.ReflTransGen.single hrel)

end Ends

section Rows

variable {T : Terms} {db mid last db' : Db} {t x : Uuid} {task settled : Task}

theorem Task.transitioned_entry (h : target ≠ .running) (now : Time) :
    (task.transitioned target now).entry
      = { task.entry with status := target, version := task.version + 1 } := by
  show Entry.mk _ _ _ _ (if target = .running then _ else _) _ _ _ _ _ = _
  rw [if_neg h]
  rfl

/-- Columns written after the end; the row holds nothing any more. -/
theorem tellsOf_settled {execution : Option Uuid} {lease : Option Time}
    (hrow : db.tasks.get? t = some old) (hfin : task.status ∈ finalTaskStatuses)
    (hent : settled.entry = { task.entry with execution := execution, lease := lease })
    (hexec : execution = task.executionId ∨ execution = none) :
    TellsOf T t task db settled db := by
  have hidle : task.entry.status ∉ holdingStatuses := not_holding_of_final _ hfin
  refine tellsOf_adjust hrow ?_ (.inr (.inr (.inl hidle)))
  rw [hent]
  exact ⟨⟨rfl, rfl, rfl, rfl, hexec.imp_right (fun hn => ⟨hidle, hn⟩)⟩, rfl,
    le_refl _, rfl, id⟩

/-- A release keeps the row of the task. -/
theorem Frees.row {events : List TaskEvent} {plans : List PreemptionPlan}
    (hrow : db.tasks.get? t = some task) (h : Frees T db.chronicle t x startedAt freed)
    (hmid : mid.chronicle = { freed with events := events, plans := plans }) :
    ∃ old, mid.tasks.get? t = some old := by
  have hkept : mid.chronicle.entries.get? t = some task.entry := by
    rw [hmid, ← chronicle_entry hrow, ← h.kept.1]
  obtain ⟨old, hold, _⟩ := get?_map_eq_some.mp hkept
  exact ⟨old, hold⟩

/-- The end of the execution of a stored row: what it held is freed, its event is
    logged, its plans are completed and a settled row is in hand. -/
theorem Frees.tellsOf {event : TaskEvent} {execution : Option Uuid} {lease : Option Time}
    (hrow : db.tasks.get? t = some task)
    (hfreed : Frees T db.chronicle t x task.startedAt freed) (hx : task.executionId = some x)
    (hheld : task.status ∈ holdingStatuses) (hcan : CanTransition task.status target)
    (hfin : target ∈ finalTaskStatuses) (hlogs : Logs T t task.entry target event)
    (hmid : mid.chronicle = { freed with
      events := freed.events ++ [event]
      plans := if task.status = .preempting
        then freed.plans.map (fun plan => plan.completedFor t T.now) else freed.plans })
    (hent : settled.entry = { (task.transitioned target T.now).entry with
      execution := execution, lease := lease })
    (hexec : execution = task.executionId ∨ execution = none) :
    TellsOf T t task db settled mid := by
  have hends := hfreed.ends (chronicle_entry hrow) hx hheld hcan hfin hlogs
  have hmoved : target ≠ .running := by
    revert hfin
    cases target <;> decide
  have hlast : mid.chronicle.having t (task.transitioned target T.now).entry
      = freed.ended t task.entry target event T.now := by
    rw [hmid, Task.transitioned_entry hmoved]
    rfl
  have htold : TellsOf T t task db (task.transitioned target T.now) mid := by
    rw [TellsOf, chronicle_having hrow, hlast]
    exact hends
  obtain ⟨_, hold⟩ := hfreed.row hrow hmid
  exact htold.trans (tellsOf_settled hold hfin hent hexec)

/-- A retry asks for room in the queue, which at most rolls the day. -/
theorem admitRetry_tellsOf {p : Uuid} {admitted : Bool}
    (h : admitRetry T.now p db = .ok admitted db') :
    TellsOf T t task db task db' ∧ db'.tasks = db.tasks := by
  have hmoves : ∀ {db db'}, DayMoves T.now p 0 db db' →
      TellsOf T t task db task db' ∧ db'.tasks = db.tasks := by
    intro _ _ hday
    refine ⟨hday.tellsOf, ?_⟩
    obtain ⟨_, _, _, rfl, _⟩ := hday
    rfl
  rw [admitRetry, bind_get] at h
  split_ifs at h with hn
  · obtain ⟨_, rfl⟩ := pure_ok.mp h
    exact ⟨.quiet rfl rfl, rfl⟩
  · rcases catching_cases h with hadmit | ⟨e, mid, href, _, hhdr⟩
    · obtain ⟨r, _, hque, hpure⟩ := bind_ok.mp hadmit
      obtain ⟨_, rfl⟩ := pure_ok.mp hpure
      exact hmoves (admitQueued_day hque)
    · obtain ⟨_, rfl⟩ := pure_ok.mp hhdr
      rcases bind_error.mp href with hadmit | ⟨_, _, _, hpure⟩
      · rcases bind_error.mp (admitQueued_error hadmit) with hlock | ⟨snapshot, locked, hlock,
          hr⟩
        · rw [getLocked_error hlock]
          exact ⟨.quiet rfl rfl, rfl⟩
        · rcases bind_error.mp hr with hlim | ⟨_, _, _, hpure⟩
          · rw [(checkLimit_reads _ _ _).of_error hlim]
            exact hmoves (getLocked_day hlock)
          · exact absurd hpure pure_error
      · exact absurd hpure pure_error

/-- **THE REQUEUE** of a task on one of its budgets. -/
theorem tellsOf_requeue {charged moved : Task} {eventType : String}
    (hrow : db.tasks.get? t = some old) (hchs : task.entry.Charges T charged.entry)
    (h : transition t charged .retrying T.now eventType db = .ok moved db')
    (hent : settled.entry = { charged.entry with
      status := .retrying, version := charged.version + 1, execution := none }) :
    TellsOf T t task db settled db' := by
  obtain ⟨_, _, event, hlogs, rfl⟩ := transition_logs h
  have hdeed := Deed.requeue (T := T) t task.entry charged.entry event (having_entry hrow)
    hchs hlogs
  rw [TellsOf, hent, having_logged db event t task.entry]
  exact .single hdeed

end Rows

/-! ## A reported result -/

section Reports

variable {T : Terms} {db mid last db' : Db} {t : Uuid} {c : Caller}

theorem Task.measured_entry (task : Task) (now : Time) (report : Report) :
    (task.measured now report).entry = task.entry := by
  rw [Task.measured]
  cases hbeg : task.startedAt with
  | none => rfl
  | some startedAt =>
    show _ = Entry.mk _ _ _ _ task.startedAt _ _ _ _ _
    rw [hbeg]
    rfl

theorem Task.reported_entry (task : Task) (now : Time) (result : Report) :
    (task.reported now result).entry = { task.entry with lease := none } := by
  rw [reported, measured_entry]
  rfl

theorem retryAdmission_tellsOf {admitted : Bool}
    (h : retryAdmission T.now task result db = .ok admitted db') :
    TellsOf T t task db task db' ∧ db'.tasks = db.tasks := by
  rw [retryAdmission] at h
  split_ifs at h with hrq hretry
  · exact admitRetry_tellsOf h
  · exact admitRetry_tellsOf h
  · obtain ⟨_, rfl⟩ := pure_ok.mp h
    exact ⟨.quiet rfl rfl, rfl⟩

/-- The retry of a report is charged to the user's budget, or follows a preemption
    that was charged when it was asked for. -/
theorem scheduleRetry_tells {retried : Bool} (hrow : db.tasks.get? t = some old)
    (hst : task.status = result.target)
    (h : scheduleRetry T.now t task result db = .ok (retried, task') db') :
    TellsOf T t task db task' db' := by
  obtain ⟨_, mid, hadmit, hr⟩ := bind_ok.mp h
  have hadm : TellsOf T t task db task mid ∧ mid.tasks = db.tasks := retryAdmission_tellsOf hadmit
  rw [← hadm.2] at hrow
  refine hadm.1.trans ?_
  split_ifs at hr with hretry hrq
  · simp only [bind_ok, pure_ok] at hr
    obtain ⟨_, _, htr, _, _, hdelay, hpair, rfl⟩ := hr
    obtain ⟨_, rfl, _⟩ := transition_logs htr
    rw [(retryDelaySeconds_reads _ _ _ _).of_ok hdelay, ← (Prod.mk.inj hpair).2]
    refine tellsOf_requeue hrow (Entry.Charges.retry ?_ hretry.1.2.1) htr rfl
    show task.status = .failed ∨ task.status = .timedOut
    rw [hst]
    exact hretry.1.1
  · simp only [bind_ok, pure_ok] at hr
    obtain ⟨_, _, htr, hpair, rfl⟩ := hr
    obtain ⟨_, rfl, _⟩ := transition_logs htr
    rw [← (Prod.mk.inj hpair).2]
    exact tellsOf_requeue hrow (Entry.Charges.preempted (hst.trans hrq.1.1)) htr rfl
  · obtain ⟨hpair, rfl⟩ := pure_ok.mp hr
    rw [← (Prod.mk.inj hpair).2]
    exact .quiet rfl rfl

theorem recordExecutionError_chronicle {category : Option ErrorCategory}
    {code : Option ErrorCode} {message : Option String}
    (h : recordExecutionError x category code message db = .ok u db') :
    db'.chronicle = db.chronicle := by
  rw [recordExecutionError, modify_ok] at h
  rw [h]
  show Chronicle.mk _ _ _ ((db.executions.modify x _).map TaskExecution.bill) _ _ _ = _
  rw [map_modify_eq]
  · rfl
  · intro _
    rfl

theorem closePlans_chronicle {now : Time} (h : closePlans now t task db = .ok u db') :
    db'.chronicle = { db.chronicle with
      plans := if task.status = .preempting
        then db.chronicle.plans.map (fun plan => plan.completedFor t now)
        else db.chronicle.plans } := by
  rw [closePlans] at h
  split_ifs at h ⊢
  · rw [completePreemptionPlans, modify_ok] at h
    rw [h]
    rfl
  · obtain ⟨_, rfl⟩ := pure_ok.mp h
    rfl

/-- **A REPORT** behind its fence, with a final result. -/
theorem settleReport_tells {result : ExecutionResult} (hlife : Lifecycle db.cluster)
    (hfence : Fenced db c task) (hact : task.status ∈ activeTaskStatuses)
    (hfin : (task.outcome report).target ∈ finalTaskStatuses)
    (h : settleReport T.now c task report db = .ok result db') : Tells T db db' := by
  obtain ⟨moved, _, released, _, _, db₄, _, _, _, htr, hrel,
    hrec, hplans, hretry, hsave⟩ := settleReport_ok h
  obtain ⟨hcan, hmoved, _, hlogs, hdb₁⟩ := transition_logs htr
  have hheld := holding_of_active hlife hfence.row hact
  obtain ⟨hfrees, hent⟩ := releaseExecution_frees hrel
  have hrptd := Task.reported_entry moved T.now (task.outcome report)
  have hbeg : (moved.reported T.now (task.outcome report)).startedAt
      = task.startedAt := by
    have hrng : (task.outcome report).target ≠ .running := by
      revert hfin
      cases (task.outcome report).target <;> decide
    rw [hmoved] at hrptd ⊢
    rw [Task.transitioned_entry hrng] at hrptd
    exact congrArg Entry.startedAt hrptd
  rw [hbeg, hdb₁] at hfrees
  obtain ⟨freed, hfreed, hdb₂⟩ := Frees.logged (c := db.chronicle) hfrees
  have hevs : db.taskEvents = freed.events := hfreed.kept.2.1.symm
  rw [← recordExecutionError_chronicle hrec, hevs] at hdb₂
  rw [hrptd, hmoved] at hent
  have hst : released.status = (task.outcome report).target :=
    congrArg Entry.status hent
  have hmid := closePlans_chronicle hplans
  rw [hdb₂] at hmid
  have hsett : TellsOf T c.taskId task db released db₄ :=
    hfreed.tellsOf hfence.row hfence.execution hheld hcan hfin hlogs hmid hent (.inl rfl)
  obtain ⟨_, hold⟩ := hfreed.row hfence.row hmid
  exact (hsett.trans (scheduleRetry_tells hold hst hretry)).saved hfence.row hsave

/-- What a report of a status that is not final writes and logs.  No worker sends
    one, and it is no deed; the log is still kept. -/
structure Misreports (T : Terms) (t : Uuid) (e e' : Entry) (event : TaskEvent)
    (c c' : Chronicle) : Prop where
  entry : c.entries.get? t = some e
  holding : e.status ∈ holdingStatuses
  same : e.Same e'
  allowed : CanTransition e.status e'.status
  version : e'.version = e.version + 1
  logs : Logs T t e e'.status event
  entries : c'.entries = c.entries.set t e'
  events : c'.events = c.events ++ [event]
  bills : c'.bills = c.bills

/-- A report whose outcome is not final is taken as it is. -/
theorem Task.outcome_open (h : (task.outcome report).target ∉ finalTaskStatuses) :
    (task.outcome report).target = report.target := by
  rw [Task.outcome] at h ⊢
  by_cases hcncl : task.CancellationRequested
  · rw [if_pos hcncl] at h
    exact absurd (show TaskStatus.cancelled ∈ finalTaskStatuses by decide) h
  rw [if_neg hcncl] at h ⊢
  by_cases hpre : task.status = .preempting
  · rw [if_pos hpre] at h
    exact absurd (show TaskStatus.preempted ∈ finalTaskStatuses by decide) h
  rw [if_neg hpre]
  by_cases hcat : report.errorCategory = none
  · rw [if_pos hcat]
  · rw [if_neg hcat]

theorem scheduleRetry_idle {retried : Bool} (hopen : result.target ∉ finalTaskStatuses)
    (h : scheduleRetry T.now t task result db = .ok (retried, task') db') :
    task' = task ∧ db' = db := by
  have hretry : ¬ task.RetriesFailure result := by
    rintro ⟨hst | hst, _⟩
    · rw [hst] at hopen
      exact hopen (by decide)
    · rw [hst] at hopen
      exact hopen (by decide)
  have hrq : ¬ task.RequeuesPreempted result := by
    rintro ⟨hst, _⟩
    rw [hst] at hopen
    exact hopen (by decide)
  rw [scheduleRetry, retryAdmission, if_neg hrq, if_neg hretry, pure_bind,
    if_neg (fun hboth => hretry hboth.1), if_neg (fun hboth => hrq hboth.1)] at h
  obtain ⟨hpair, rfl⟩ := pure_ok.mp h
  exact ⟨(Prod.mk.inj hpair).2.symm, rfl⟩

theorem settleReport_misreports {result : ExecutionResult} (hfence : Fenced db c task)
    (hheld : task.status ∈ holdingStatuses)
    (hopen : (task.outcome report).target ∉ finalTaskStatuses)
    (h : settleReport T.now c task report db = .ok result db') :
    ∃ e' event, e'.status = (task.outcome report).target
      ∧ Misreports T c.taskId task.entry e' event db.chronicle db'.chronicle := by
  obtain ⟨_, _, released, _, _, _, _, task', last, htr, hrel,
    hrec, hplans, hretry, hsave⟩ := settleReport_ok h
  obtain ⟨hcan, hmoved, event, hlogs, hdb₁⟩ := transition_logs htr
  obtain ⟨hfrees, hent⟩ := releaseExecution_frees hrel
  obtain ⟨hents, hevs, _, hbills⟩ := hfrees.kept
  rw [← recordExecutionError_chronicle hrec, hdb₁] at hents hevs hbills
  rw [Task.reported_entry, hmoved] at hent
  have hst : released.status = (task.outcome report).target :=
    congrArg Entry.status hent
  have hver : released.version = task.version + 1 := congrArg Entry.version hent
  have hplans := closePlans_chronicle hplans
  obtain ⟨rfl, rfl⟩ := scheduleRetry_idle hopen hretry
  have hdb := chronicle_save last c.taskId task'
  rw [← saveTask_ok.mp hsave, hplans] at hdb
  refine ⟨task'.entry, event, hst, chronicle_entry hfence.row, hheld, ?_, ?_, hver, ?_, ?_, ?_, ?_⟩
  · rw [hent]
    exact ⟨rfl, rfl, rfl, rfl, .inl rfl⟩
  · show CanTransition task.status task'.status
    rw [hst]
    exact hcan
  · show Logs T c.taskId task.entry task'.status event
    rw [hst]
    exact hlogs
  · rw [hdb]
    exact congrArg (fun entries => entries.set c.taskId task'.entry) hents
  · rw [hdb]
    exact hevs
  · rw [hdb]
    exact hbills

theorem finishFence_tells {owned : Bool} (h : finishFence T.now c task db = .ok owned db') :
    Tells T db db' := by
  rw [finishFence] at h
  cases hsess : c.workerSessionId with
  | none =>
    simp only [hsess] at h
    exact .of_pure h
  | some =>
    simp only [hsess] at h
    obtain ⟨_, _, hlock, hr⟩ := bind_ok.mp h
    rw [bind_get] at hr
    obtain ⟨_, rfl⟩ := pure_ok.mp hr
    exact (getLocked_day hlock).tells

/-- **`finish_execution`**: deeds, and a misreport at most where the worker sends a
    status that is not final. -/
theorem finishExecution_tells {result : ExecutionResult} (hlife : Lifecycle db.cluster)
    (h : finishExecution T.now c report db = .ok result db') :
    Tells T db db' ∨ report.target ∉ finalTaskStatuses ∧ ∃ mid t e e' event,
      Tells T db mid ∧ e'.status = report.target
        ∧ Misreports T t e e' event mid.chronicle db'.chronicle := by
  rcases finishExecution_ok h with ⟨_, rfl⟩ | ⟨task, _, mid, _, hact, hfence, huns, hend⟩
  · exact .inl (.refl _)
  have hfirst : Tells T db mid := finishFence_tells hfence
  rcases hend with ⟨_, _, rfl⟩ | ⟨_, hfncd, hstt⟩
  · exact .inl hfirst
  rw [← huns.2.1] at hlife
  by_cases hfin : (task.outcome report).target ∈ finalTaskStatuses
  · exact .inl (hfirst.trans (settleReport_tells hlife hfncd hact hfin hstt))
  · obtain ⟨_, _, hst, hmis⟩ := settleReport_misreports hfncd
      (holding_of_active hlife hfncd.row hact) hfin hstt
    rw [Task.outcome_open hfin] at hst
    exact .inr ⟨fun hrpt => hfin (Task.outcome_final hrpt),
      mid, _, _, _, _, hfirst, hst, hmis⟩

end Reports

/-! ## An expired lease -/

section Recovery

variable {T : Terms} {db mid last db' : Db} {t : Uuid} {task base settled : Task}

theorem recordRecovery_chronicle {x : Option Uuid} {category : ErrorCategory}
    {code : Option ErrorCode} {message : String}
    (h : recordRecovery x category code message db = .ok u db') :
    db'.chronicle = db.chronicle := by
  cases x with
  | none =>
    obtain ⟨_, rfl⟩ := pure_ok.mp h
    rfl
  | some => exact recordExecutionError_chronicle h

/-- What a recovery has done before it writes the status: the execution is freed and
    the plans are completed. -/
structure Lapsed (T : Terms) (t x : Uuid) (task base : Task) (freed : Chronicle)
    (db mid : Db) : Prop where
  row : db.tasks.get? t = some task
  execution : task.executionId = some x
  holding : task.status ∈ holdingStatuses
  frees : Frees T db.chronicle t x task.startedAt freed
  records : mid.chronicle = { freed with
    plans := if task.status = .preempting
      then freed.plans.map (fun plan => plan.completedFor t T.now) else freed.plans }
  entry : base.entry = { task.entry with execution := none, lease := none }

/-- The status of a recovery: the base row moves on and the end is told. -/
theorem Lapsed.moved {moved : Task} {eventType : String}
    (h : Lapsed T t x task base freed db mid) (hfin : target ∈ finalTaskStatuses)
    (htr : transition t base target T.now eventType mid = .ok moved last)
    (hlast : last.chronicle = db'.chronicle) (hent : settled.entry = moved.entry) :
    TellsOf T t task db settled db' ∧ ∃ old, db'.tasks.get? t = some old := by
  obtain ⟨hcan, hmoved, event, hlogs, hdb⟩ := transition_logs htr
  have hst : base.status = task.status := congrArg Entry.status h.entry
  have hver : base.version = task.version := congrArg Entry.version h.entry
  have hrng : target ≠ .running := by
    revert hfin
    cases target <;> decide
  rw [hst] at hcan
  have hmid : db'.chronicle = { freed with
      events := freed.events ++ [event]
      plans := if task.status = .preempting
        then freed.plans.map (fun plan => plan.completedFor t T.now)
        else freed.plans } := by
    rw [← hlast, hdb]
    show { mid.chronicle with events := mid.chronicle.events ++ [event] } = _
    rw [h.records]
  have hsett : settled.entry = { (task.transitioned target T.now).entry with
      execution := none, lease := none } := by
    rw [hent, hmoved, Task.transitioned_entry hrng, Task.transitioned_entry hrng, h.entry, hver]
  -- the event is the one of the stored row; only a start carries its execution
  have hlogd : Logs T t task.entry target event :=
    ⟨hlogs.task, by rw [hlogs.before, h.entry], hlogs.after,
      by rw [hlogs.sequence, h.entry], fun hr => absurd hr hrng, hlogs.time⟩
  exact ⟨h.frees.tellsOf h.row h.execution h.holding hcan hfin hlogd hmid hsett (.inr rfl),
    h.frees.row h.row hmid⟩

theorem recoverCancelled_tells (hlaps : Lapsed T t x task base freed db mid)
    (h : recoverCancelled T.now t base (some x) mid = .ok recovered db') : Tells T db db' := by
  simp only [recoverCancelled, bind_ok, pure_ok] at h
  obtain ⟨moved, _, htr, _, _, hsave, _, _, hrec, _, rfl⟩ := h
  refine Tells.trans ?_ (.quiet (recordRecovery_chronicle hrec))
  refine TellsOf.saved ?_ hlaps.row hsave
  exact (hlaps.moved (by decide) htr rfl rfl).1

theorem recoverEnded_tells {eventType message : String} {category : ErrorCategory}
    {code : Option ErrorCode} {retries : Task → Prop} [DecidablePred retries]
    {next : Task → Task} (hlaps : Lapsed T t x task base freed db mid)
    (hfin : target ∈ finalTaskStatuses)
    (h : recoverEnded T.now t base (some x) target eventType category code message retries next
      grace mid = .ok recovered db')
    (hchs : ∀ task, task.status = target → retries task → task.entry.Charges T (next task).entry)
    (hnext : ∀ task, task.executionId = none → (next task).executionId = none) :
    Tells T db db' := by
  obtain ⟨moved, _, htr, h₁⟩ := bind_ok.mp h
  obtain ⟨_, last, hrec, h₂⟩ := bind_ok.mp h₁
  obtain ⟨_, rfl, _⟩ := transition_logs htr
  obtain ⟨htold, old, hold⟩ : TellsOf T t task db
      { (base.transitioned target T.now).failedWith (some category) code with
        errorMessage := some message } last ∧ ∃ old, last.tasks.get? t = some old :=
    hlaps.moved hfin htr (recordRecovery_chronicle hrec).symm rfl
  split_ifs at h₂ with hrtr
  · obtain ⟨_, _, hadmit, hr⟩ := bind_ok.mp h₂
    obtain ⟨hadm, htasks⟩ := admitRetry_tellsOf hadmit
    have htold' := htold.trans hadm
    rw [← htasks] at hold
    split_ifs at hr with hadmitted
    · obtain ⟨_, _, hrq, hpure⟩ := bind_ok.mp hr
      obtain ⟨_, rfl⟩ := pure_ok.mp hpure
      obtain ⟨_, _, htr, hsave⟩ := bind_ok.mp hrq
      obtain ⟨_, rfl, _⟩ := transition_logs htr
      refine (htold'.trans (tellsOf_requeue hold (hchs _ rfl hrtr) htr ?_)).saved hlaps.row hsave
      show Entry.mk _ _ _ (next _).executionId _ _ _ _ _ _ = _
      rw [hnext]
      · rfl
      · exact congrArg Entry.execution hlaps.entry
    · obtain ⟨_, _, hsave, hpure⟩ := bind_ok.mp hr
      obtain ⟨_, rfl⟩ := pure_ok.mp hpure
      refine TellsOf.saved ?_ hlaps.row hsave
      exact htold'.trans (.quiet rfl rfl)
  · obtain ⟨_, _, hsave, hpure⟩ := bind_ok.mp h₂
    obtain ⟨_, rfl⟩ := pure_ok.mp hpure
    exact htold.saved hlaps.row hsave

/-- **ONE RECOVERY** of a task that holds its execution. -/
theorem recoverTask_tells (hlife : Lifecycle db.cluster) (hrow : db.tasks.get? t = some task)
    (hact : task.status ∈ activeTaskStatuses)
    (h : recoverTask T.now T.attempts grace t db = .ok recovered db') : Tells T db db' := by
  have hheld := holding_of_active hlife hrow hact
  obtain ⟨x, hx⟩ := Option.ne_none_iff_exists'.mp ((hlife.task hrow).holding hheld).1
  have hx' : task.executionId = some x := hx
  have hlapsing : Task.executionId { task with leaseExpiresAt := none } = some x := hx
  rw [recoverTask_eq hrow] at h
  obtain ⟨released, mid, hrel, h₁⟩ := bind_ok.mp h
  obtain ⟨_, last, hplans, h₂⟩ := bind_ok.mp h₁
  rw [releaseExpired_owned hlapsing] at hrel
  obtain ⟨hfrees, hent⟩ := releaseExecution_frees hrel
  have hlaps : Lapsed T t x task { released with executionId := none, workerId := none }
      mid.chronicle db last := by
    refine ⟨hrow, hx', hheld, hfrees, closePlans_chronicle hplans, ?_⟩
    show { released.entry with execution := none } = _
    rw [hent]
    rfl
  rcases recoverBranch_cases T.now T.attempts grace t task
    { released with executionId := none, workerId := none } (recoveryCode db task.workerId)
    with ⟨_, hbr⟩ | ⟨_, hbr⟩ | ⟨_, hbr⟩
  all_goals rw [hbr, hx'] at h₂
  · exact recoverCancelled_tells hlaps h₂
  · rw [recoverPreempted_eq] at h₂
    exact recoverEnded_tells hlaps (by decide) h₂ (fun _ hs _ => .preempted hs) fun _ => id
  · rw [recoverFailed_eq] at h₂
    exact recoverEnded_tells hlaps (by decide) h₂ (fun _ hs hbud => .recovery hs hbud)
      fun _ => id

theorem lockProjects_tells {projects : List Uuid}
    (h : lockProjects T.now projects db = .ok u db') : Tells T db db' := by
  induction projects generalizing db with
  | nil => exact .of_pure h
  | cons _ _ ih =>
    obtain ⟨_, _, hlock, hr⟩ := bind_ok.mp h
    exact (getLocked_day hlock).tells.trans (ih hr)

theorem recoverExpired_tells {locked recovered : List Uuid} {limit : ℕ}
    (hlife : Lifecycle db.cluster)
    (h : recoverExpired T.now locked limit T.attempts grace db = .ok recovered db') :
    Tells T db db' := by
  obtain ⟨_, _, hlock, _, hlife', hsel, hr⟩ := recoverExpired_pass hlife h
  refine (lockProjects_tells hlock).trans ((recoverTasks_pass hr).each
    (J := fun d => Lifecycle d.cluster) hsel hlife' Tells.refl Tells.trans
    fun hrow hexp hlife ⟨_, hrec⟩ => ?_)
  obtain ⟨hfol, hrecs⟩ := recoverTask_follows (R := anyRules) hlife hrow hexp.1 hrec
  exact ⟨recoverTask_tells hlife hrow hexp.1 hrec, hfol.lifecycle hlife, hrecs.touches⟩

end Recovery

end MiniAiCloud
