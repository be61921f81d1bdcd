import MiniAiCloud.ReleaseProofs

/-! # Lease recovery

    `recover_expired` handles a batch of tasks in one transaction, so what it
    raises for one task undoes the recovery of all of them.  It never raises an
    invalid transition, in any run: a task that holds an execution may always go
    where its recovery sends it.  What it can raise is what the release of an
    execution raises, and in a run of whole claims that is nothing. -/

namespace MiniAiCloud

open Transaction Reachability Cluster List Option

/-! ## What a release raises -/

/-- The exception is not one of the state machine. -/
def Err.NotTransition (e : Err) : Prop :=
  ∀ current target, e ≠ .invalidTaskTransition current target

section Raises

variable {now : Time} {p t x : Uuid}

theorem assertStateNonnegative_raises (s : ProjectQuotaState) :
    RaisesOnly Err.NotTransition (assertStateNonnegative s) :=
  .bind (.raiseIf nofun) fun _ => .bind (.raiseIf nofun) fun _ => .raiseIf nofun

theorem getLocked_raises : RaisesOnly Err.NotTransition (getLocked now p) :=
  .bind .get fun _ => .bind (.expect nofun) fun _ => .bind (.expect nofun) fun s =>
    .bind (assertStateNonnegative_raises s) fun _ => .bind (.modify _) fun _ => .pure _

theorem touchState_raises (s : ProjectQuotaState) :
    RaisesOnly Err.NotTransition (touchState now p s) :=
  .bind (.modify _) fun _ => .bind (assertStateNonnegative_raises s) fun _ =>
    .bind (.modify _) fun _ => .pure _

theorem admitRetry_raises : RaisesOnly Err.NotTransition (admitRetry now p) := by
  have hlim : ∀ limit requested,
      RaisesOnly Err.NotTransition (checkLimit "queued_tasks" limit requested) := by
    intro limit _
    cases limit with
    | none => exact .pure _
    | some => exact .raiseIf nofun
  have hadmit : RaisesOnly Err.NotTransition (admitQueued now p) :=
    .bind (.bind getLocked_raises fun _ => .bind (hlim _ _) fun _ => .pure _) touchState_raises
  exact .bind .get fun _ => .ite (.pure _) (.catching (.bind hadmit fun _ => .pure _) (.pure _))

theorem releaseQuota_raises (d : ResourceDemand) (reserved settled : ℚ) (date : Option Date) :
    RaisesOnly Err.NotTransition (releaseQuota now p d reserved settled date) := by
  have hven : ∀ value n, RaisesOnly Err.NotTransition (normalizeAcceleratorVendor value n) :=
    fun _ _ => .ite (.pure _) (.bind (.expect nofun) fun _ => .pure _)
  refine .bind ?_ touchState_raises
  exact .bind (.raiseIf nofun) fun _ => .bind (.raiseIf nofun) fun _ =>
    .bind getLocked_raises fun _ => .bind (hven _ _) fun _ =>
    .bind (.raiseIf nofun) fun _ => .bind (.raiseIf nofun) fun _ => .pure _

theorem releaseWorker_raises (r : ResourceReservation) :
    RaisesOnly Err.NotTransition (releaseWorker r) := by
  refine .bind .get fun db => ?_
  cases db.workers.get? r.workerId with
  | none => exact .pure _
  | some worker => exact .bind (.raiseIf nofun) fun _ => .modify _

theorem settleLedger_raises (r : ResourceReservation) (execution : TaskExecution)
    (startedAt : Option Time) :
    RaisesOnly Err.NotTransition (settleLedger now t x r execution startedAt) := by
  intro _ _ _ h
  rw [(settleLedger_error h).1]
  exact nofun

theorem releaseAndSettle_raises (task : Task) (final : TaskStatus) (reason : String) :
    RaisesOnly Err.NotTransition (releaseAndSettle now t task x final reason) := by
  refine .bind .get fun db => ?_
  cases activeReservation db x with
  | none => exact .pure _
  | some r =>
    exact .bind getLocked_raises fun _ => .bind (releaseWorker_raises r) fun _ =>
      .bind (.modify _) fun _ => .bind (.expect nofun) fun _ =>
      .bind (.modify _) fun _ => .bind (settleLedger_raises _ _ _) fun _ =>
      .bind (releaseQuota_raises _ _ _ _) fun _ => .pure _

theorem lockProjects_raises (projects : List Uuid) :
    RaisesOnly Err.NotTransition (lockProjects now projects) := by
  induction projects with
  | nil => exact .pure _
  | cons p rest ih => exact .bind getLocked_raises fun _ => ih

end Raises

/-! ## What a recovery raises -/

section Errors

variable {db mid db' : Db} {now : Time} {t : Uuid} {task base : Task} {e : Err}

theorem transition_error {target : TaskStatus} {eventType : String}
    (h : transition t task target now eventType db = .error e db') :
    ¬ CanTransition task.status target := by
  rcases bind_error.mp h with hens | ⟨_, _, _, h₁⟩
  · exact (raiseIf_error.mp hens).1
  rcases bind_error.mp h₁ with hrec | ⟨_, _, _, hpure⟩
  · exact absurd hrec modify_error
  · exact absurd hpure pure_error

theorem recordRecovery_returns {x : Option Uuid} {category : ErrorCategory}
    {code : Option ErrorCode} {message : String} :
    recordRecovery x category code message db ≠ .error e db' := by
  cases x with
  | none => exact pure_error
  | some => exact modify_error

theorem requeueRecovered_returns {grace : ℚ} (halw : CanTransition task.status .retrying) :
    requeueRecovered now t task grace db ≠ .error e db' := by
  intro h
  rcases bind_error.mp h with htr | ⟨_, _, _, hsave⟩
  · exact transition_error htr halw
  · exact modify_error hsave

theorem recoverCancelled_returns {x : Option Uuid} (halw : CanTransition base.status .cancelled) :
    recoverCancelled now t base x db ≠ .error e db' := by
  intro h
  rcases bind_error.mp h with htr | ⟨_, _, _, h₁⟩
  · exact transition_error htr halw
  rcases bind_error.mp h₁ with hsave | ⟨_, _, _, h₂⟩
  · exact modify_error hsave
  rcases bind_error.mp h₂ with hrec | ⟨_, _, _, hpure⟩
  · exact recordRecovery_returns hrec
  · exact pure_error hpure

/-- The preempted and the failed branch raise only what the queue raises. -/
theorem recoverEnded_error {x : Option Uuid} {target : TaskStatus} {eventType message : String}
    {category : ErrorCategory} {code : Option ErrorCode} {retries : Task → Prop}
    [DecidablePred retries] {next : Task → Task} {grace : ℚ}
    (h : recoverEnded now t base x target eventType category code message retries next grace mid
      = .error e db') (halw : CanTransition base.status target)
    (hnext : ∀ task, task.status = target → CanTransition (next task).status .retrying) :
    ∃ last, Unseen mid last ∧ admitRetry now base.projectId last = .error e db' := by
  rcases bind_error.mp h with htr | ⟨moved, between, htr, h₁⟩
  · exact absurd halw (transition_error htr)
  obtain ⟨_, rfl, _, _, _, hbtw⟩ := transition_ok htr
  have huns : Unseen mid between := by
    rw [hbtw]
    exact ⟨rfl, rfl, id⟩
  rcases bind_error.mp h₁ with hrec | ⟨_, last, hrec, h₂⟩
  · exact absurd hrec recordRecovery_returns
  refine ⟨last, huns.trans (recordRecovery_unseen hrec), ?_⟩
  split_ifs at h₂ with hrtr
  · rcases bind_error.mp h₂ with hadmit | ⟨admitted, mid, _, hr⟩
    · exact hadmit
    split_ifs at hr with hadm
    · rcases bind_error.mp hr with hrq | ⟨_, _, _, hpure⟩
      · exact absurd hrq (requeueRecovered_returns (hnext _ rfl))
      · exact absurd hpure pure_error
    · rcases bind_error.mp hr with hsave | ⟨_, _, _, hpure⟩
      · exact absurd hsave modify_error
      · exact absurd hpure pure_error
  · rcases bind_error.mp h₂ with hsave | ⟨_, _, _, hpure⟩
    · exact absurd hsave modify_error
    · exact absurd hpure pure_error

theorem releaseExecution_error {w : Option WorkerId} {x : Uuid} {final : TaskStatus}
    {reason : String} (h : releaseExecution now t task w x final reason db = .error e db') :
    releaseAndSettle now t task x final reason db = .error e db' := by
  rcases bind_error.mp h with hrel | ⟨released, mid, _, h₁⟩
  · exact hrel
  split_ifs at h₁ with hreleased
  · exact absurd h₁ pure_error
  · rcases bind_error.mp h₁ with hcap | ⟨_, _, _, hpure⟩
    · cases w with
      | none => exact absurd hcap pure_error
      | some => exact absurd hcap modify_error
    · exact absurd hpure pure_error

/-- **WHAT A RECOVERY RAISES** comes from the release of the execution or from the
    queue of the project: the transitions are allowed. -/
theorem recoverTask_error {attempts : ℤ} {grace : ℚ} (hlife : Lifecycle db.cluster)
    (hrow : db.tasks.get? t = some task) (hact : task.status ∈ activeTaskStatuses)
    (h : recoverTask now attempts grace t db = .error e db') :
    (∃ x, task.executionId = some x
      ∧ releaseAndSettle now t { task with leaseExpiresAt := none } x task.recoveredStatus
          "execution_lease_expired" db = .error e db')
    ∨ ∃ last, (QuotaRows db → QuotaRows last)
      ∧ admitRetry now task.projectId last = .error e db' := by
  have hheld := holding_of_active hlife hrow hact
  have halw := recoveredStatus_allowed hlife hrow hheld
  obtain ⟨x, hx⟩ := ne_none_iff_exists'.mp ((hlife.task hrow).holding hheld).1
  have hx' : Task.executionId { task with leaseExpiresAt := none } = some x := hx
  rw [recoverTask_eq hrow] at h
  rcases bind_error.mp h with hrel | ⟨released, mid, hrel, h₁⟩
  · rw [releaseExpired_owned hx'] at hrel
    exact .inl ⟨x, hx', releaseExecution_error hrel⟩
  rw [releaseExpired_owned hx'] at hrel
  obtain ⟨hend, _, hreleased⟩ :=
    releaseExecution_ends (recovery_canEnd (R := anyRules) hlife hrow hheld hx') hrel
  have hst : released.status = task.status := by rw [hreleased]
  have hproj : released.projectId = task.projectId := by rw [hreleased]
  rw [← hst] at halw
  rw [← hproj]
  right
  rcases bind_error.mp h₁ with hplans | ⟨_, last, hplans, h₂⟩
  · rw [closePlans] at hplans
    split_ifs at hplans
    · exact absurd hplans modify_error
    · exact absurd hplans pure_error
  have hrows : ∀ final, Unseen last final → QuotaRows db → QuotaRows final :=
    fun final hfin hdb => hfin.2.2 ((closePlans_unseen hplans).2.2 (hend.rows hdb))
  rcases recoverBranch_cases now attempts grace t task
    { released with executionId := none, workerId := none } (recoveryCode db task.workerId)
    with ⟨hs, hbr⟩ | ⟨hs, hbr⟩ | ⟨hs, hbr⟩
  all_goals
    rw [hbr] at h₂
    rw [hs] at halw
  · exact absurd h₂ (recoverCancelled_returns halw)
  · rw [recoverPreempted_eq] at h₂
    obtain ⟨final, hfin, hadmit⟩ :=
      recoverEnded_error h₂ halw (fun task htask => by rw [id, htask]; decide)
    exact ⟨final, hrows final hfin, hadmit⟩
  · rw [recoverFailed_eq] at h₂
    obtain ⟨final, hfin, hadmit⟩ :=
      recoverEnded_error h₂ halw (fun task htask => by rw [htask]; decide)
    exact ⟨final, hrows final hfin, hadmit⟩

end Errors

/-! ## A batch -/

section Batch

variable {R : Rules} {db db' : Db} {now : Time} {attempts : ℤ} {grace : ℚ} {e : Err}

/-- The task ended, and waits again only where that is allowed. -/
def Task.RecoveredAs (task task' : Task) : Prop :=
  CanTransition task.status task.recoveredStatus
    ∧ (task'.status = task.recoveredStatus
      ∨ task'.status = .retrying ∧ CanTransition task.recoveredStatus .retrying)

/-- The loop raises what the recovery of one of its tasks raises, in a state that
    is as good as the first and has the task as it was selected. -/
theorem recoverTasks_error {I : Db → Prop} (hlife : ∀ s, I s → Lifecycle s.cluster)
    (hkeep : ∀ s s', I s → Follows R s s' → I s') {ids : List Uuid} (hI : I db)
    (hsel : Selected (·.Expired now) ids db)
    (h : recoverTasks now attempts grace ids db = .error e db') :
    ∃ t ∈ ids, ∃ task mid, I mid ∧ db.tasks.get? t = some task
      ∧ mid.tasks.get? t = some task ∧ task.status ∈ activeTaskStatuses
      ∧ recoverTask now attempts grace t mid = .error e db' := by
  induction ids generalizing db with
  | nil => exact absurd h pure_error
  | cons t _ ih =>
    obtain ⟨task, hrow, hexp⟩ := hsel.good t mem_cons_self
    rcases bind_error.mp h with hrec | ⟨_, mid, hrec, h₁⟩
    · exact ⟨t, mem_cons_self, task, db, hI, hrow, hrow, hexp.1, hrec⟩
    rcases bind_error.mp h₁ with hoths | ⟨_, _, _, hpure⟩
    · have hboth : Follows R db mid ∧ Recovers t task.recoveredStatus db mid :=
        recoverTask_follows (hlife db hI) hrow hexp.1 hrec
      obtain ⟨v, hv, other, last, hlast, hoth, hf⟩ :=
        ih (hkeep db mid hI hboth.1) (hsel.tail hboth.2.touches) hoths
      have hne : v ≠ t := fun hvt => (nodup_cons.mp hsel.nodup).1 (hvt ▸ hv)
      rw [hboth.2.touches v hne] at hoth
      exact ⟨v, mem_cons_of_mem t hv, other, last, hlast, hoth, hf⟩
    · exact absurd hpure pure_error

/-- The loop recovers the tasks it is given and writes no other row. -/
theorem recoverTasks_recovers {ids recovered : List Uuid} (hlife : Lifecycle db.cluster)
    (hsel : Selected (·.Expired now) ids db)
    (h : recoverTasks now attempts grace ids db = .ok recovered db') :
    (∀ t ∈ ids, ∃ task task', db.tasks.get? t = some task ∧ db'.tasks.get? t = some task'
        ∧ task.RecoveredAs task')
      ∧ ∀ v, v ∉ ids → db'.tasks.get? v = db.tasks.get? v := by
  induction ids generalizing db recovered with
  | nil =>
    obtain ⟨_, rfl⟩ := pure_ok.mp h
    exact ⟨fun t ht => absurd ht not_mem_nil, fun _ _ => rfl⟩
  | cons t _ ih =>
    have hhead := (nodup_cons.mp hsel.nodup).1
    obtain ⟨task, hrow, hexp⟩ := hsel.good t mem_cons_self
    simp only [recoverTasks, bind_ok, pure_ok] at h
    obtain ⟨_, mid, hrec, _, _, hoths, _, rfl⟩ := h
    have hboth : Follows anyRules db mid ∧ Recovers t task.recoveredStatus db mid :=
      recoverTask_follows hlife hrow hexp.1 hrec
    have heq := hboth.2.touches
    obtain ⟨hrecs, hframe⟩ := ih (hboth.1.lifecycle hlife) (hsel.tail heq) hoths
    refine ⟨?_, ?_⟩
    · intro v hv
      rcases mem_cons.mp hv with rfl | hv
      · obtain ⟨row, htasks, hended⟩ := hboth.2
        refine ⟨task, row, hrow, ?_, ?_, hended⟩
        · rw [hframe v hhead, htasks]
          exact Table.get?_set_self hrow row
        · exact recoveredStatus_allowed hlife hrow (holding_of_active hlife hrow hexp.1)
      · obtain ⟨other, other', hoth, hr⟩ := hrecs v hv
        rw [heq v (fun hvt => hhead (hvt ▸ hv))] at hoth
        exact ⟨other, other', hoth, hr⟩
    · intro v hv
      rw [hframe v (fun hmem => hv (mem_cons_of_mem t hmem)),
        heq v (fun hvt => hv (hvt ▸ mem_cons_self))]

variable (hrows : QuotaRows db)

include hrows

/-- Where the quota rows are in order, a row that exists can be locked. -/
theorem getLocked_returns {p : Uuid} {s : ProjectQuotaState}
    (hs : db.quotaStates.get? p = some s) : getLocked now p db ≠ .error e db' := by
  intro h
  obtain ⟨hsnd, hquota⟩ := hrows p s hs
  obtain ⟨quota, hquota⟩ := ne_none_iff_exists'.mp hquota
  rw [getLocked_ok.mpr ⟨quota, s, hquota, hs, hsnd, rfl, rfl⟩] at h
  cases h

theorem lockProjects_returns {projects : List Uuid}
    (hbooks : ∀ p ∈ projects, db.cluster.books.get? p ≠ none) :
    lockProjects now projects db ≠ .error e db' := by
  induction projects generalizing db with
  | nil => exact pure_error
  | cons p _ ih =>
    intro h
    rcases bind_error.mp h with hlock | ⟨_, mid, hlock, hr⟩
    · obtain ⟨_, hbook⟩ :=
        ne_none_iff_exists'.mp (hbooks p mem_cons_self)
      obtain ⟨s, hs, _⟩ := Table.get?_map_eq_some.mp hbook
      exact getLocked_returns hrows hs hlock
    · have huns := (getLocked_moves hlock).unseen
      refine ih (huns.2.2 hrows) ?_ hr
      intro q hq
      rw [huns.2.1]
      exact hbooks q (mem_cons_of_mem p hq)

/-- Where the quota rows are in order, only the limit of the queue refuses. -/
theorem admitQueued_exceeded {p : Uuid} {s : ProjectQuotaState}
    (hs : db.quotaStates.get? p = some s) (h : admitQueued now p db = .error e db') :
    e.isQuotaExceeded = true := by
  rcases bind_error.mp (admitQueued_error h) with hlock | ⟨snapshot, mid, _, hr⟩
  · exact absurd hlock (getLocked_returns hrows hs)
  rcases bind_error.mp hr with hlim | ⟨_, _, _, hpure⟩
  · cases hmax : snapshot.quota.maxQueuedTasks with
    | none =>
      rw [hmax] at hlim
      exact absurd hlim pure_error
    | some =>
      rw [hmax] at hlim
      rw [← (raiseIf_error.mp hlim).2.1]
      rfl
  · exact absurd hpure pure_error

/-- A retry is admitted or refused, never raised. -/
theorem admitRetry_returns {p : Uuid} :
    admitRetry now p db ≠ .error e db' := by
  intro h
  rw [admitRetry, bind_get] at h
  cases hs : db.quotaStates.get? p with
  | none =>
    simp only [hs, isNone_none, if_true] at h
    exact pure_error h
  | some =>
    simp only [hs, isNone_some, Bool.false_eq_true, if_false] at h
    rcases catching_error h with ⟨hrsd, hunhandled⟩ | ⟨mid, hhdr⟩
    · rcases bind_error.mp hrsd with hadmit | ⟨_, _, _, hpure⟩
      · exact hunhandled (admitQueued_exceeded hrows hs hadmit)
      · exact pure_error hpure
    · exact pure_error hhdr

omit hrows

/-- A batch raises what the locks on its projects raise, or what the recovery of
    one of its tasks raises. -/
theorem recoverExpired_error {I : Db → Prop} (hlife : ∀ s, I s → Lifecycle s.cluster)
    (hkeep : ∀ s s', I s → Follows R s s' → I s') (hI : I db) {locked : List Uuid}
    {limit : ℕ} (h : recoverExpired now locked limit attempts grace db = .error e db') :
    (∃ projects, (∀ p ∈ projects, ∃ t task, db.tasks.get? t = some task
        ∧ task.projectId = p) ∧ lockProjects now projects db = .error e db')
    ∨ ∃ t task mid, I mid ∧ db.tasks.get? t = some task ∧ mid.tasks.get? t = some task
      ∧ task.status ∈ activeTaskStatuses
      ∧ recoverTask now attempts grace t mid = .error e db' := by
  obtain ⟨hnd, hsel⟩ := expiredTasks_selected db now locked limit
  rw [recoverExpired, bind_get] at h
  rcases bind_error.mp h with hlock | ⟨_, mid, hlock, hr⟩
  · refine .inl ⟨_, ?_, hlock⟩
    intro p hp
    have hmem := mem_dedup.mp ((mem_insertionSort _).mp hp)
    obtain ⟨t, _, hproj⟩ := mem_filterMap.mp hmem
    obtain ⟨task, hrow, rfl⟩ := map_eq_some_iff.mp hproj
    exact ⟨t, task, hrow, rfl⟩
  · have huns := lockProjects_unseen hlock
    rw [← huns.1] at hsel
    obtain ⟨t, _, task, last, hlast, hrow, hf⟩ := recoverTasks_error hlife hkeep
      (hkeep db mid hI huns.follows) ⟨hnd, hsel⟩ hr
    rw [huns.1] at hrow
    exact .inr ⟨t, task, last, hlast, hrow, hf⟩

/-- In a settled state a recovery raises nothing, unless its clock is before the
    start of a task it recovers. -/
theorem Settled.recoverTask_returns {t : Uuid} {task : Task} (h : Settled db)
    (hrow : db.tasks.get? t = some task) (hact : task.status ∈ activeTaskStatuses)
    (hclock : ∀ started, task.startedAt = some started → started ≤ now) :
    recoverTask now attempts grace t db ≠ .error e db' := by
  intro hfail
  rcases recoverTask_error h.accounts.lifecycle hrow hact hfail with
    ⟨x, hx, hrel⟩ | ⟨last, hrows, hadmit⟩
  · obtain ⟨r, hr⟩ := h.current hrow hact hx
    obtain ⟨_, started, hbeg, hlt⟩ := (h.releasable hr).error hrel
    exact absurd (hclock started hbeg) (not_le.mpr hlt)
  · exact admitRetry_returns (hrows h.rows) hadmit

end Batch

/-! ## Lease recovery -/

/-- **LEASE RECOVERY**: in every run, `recover_expired` never raises an invalid
    transition, and what it does to the statuses of the selected tasks is allowed;
    in every run of whole claims it returns, unless its clock is before the start
    of a task, so no task keeps the others of its batch from being recovered. -/
theorem lease_recovery (db : Db) (h : Reach controlPlane anyCall db) (now : Time)
    (locked : List Uuid) (limit : ℕ) (attempts : ℤ) (grace : ℚ) :
    (∀ current target db', recoverExpired now locked limit attempts grace db
        ≠ .error (.invalidTaskTransition current target) db')
      ∧ (∀ recovered db', recoverExpired now locked limit attempts grace db
          = .ok recovered db' →
        ∀ t ∈ expiredTasks db now locked limit, ∃ task task',
          db.tasks.get? t = some task ∧ db'.tasks.get? t = some task'
            ∧ task.RecoveredAs task')
      ∧ (Reach controlPlane wholeClaims db →
        (∀ t task started, db.tasks.get? t = some task → task.startedAt = some started →
          started ≤ now) →
        ∃ recovered db', recoverExpired now locked limit attempts grace db
          = .ok recovered db') := by
  obtain ⟨hlife, _⟩ := reach_any (I := fun _ => True) trivial (fun _ _ _ _ _ => trivial) h
  refine ⟨?_, ?_, ?_⟩
  · intro current target db' hfail
    have hrsd : Err.NotTransition (.invalidTaskTransition current target) := by
      rcases recoverExpired_error (R := anyRules) (I := fun s => Lifecycle s.cluster)
        (fun _ hs => hs) (fun _ _ hs hfol => hfol.lifecycle hs) hlife hfail with
        ⟨projects, _, hlock⟩ | ⟨t, task, mid, hmid, _, hrow, hact, hrec⟩
      · exact lockProjects_raises projects db _ db' hlock
      · rcases recoverTask_error hmid hrow hact hrec with
          ⟨x, _, hrel⟩ | ⟨last, _, hadmit⟩
        · exact releaseAndSettle_raises _ _ _ mid _ db' hrel
        · exact admitRetry_raises last _ db' hadmit
    exact hrsd current target rfl
  · intro _ _ hok t ht
    obtain ⟨_, _, _, huns, hlife', hsel, hr⟩ := recoverExpired_pass hlife hok
    rw [← huns.1]
    exact (recoverTasks_recovers hlife' hsel hr).1 t ht
  · intro hwhole hclock
    have hsett := reach_settled hwhole
    cases hrun : recoverExpired now locked limit attempts grace db with
    | ok recovered db' => exact ⟨recovered, db', rfl⟩
    | error =>
      rcases recoverExpired_error (I := Settled) (fun _ hs => hs.accounts.lifecycle)
        (fun _ _ hs hfol => hs.follows hfol) hsett hrun with
        ⟨projects, hprojects, hlock⟩ | ⟨t, task, mid, hmid, hrow, hrow', hact, hfail⟩
      · refine absurd hlock (lockProjects_returns hsett.rows ?_)
        intro p hp
        obtain ⟨t, task, hrow, rfl⟩ := hprojects p hp
        exact hlife.booked t task.job (cluster_job hrow)
      · exact absurd hfail (hmid.recoverTask_returns hrow' hact
          (fun started hbeg => hclock t task started hrow hbeg))

/-- The lease of the claimed task has run out, and its recovery returns. -/
theorem lease_recovery_half_core : expiredTasks afterClaim 100 [] 10 = [1]
      ∧ ∃ recovered db', recoverExpired 100 [] 10 3 5 afterClaim = .ok recovered db' := by
  refine ⟨by decide +kernel, ?_⟩
  refine (lease_recovery afterClaim (freshCloud_run _) 100 [] 10 3 5).2.2
    ((Reach.init freshCloud_init).run claimedCalls (by decide +kernel)) ?_
  intro t task started hrow hbeg
  have hn : afterClaim.tasks.select (fun _ task => task.startedAt.isSome) = [] := by
    decide +kernel
  have hmem : (t, task) ∈ afterClaim.tasks.select (fun _ task => task.startedAt.isSome) :=
    Table.mem_select.mpr ⟨hrow, isSome_iff_exists.mpr ⟨started, hbeg⟩⟩
  rw [hn] at hmem
  cases hmem

/-- Two workers claim a task each, one of them of 0.5006 cores. -/
def batchCalls : List Call :=
  [⟨0, registerWorker⟩, ⟨0, .register "v" gpuWorker 200⟩,
   ⟨1, .createQueued 1 { halfCoreTask [] with cpuLimit := 5006 / 10000 }⟩,
   ⟨1, .createQueued 2 (halfCoreTask [])⟩,
   ⟨2, .claim 1 "w" 11 30 none standardPrices []⟩,
   ⟨3, .claim 2 "v" 12 30 none standardPrices []⟩]

def batchCloud : Db := controlPlane.run batchCalls freshCloud

/-- Both leases have run out.  The release of the first task is refused, so the
    batch is rolled back and the second task is not recovered either; it would be,
    were the first one locked by somebody else. -/
theorem batch_not_recovered : Reach controlPlane finalReports batchCloud
      ∧ expiredTasks batchCloud 100 [] 10 = [1, 2]
      ∧ (∃ db', recoverExpired 100 [] 10 3 5 batchCloud
          = .error (.resourceInvariantViolation
              "worker w aggregate capacity is below active reservation") db')
      ∧ commit (recoverExpired 100 [] 10 3 5) batchCloud = batchCloud
      ∧ ∃ db', recoverExpired 100 [1] 10 3 5 batchCloud = .ok [2] db' := by
  have hrsd : raised (recoverExpired 100 [] 10 3 5) batchCloud
      = some (.resourceInvariantViolation
          "worker w aggregate capacity is below active reservation") := by decide +kernel
  have hret : returned (recoverExpired 100 [1] 10 3 5) batchCloud = some [2] := by
    decide +kernel
  obtain ⟨db', herror⟩ := raised_eq_some.mp hrsd
  exact ⟨freshCloud_final _ (by decide), by decide +kernel, ⟨db', herror⟩,
    commit_of_error herror, returned_eq_some.mp hret⟩

end MiniAiCloud
