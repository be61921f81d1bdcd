import MiniAiCloud.SettlementRefinement

/-! # Recovery follows the cluster

    An execution whose lease ran out is ended by the reaper, one task after the
    other, and an execution whose Job still runs is handed over to the session
    the controller came back with. -/

namespace MiniAiCloud

open Transaction Cluster Table Option

variable {grace lease : ℚ} {job : Job} {recovered : Bool} {attempts : ℤ} {target : TaskStatus}
  {u : Unit} {x : Option Uuid}

/-! ## An expired lease -/

section Recovery

variable {R : Rules} {db mid db' : Db} {now : Time} {t : Uuid} {task base : Task}

/-- **RECOVERY IS ALLOWED**: a task that holds may always go where its recovery
    sends it.  Only a task that was asked to stop is cancelled, and it stopped
    launching when it was asked. -/
theorem recoveredStatus_allowed (hlife : Lifecycle db.cluster)
    (hrow : db.tasks.get? t = some task) (hheld : task.status ∈ holdingStatuses) :
    CanTransition task.status task.recoveredStatus := by
  have hlaud : task.status ∈ launchStatuses → task.cancelRequested = false :=
    (hlife.task hrow).launched
  rw [Task.recoveredStatus]
  split_ifs with hcncl hpre
  · have hstopped : task.status ∉ launchStatuses := by
      intro hlau
      rw [Task.CancellationRequested, hlaud hlau] at hcncl
      exact Bool.false_ne_true hcncl.1
    revert hheld hstopped
    cases task.status <;> decide
  · rw [hpre]
    decide
  · revert hheld
    cases task.status <;> decide

theorem recoveredStatus_cases (task : Task) :
    task.recoveredStatus = .cancelled ∨ task.recoveredStatus = .preempted
      ∨ task.recoveredStatus = .failed := by
  rw [Task.recoveredStatus]
  split_ifs with hcncl hpre
  · exact .inl rfl
  · exact .inr (.inl rfl)
  · exact .inr (.inr rfl)

/-- The shape the preempted and the failed branch of `recover_expired` have in common. -/
def recoverEnded (now : Time) (t : Uuid) (base : Task) (x : Option Uuid) (target : TaskStatus)
    (eventType : String) (category : ErrorCategory) (code : Option ErrorCode)
    (message : String) (retries : Task → Prop) [DecidablePred retries] (next : Task → Task)
    (grace : ℚ) : Txn Bool := do
  let task ← transition t base target now eventType
  let task : Task :=
    { task.failedWith (some category) code with errorMessage := some message }
  recordRecovery x category code message
  if retries task then do
    let admitted ← admitRetry now task.projectId
    if admitted = true then do
      requeueRecovered now t (next task) grace
      pure true
    else do
      saveTask t (task.suppressed message)
      pure false
  else do
    saveTask t task
    pure false

theorem recoverPreempted_eq : recoverPreempted now t base x grace
    = recoverEnded now t base x .preempted "task.preempted" .preempted none
      "preempted execution lease expired; worker ownership was revoked"
      (·.requeueOnPreempt = true) id grace := rfl

theorem recoverFailed_eq {code : ErrorCode} : recoverFailed now t base x code attempts grace
    = recoverEnded now t base x .failed "task.status_changed" .infraError (some code)
      "execution lease expired; worker ownership was revoked"
      (·.recoveryCount < attempts)
      (fun task => { task with recoveryCount := task.recoveryCount + 1 }) grace := rfl

/-- The branches of a recovery. -/
def recoverBranch (now : Time) (attempts : ℤ) (grace : ℚ) (t : Uuid) (task base : Task)
    (code : ErrorCode) : Txn Bool :=
  if task.recoveredStatus = .cancelled then recoverCancelled now t base task.executionId
  else if task.recoveredStatus = .preempted then
    recoverPreempted now t base task.executionId grace
  else recoverFailed now t base task.executionId code attempts grace

theorem recoverBranch_cases (now : Time) (attempts : ℤ) (grace : ℚ) (t : Uuid)
    (task base : Task) (code : ErrorCode) :
    task.recoveredStatus = .cancelled ∧ recoverBranch now attempts grace t task base code
        = recoverCancelled now t base task.executionId
      ∨ task.recoveredStatus = .preempted ∧ recoverBranch now attempts grace t task base code
        = recoverPreempted now t base task.executionId grace
      ∨ task.recoveredStatus = .failed ∧ recoverBranch now attempts grace t task base code
        = recoverFailed now t base task.executionId code attempts grace := by
  rcases recoveredStatus_cases task with hs | hs | hs
  · exact .inl ⟨hs, if_pos hs⟩
  · refine .inr (.inl ⟨hs, ?_⟩)
    rw [recoverBranch, hs, if_neg (by decide), if_pos rfl]
  · refine .inr (.inr ⟨hs, ?_⟩)
    rw [recoverBranch, hs, if_neg (by decide), if_neg (by decide)]

/-- **A RECOVERY** releases the execution, completes the plans and takes its branch. -/
theorem recoverTask_eq (hrow : db.tasks.get? t = some task) : recoverTask now attempts grace t db
      = (do
        let released ← releaseExpired now t { task with leaseExpiresAt := none }
          task.recoveredStatus
        closePlans now t task
        recoverBranch now attempts grace t task
          { released with executionId := none, workerId := none }
          (recoveryCode db task.workerId) : Txn Bool) db := by
  rw [recoverTask, bind_get]
  simp only [hrow, closePlans]
  by_cases hpre : task.status = .preempting
  · simp only [if_pos hpre]
    rfl
  · simp only [if_neg hpre]
    rfl

/-- What a recovery does to the tasks: it writes one row, which has ended, or waits
    again where that is allowed. -/
def Recovers (t : Uuid) (target : TaskStatus) (db db' : Db) : Prop :=
  ∃ row : Task, db'.tasks = db.tasks.set t row
    ∧ (row.status = target ∨ row.status = .retrying ∧ CanTransition target .retrying)

theorem Recovers.of_save {row : Task} (htasks : mid.tasks = db.tasks)
    (hsave : saveTask t row mid = .ok u db')
    (hst : row.status = target ∨ row.status = .retrying ∧ CanTransition target .retrying) :
    Recovers t target db db' := by
  refine ⟨row, ?_, hst⟩
  rw [saveTask_ok.mp hsave, ← htasks]

theorem Recovers.touches (h : Recovers t target db db') :
    TouchesOnly t db db' := by
  obtain ⟨_, htasks, _⟩ := h
  intro v hv
  rw [htasks, get?_set_ne _ _ hv]

theorem recordRecovery_unseen {category : ErrorCategory} {code : Option ErrorCode}
    {message : String} (h : recordRecovery x category code message db = .ok u db') :
    Unseen db db' := by
  cases x with
  | none =>
    obtain ⟨_, rfl⟩ := pure_ok.mp h
    exact ⟨rfl, rfl, id⟩
  | some => exact recordExecutionError_unseen h

/-- The row of a task whose execution was taken away, as a job. -/
theorem Task.recovered_job (hbase : base.job = { job with worker := none, execution := none })
    (target : TaskStatus) (now : Time) (category : Option ErrorCategory)
    (code : Option ErrorCode) (message : Option String) :
    Task.job { (base.transitioned target now).failedWith category code with
        errorMessage := message }
      = job.ended target false (decide (category = some .cancelled)) := by
  show { base.job with
      status := target
      userCancel := decide (category = some ErrorCategory.cancelled) } = _
  rw [hbase]
  rfl

/-- The end of a recovery: with the queue's consent the task goes back to it. -/
theorem requeueRecovered_follows {mid' : Db} {userCancel : Bool}
    (hend : Ending R t job target false db mid)
    (hjob : task.job = job.ended target false userCancel)
    (hmoves : BookMoves job.project (fun book => book.waiting 1) mid mid')
    (h : requeueRecovered now t task grace mid' = .ok u db') :
    Follows R db db' ∧ Recovers t target db db' := by
  obtain ⟨moved, last, htr, hsave⟩ := bind_ok.mp h
  obtain ⟨halw, hmoved, _⟩ := transition_ok htr
  have hst : task.status = target := congrArg Job.status hjob
  rw [hst] at halw
  have htasks : last.tasks = db.tasks := by
    rw [transition_tasks htr, hmoves.tasks, hend.tasks]
  have hretry : moved.status = .retrying := by
    rw [hmoved]
    rfl
  refine ⟨hend.requeued userCancel (retryable_of_transition halw) hmoves htr
      hsave ?_, Recovers.of_save htasks hsave (.inr ⟨hretry, halw⟩)⟩
  rw [hmoved]
  show { task.job with status := .retrying, cancel := false } = _
  rw [hjob]
  rfl

theorem recoverCancelled_follows (hend : Ending R t job .cancelled false db mid)
    (hbase : base.job = { job with worker := none, execution := none })
    (h : recoverCancelled now t base x mid = .ok recovered db') :
    Follows R db db' ∧ Recovers t .cancelled db db' := by
  simp only [recoverCancelled, bind_ok, pure_ok] at h
  obtain ⟨_, between, htr, _, _, hsave, _, _, hrec, _, rfl⟩ := h
  obtain ⟨_, hmoved, _, _, _, hbtw⟩ := transition_ok htr
  have huns : Unseen mid between := by
    rw [hbtw]
    exact ⟨rfl, rfl, id⟩
  have hend' := hend.unseen huns
  have hrecorded := recordRecovery_unseen hrec
  rw [hmoved] at hsave
  refine ⟨(hend'.saved hsave (Task.recovered_job hbase _ _ _ _ _)).trans hrecorded.follows, ?_⟩
  rw [Recovers, hrecorded.1]
  exact Recovers.of_save hend'.tasks hsave (.inl rfl)

theorem recoverEnded_follows {eventType message : String} {category : ErrorCategory}
    {code : Option ErrorCode} {retries : Task → Prop} [DecidablePred retries]
    {next : Task → Task} (hlife : Lifecycle db.cluster)
    (hend : Ending R t job target false db mid)
    (hbase : base.job = { job with worker := none, execution := none })
    (h : recoverEnded now t base x target eventType category code message retries next grace mid
      = .ok recovered db') (hnext : ∀ task, (next task).job = task.job) :
    Follows R db db' ∧ Recovers t target db db' := by
  obtain ⟨_, between, htr, h₁⟩ := bind_ok.mp h
  obtain ⟨_, _, hrec, h₂⟩ := bind_ok.mp h₁
  obtain ⟨_, rfl, _, _, _, hbtw⟩ := transition_ok htr
  have huns : Unseen mid between := by
    rw [hbtw]
    exact ⟨rfl, rfl, id⟩
  have hend := (hend.unseen huns).unseen (recordRecovery_unseen hrec)
  have hjob := Task.recovered_job hbase target now (some category) code (some message)
  have hproj : base.projectId = job.project := congrArg Job.project hjob
  split_ifs at h₂ with hrtr
  · obtain ⟨_, _, hadmit, hr⟩ := bind_ok.mp h₂
    obtain ⟨s, hs⟩ := hend.state hlife
    rw [← hproj] at hs
    rcases admitRetry_cases hs hadmit with ⟨rfl, hmoves⟩ | ⟨rfl, huns⟩
    · rw [if_pos rfl] at hr
      obtain ⟨_, _, hrq, hpure⟩ := bind_ok.mp hr
      obtain ⟨_, rfl⟩ := pure_ok.mp hpure
      rw [hproj] at hmoves
      exact requeueRecovered_follows hend ((hnext _).trans hjob) hmoves hrq
    · rw [if_neg Bool.false_ne_true] at hr
      obtain ⟨_, _, hsave, hpure⟩ := bind_ok.mp hr
      obtain ⟨_, rfl⟩ := pure_ok.mp hpure
      have hend' := hend.unseen huns
      exact ⟨hend'.saved hsave hjob, Recovers.of_save hend'.tasks hsave (.inl rfl)⟩
  · obtain ⟨_, _, hsave, hpure⟩ := bind_ok.mp h₂
    obtain ⟨_, rfl⟩ := pure_ok.mp hpure
    exact ⟨hend.saved hsave hjob, Recovers.of_save hend.tasks hsave (.inl rfl)⟩

/-- When a recovery may end the execution of a task. -/
theorem recovery_canEnd {x : Uuid} (hlife : Lifecycle db.cluster)
    (hrow : db.tasks.get? t = some task) (hheld : task.status ∈ holdingStatuses)
    (hx : task.executionId = some x) :
    CanEnd R db.cluster t x task.job task.recoveredStatus false := by
  have hfin : task.recoveredStatus ∈ finalTaskStatuses := by
    rcases recoveredStatus_cases task with h | h | h
    all_goals
      rw [h]
      decide
  exact {
    job_eq := cluster_job hrow
    holding := hheld
    execution := hx
    allowed := recoveredStatus_allowed hlife hrow hheld
    target_ok := R.final_target _ hfin
    cancelling := fun hc => by
      rw [Task.recoveredStatus, if_pos ((Task.cancelling_job task).mp hc)]
    final := fun _ => hfin }

theorem releaseExpired_owned {x : Uuid} (hx : task.executionId = some x) (final : TaskStatus) :
    releaseExpired now t task final = releaseExecution now t task task.workerId x final
      "execution_lease_expired" := by
  rw [releaseExpired]
  simp only [hx]

/-- **ONE RECOVERY** follows the cluster and writes one task row. -/
theorem recoverTask_follows (hlife : Lifecycle db.cluster) (hrow : db.tasks.get? t = some task)
    (hact : task.status ∈ activeTaskStatuses)
    (h : recoverTask now attempts grace t db = .ok recovered db') :
    Follows R db db' ∧ Recovers t task.recoveredStatus db db' := by
  have hheld := holding_of_active hlife hrow hact
  obtain ⟨x, hx⟩ := ne_none_iff_exists'.mp ((hlife.task hrow).holding hheld).1
  have hx' : Task.executionId { task with leaseExpiresAt := none } = some x := hx
  rw [recoverTask_eq hrow] at h
  obtain ⟨released, _, hrel, h₁⟩ := bind_ok.mp h
  obtain ⟨_, _, hplans, h₂⟩ := bind_ok.mp h₁
  rw [releaseExpired_owned hx'] at hrel
  obtain ⟨hend, _, hreleased⟩ :=
    releaseExecution_ends (recovery_canEnd (R := R) hlife hrow hheld hx') hrel
  have hbase : Task.job { released with executionId := none, workerId := none }
      = { task.job with worker := none, execution := none } := by
    rw [hreleased]
    rfl
  have hend := hend.unseen (closePlans_unseen hplans)
  rcases recoverBranch_cases now attempts grace t task
    { released with executionId := none, workerId := none } (recoveryCode db task.workerId)
    with ⟨hs, hbr⟩ | ⟨hs, hbr⟩ | ⟨hs, hbr⟩
  all_goals
    rw [hs] at hend ⊢
    rw [hbr] at h₂
  · exact recoverCancelled_follows hend hbase h₂
  · rw [recoverPreempted_eq] at h₂
    exact recoverEnded_follows hlife hend hbase h₂ (fun _ => rfl)
  · rw [recoverFailed_eq] at h₂
    exact recoverEnded_follows hlife hend hbase h₂ (fun _ => rfl)

theorem recoverTasks_pass {ids recovered : List Uuid}
    (h : recoverTasks now attempts grace ids db = .ok recovered db') :
    Pass (fun t a b => ∃ c, recoverTask now attempts grace t a = .ok c b) ids db db' := by
  induction ids generalizing db recovered with
  | nil =>
    obtain ⟨_, rfl⟩ := pure_ok.mp h
    exact .done
  | cons _ _ ih =>
    simp only [recoverTasks, bind_ok, pure_ok] at h
    obtain ⟨c, _, hrec, _, _, hoths, _, rfl⟩ := h
    exact .next ⟨c, hrec⟩ (ih hoths)

theorem lockProjects_unseen {projects : List Uuid}
    (h : lockProjects now projects db = .ok u db') : Unseen db db' := by
  induction projects generalizing db with
  | nil =>
    obtain ⟨_, rfl⟩ := pure_ok.mp h
    exact ⟨rfl, rfl, id⟩
  | cons _ _ ih =>
    obtain ⟨_, _, hlock, hr⟩ := bind_ok.mp h
    exact (getLocked_moves hlock).unseen.trans (ih hr)

/-- The tasks a recovery selects are expired ones. -/
theorem expiredTasks_selected (db : Db) (now : Time) (locked : List Uuid) (limit : ℕ) :
    Selected (·.Expired now) (expiredTasks db now locked limit) db := by
  refine ⟨earliest_nodup (select_keys_nodup _ _) _ _ _, fun t ht => ?_⟩
  obtain ⟨task, hmem⟩ := mem_earliest ht
  obtain ⟨hrow, hsel⟩ := mem_select.mp hmem
  exact ⟨task, hrow, of_decide_eq_true hsel⟩

/-- A recovery locks the quota rows and then takes one expired task after the other. -/
theorem recoverExpired_pass {locked : List Uuid} {limit : ℕ} {recovered : List Uuid}
    (hlife : Lifecycle db.cluster)
    (h : recoverExpired now locked limit attempts grace db = .ok recovered db') :
    ∃ projects mid, lockProjects now projects db = .ok () mid ∧ Unseen db mid
      ∧ Lifecycle mid.cluster
      ∧ Selected (·.Expired now) (expiredTasks db now locked limit) mid
      ∧ recoverTasks now attempts grace (expiredTasks db now locked limit) mid
        = .ok recovered db' := by
  rw [recoverExpired, bind_get] at h
  obtain ⟨_, mid, hlock, hr⟩ := bind_ok.mp h
  have huns := lockProjects_unseen hlock
  refine ⟨_, mid, hlock, huns, ?_, ?_, hr⟩
  · rw [huns.2.1]
    exact hlife
  · obtain ⟨hnd, hgood⟩ := expiredTasks_selected db now locked limit
    rw [← huns.1] at hgood
    exact ⟨hnd, hgood⟩

/-- **`recover_expired`** follows the cluster. -/
theorem recoverExpired_follows {locked : List Uuid} {limit : ℕ} {recovered : List Uuid}
    (hlife : Lifecycle db.cluster)
    (h : recoverExpired now locked limit attempts grace db = .ok recovered db') :
    Follows R db db' := by
  obtain ⟨_, _, _, huns, hlife', hsel, hr⟩ := recoverExpired_pass hlife h
  refine huns.follows.trans ((recoverTasks_pass hr).each
    (J := fun d => Lifecycle d.cluster) hsel hlife' Follows.refl Follows.trans
    fun hrow hexp hlife ⟨_, hrec⟩ => ?_)
  obtain ⟨hfol, hrecs⟩ := recoverTask_follows hlife hrow hexp.1 hrec
  exact ⟨hfol, hfol.lifecycle hlife, hrecs.touches⟩

end Recovery

/-! ## Taking over running Jobs -/

section Transfers

variable {R : Rules} {db db' : Db} {now : Time} {w : WorkerId} {session : Uuid}

/-- The rows an observation is transferred on are rows of the database. -/
theorem transferable_rows {o : JobObservation} {T : Transfer}
    (h : transferable db w session o = some T) :
    db.tasks.get? T.taskId = some T.task
      ∧ db.executions.get? T.executionId = some T.execution
      ∧ db.reservations.get? T.executionId = some T.reservation
      ∧ T.reservation.workerId = w := by
  simp only [transferable, bind_eq_bind, bind_eq_some_iff] at h
  obtain ⟨_, _, _, _, _, _, _, _, _, _, _, htask, _, hexec, _,
    hact, _, _, _, _, _, _, _, _, _, hwk, _, _, hT⟩ := h
  have heq := ((guard_eq_some' _).mp hwk).1
  rw [← some.inj hT]
  exact ⟨htask, hexec, (activeReservation_eq_some.mp hact).1, heq⟩

/-- A transfer hands the hold over to the session the worker has now. -/
theorem transferExecution_follows {T : Transfer} {result : RecoverableRuntimeExecution}
    {worker : Worker} (htask : db.tasks.get? T.taskId = some T.task)
    (hexec : db.executions.get? T.executionId = some T.execution)
    (hres : db.reservations.get? T.executionId = some T.reservation)
    (hwk : db.workers.get? T.reservation.workerId = some worker)
    (hsess : worker.workerSessionId = session)
    (h : transferExecution now session lease grace T db = .ok result db') :
    Follows R db db' ∧ db'.workers = db.workers := by
  simp only [transferExecution, bind_ok, modify_ok, pure_ok] at h
  obtain ⟨_, mid, hmid, _, _, hlease, _, _, hsave, _, rfl⟩ := h
  rw [(runtimeLeaseExpiry_reads _ _ _ _).of_ok hlease] at hsave
  have hfirst : Follows R db mid := by
    rw [hmid]
    refine Follows.step ?_ rfl rfl
    have hstep := Step.handover (R := R) T.executionId T.reservation.hold worker.slot
      (cluster_hold hres) (cluster_slot hwk)
    show Step R db.cluster (Cluster.mk (db.tasks.map Task.job)
      ((db.reservations.set T.executionId _).map _) _ _ _ _
      ((db.executions.set T.executionId _).map _))
    rw [map_set, map_set_eq hexec]
    · have heq : worker.slot.session = session := hsess
      rw [heq] at hstep
      exact hstep
    · rfl
  have hrow : mid.tasks.get? T.taskId = some T.task := by
    rw [hmid]
    exact htask
  refine ⟨hfirst.trans (saveTask_same hsave hrow rfl), ?_⟩
  rw [saveTask_ok.mp hsave, hmid]

theorem transferObserved_follows {observations : List JobObservation}
    {results : List RecoverableRuntimeExecution} {worker : Worker}
    (hwk : db.workers.get? w = some worker) (hsess : worker.workerSessionId = session)
    (h : transferObserved now w session lease grace observations db = .ok results db') :
    Follows R db db' := by
  induction observations generalizing db results with
  | nil => exact .of_pure h
  | cons o _ ih =>
    rw [transferObserved, bind_get] at h
    cases hT : transferable db w session o with
    | none =>
      simp only [hT] at h
      exact ih hwk h
    | some =>
      simp only [hT, bind_ok, pure_ok] at h
      obtain ⟨_, mid, hfirst, _, _, hoths, _, rfl⟩ := h
      obtain ⟨htask, hexec, hres, heq⟩ := transferable_rows hT
      have hboth : Follows R db mid ∧ mid.workers = db.workers :=
        transferExecution_follows htask hexec hres (by rw [heq]; exact hwk) hsess hfirst
      refine hboth.1.trans (ih ?_ hoths)
      rw [hboth.2]
      exact hwk

theorem transferRecoverableKubernetesExecutions_follows {observations : List JobObservation}
    {results : List RecoverableRuntimeExecution}
    (h : transferRecoverableKubernetesExecutions now w session lease grace observations db
      = .ok results db') : Follows R db db' := by
  rw [transferRecoverableKubernetesExecutions, bind_get] at h
  split_ifs at h with hcur
  · obtain ⟨_, hwk, hsess⟩ := hcur
    exact transferObserved_follows hwk hsess h
  · exact .of_pure h

end Transfers

end MiniAiCloud
