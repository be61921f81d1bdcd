import MiniAiCloud.Executions

/-! # The task repository: how an execution ends

    An execution ends when its worker reports a result (`finish_execution`) or
    when its lease runs out (`recover_expired`).  Both release the reservation
    and settle the project's books, and both may send the task back to the
    queue.  A controller that comes back may first take over the executions its
    Kubernetes Jobs still run. -/

namespace MiniAiCloud

open Transaction

/-! ## Retries -/

/-- `retry_delay_seconds`. -/
def retryDelaySeconds (retryCount : ℤ) (maximum : ℚ) (backoff : RetryBackoff)
    (baseSeconds : ℚ) : Txn ℚ := do
  raiseIf (retryCount < 1) (.valueError "retry_count must be at least 1")
  raiseIf (baseSeconds ≤ 0) (.valueError "base_seconds must be greater than zero")
  raiseIf (maximum ≤ 0) (.valueError "maximum must be greater than zero")
  let delay := match backoff with
    | .fixed => baseSeconds
    | .linear => baseSeconds * retryCount
    | .exponential => baseSeconds * 2 ^ (retryCount - 1).toNat
  pure (min delay maximum)

/-- `should_retry_failure`. -/
def ShouldRetryFailure (errorCategory : Option ErrorCategory)
    (exitCode : Option ℤ) (retryOnExitCodes : List ℤ) : Prop :=
  match errorCategory with
  | none => True
  | some .infraError | some .internalError | some .timeout => True
  | some .userError | some .resourceError =>
    ∃ code ∈ exitCode, code ∈ retryOnExitCodes
  | some .cancelled | some .preempted => False

instance (errorCategory : Option ErrorCategory) (exitCode : Option ℤ)
    (retryOnExitCodes : List ℤ) :
    Decidable (ShouldRetryFailure errorCategory exitCode retryOnExitCodes) :=
  match errorCategory with
  | none => isTrue trivial
  | some .infraError | some .internalError | some .timeout => isTrue trivial
  | some .userError | some .resourceError =>
    inferInstanceAs (Decidable (∃ code ∈ exitCode, code ∈ retryOnExitCodes))
  | some .cancelled | some .preempted => isFalse not_false

/-- `_admit_retry`: a refusal by the queue limit is no error. -/
def admitRetry (now : Time) (projectId : Uuid) : Txn Bool := do
  let db ← get
  if (db.quotaStates.get? projectId).isNone then pure true
  else
    catching Err.isQuotaExceeded
      (do
        let _ ← admitQueued now projectId
        pure true)
      (pure false)

/-- The plan, completed where it asked for this victim. -/
def PreemptionPlan.completedFor (plan : PreemptionPlan) (taskId : Uuid)
    (now : Time) : PreemptionPlan :=
  if plan.victimTaskId = taskId ∧ plan.state = .requested
  then { plan with state := .completed, completedAt := some now }
  else plan

/-- `_complete_preemption_plans`. -/
def completePreemptionPlans (taskId : Uuid) (now : Time) : Txn Unit :=
  modify fun db => { db with
    preemptionPlans :=
      db.preemptionPlans.map (fun plan => plan.completedFor taskId now) }

/-- Write the error columns of an execution, where its row exists. -/
def recordExecutionError (executionId : Uuid) (category : Option ErrorCategory)
    (code : Option ErrorCode) (message : Option String) : Txn Unit :=
  modify fun db => { db with
    executions := db.executions.modify executionId (fun execution =>
      { execution with
        errorCategory := category
        errorCode := code
        errorMessage := message }) }

/-! ## A reported result -/

/-- What a worker reports, with the settings `finish_execution` reads. -/
structure Report where
  target : TaskStatus
  exitCode : Option ℤ
  errorMessage : Option String
  errorCategory : Option ErrorCategory := none
  errorCode : Option ErrorCode := none
  retryMaxBackoffSeconds : ℚ
  cpuPricePerHour : ℚ
  gpuPricePerHour : ℚ

/-- `ExecutionResult`. -/
structure ExecutionResult where
  accepted : Bool
  status : Option TaskStatus
  retryScheduled : Bool := false

/-- The user asked for the cancellation; a preemption sets the flag too, and
    only the failure category tells the two apart. -/
def Task.CancellationRequested (task : Task) : Prop :=
  task.cancelRequested = true
    ∧ (task.status ≠ .preempting ∨ task.failureCategory = some .cancelled)
  deriving Decidable

/-- The category of a result reported without one. -/
def defaultCategory (target : TaskStatus) (exitCode : Option ℤ) :
    Option ErrorCategory :=
  if target = .timedOut then some .timeout
  else if target = .cancelled then some .cancelled
  else if target = .preempted then some .preempted
  else if target = .failed then
    if exitCode ≠ none then some .userError else some .internalError
  else none

/-- What a report comes to: a cancellation or a preemption overrides it. -/
def Task.outcome (task : Task) (report : Report) : Report :=
  if task.CancellationRequested then
    { report with
      target := .cancelled
      errorMessage := some "task was cancelled by user request"
      errorCategory := some .cancelled
      errorCode := none }
  else if task.status = .preempting then
    { report with
      target := .preempted
      errorMessage := some "task was stopped to admit a higher-priority workload"
      errorCategory := some .preempted
      errorCode := none }
  else if report.errorCategory = none then
    { report with errorCategory := defaultCategory report.target report.exitCode }
  else report

/-- The usage columns of a task that started. -/
def Task.measured (task : Task) (now : Time) (report : Report) : Task :=
  match task.startedAt with
  | none => task
  | some startedAt =>
    let duration := max 0 (now - startedAt)
    let cpuSeconds := duration * task.cpuLimit
    let gpuSeconds := duration * task.gpuCount
    { task with
      durationMs := some (pyRound (duration * 1000))
      wallTimeSeconds := some duration
      cpuSeconds := some cpuSeconds
      gpuSeconds := some gpuSeconds
      estimatedCost := some (cpuSeconds * report.cpuPricePerHour / 3600
        + gpuSeconds * report.gpuPricePerHour / 3600) }

/-- The row of a task that ended with this result. -/
def Task.reported (task : Task) (now : Time) (result : Report) : Task :=
  let task := { task.failedWith result.errorCategory result.errorCode with
    exitCode := result.exitCode
    errorMessage := result.errorMessage
    leaseExpiresAt := none }
  task.measured now result

/-- The result may go back to the queue by the user's retry budget. -/
def Task.RetriesFailure (task : Task) (result : Report) : Prop :=
  (result.target = .failed ∨ result.target = .timedOut)
    ∧ task.retryCount < task.maxRetries
    ∧ ShouldRetryFailure result.errorCategory result.exitCode task.retryOnExitCodes
  deriving Decidable

/-- The result goes back to the queue because the victim of a preemption is
    requeued. -/
def Task.RequeuesPreempted (task : Task) (result : Report) : Prop :=
  result.target = .preempted ∧ task.requeueOnPreempt = true
  deriving Decidable

/-- The columns of a task that waits for its next attempt. -/
def Task.retrying (task : Task) (nextAttemptAt : Time) : Task :=
  { task with
    nextAttemptAt := some nextAttemptAt
    workerId := none
    executionId := none
    cancelRequested := false }

/-- Whether the queue takes the task back, asked only where it wants to go. -/
def retryAdmission (now : Time) (task : Task) (result : Report) : Txn Bool :=
  if task.RequeuesPreempted result then admitRetry now task.projectId
  else if task.RetriesFailure result then admitRetry now task.projectId
  else pure false

/-- The retry part of `finish_execution`; returns whether one is scheduled. -/
def scheduleRetry (now : Time) (taskId : Uuid) (task : Task) (result : Report) :
    Txn (Bool × Task) := do
  let retryAdmitted ← retryAdmission now task result
  if task.RetriesFailure result ∧ retryAdmitted = true then do
    let task := { task with retryCount := task.retryCount + 1 }
    let task ← transition taskId task .retrying now "task.status_changed"
    let delay ← retryDelaySeconds task.retryCount
      (min task.retryMaxSeconds result.retryMaxBackoffSeconds)
      task.retryBackoff task.retryBaseSeconds
    pure (true, task.retrying (now + delay))
  else if task.RequeuesPreempted result ∧ retryAdmitted = true then do
    let task ← transition taskId task .retrying now "task.status_changed"
    pure (true, task.retrying now)
  else pure (false, task)

/-- Release what the execution holds; an execution without a reservation row
    gives its worker capacity back by the task's own columns. -/
def releaseExecution (now : Time) (taskId : Uuid) (task : Task)
    (workerId : Option WorkerId) (executionId : Uuid) (finalStatus : TaskStatus)
    (releaseReason : String) : Txn Task := do
  let released ← releaseAndSettle now taskId task executionId finalStatus
    releaseReason
  if released.1 = true then pure released.2
  else do
    releaseWorkerCapacity workerId released.2
    pure released.2

/-- `finish_execution` behind its fence. -/
def settleReport (now : Time) (c : Caller) (task : Task) (report : Report) :
    Txn ExecutionResult := do
  let result := task.outcome report
  let preemptionRequested := task.status = .preempting
  let task ← transition c.taskId task result.target now
    ("task." ++ result.target.value)
  let task := task.reported now result
  let task ← releaseExecution now c.taskId task (some c.workerId) c.executionId
    result.target result.target.value
  recordExecutionError c.executionId result.errorCategory result.errorCode
    result.errorMessage
  if preemptionRequested then completePreemptionPlans c.taskId now else pure ()
  let retried ← scheduleRetry now c.taskId task result
  saveTask c.taskId retried.2
  pure { accepted := true, status := some retried.2.status,
         retryScheduled := retried.1 }

/-- The session fence of `finish_execution`.  It locks the quota row of the
    project first, which rolls the row to the current day. -/
def finishFence (now : Time) (c : Caller) (task : Task) : Txn Bool :=
  match c.workerSessionId with
  | none => pure true
  | some session => do
      let _ ← getLocked now task.projectId
      let db ← get
      pure (decide (SessionOwnsExecution db c.workerId c.executionId session))

/-- `TaskRepository.finish_execution`. -/
def finishExecution (now : Time) (c : Caller) (report : Report) :
    Txn ExecutionResult := do
  let db ← get
  match currentTask db c with
  | none => pure { accepted := false, status := none }
  | some task =>
    if task.status ∉ activeTaskStatuses then
      pure { accepted := false, status := some task.status }
    else do
      let owned ← finishFence now c task
      if owned = true then settleReport now c task report
      else pure { accepted := false, status := none }

/-! ## An expired lease -/

/-- The status an expired execution is recovered to. -/
def Task.recoveredStatus (task : Task) : TaskStatus :=
  if task.CancellationRequested then .cancelled
  else if task.status = .preempting then .preempted
  else .failed

/-- Why the lease ran out. -/
def recoveryCode (db : Db) (workerId : Option WorkerId) : ErrorCode :=
  match workerId.bind db.workers.get? with
  | none => .workerLost
  | some worker =>
    if worker.status = .offline then .workerLost else .leaseExpired

/-- Write the error columns of the execution that was given up, if any. -/
def recordRecovery (executionId : Option Uuid) (category : ErrorCategory)
    (code : Option ErrorCode) (message : String) : Txn Unit :=
  match executionId with
  | none => pure ()
  | some executionId =>
    recordExecutionError executionId (some category) code (some message)

/-- The release step of `recover_expired`. -/
def releaseExpired (now : Time) (taskId : Uuid) (task : Task)
    (finalStatus : TaskStatus) : Txn Task :=
  match task.executionId with
  | none => do
      releaseWorkerCapacity task.workerId task
      pure task
  | some executionId =>
    releaseExecution now taskId task task.workerId executionId finalStatus
      "execution_lease_expired"

/-- The columns of a task that waits for its next attempt after a recovery. -/
def requeueRecovered (now : Time) (taskId : Uuid) (task : Task)
    (cleanupGraceSeconds : ℚ) : Txn Unit := do
  let task ← transition taskId task .retrying now "task.status_changed"
  saveTask taskId { task with
    nextAttemptAt := some (now + cleanupGraceSeconds)
    cancelRequested := false }

/-- The cancelled branch of `recover_expired`. -/
def recoverCancelled (now : Time) (taskId : Uuid) (task : Task)
    (executionId : Option Uuid) : Txn Bool := do
  let task ← transition taskId task .cancelled now "task.status_changed"
  let message := "task was cancelled before its execution lease expired"
  saveTask taskId { task.failedWith (some .cancelled) none with
    errorMessage := some message }
  recordRecovery executionId .cancelled none message
  pure true

/-- What the task is told where its retry finds no room in the queue. -/
def Task.suppressed (task : Task) (message : String) : Task :=
  { task with
    errorMessage := some (message ++ "; retry suppressed by project queue quota") }

/-- The preempted branch of `recover_expired`. -/
def recoverPreempted (now : Time) (taskId : Uuid) (task : Task)
    (executionId : Option Uuid) (cleanupGraceSeconds : ℚ) : Txn Bool := do
  let task ← transition taskId task .preempted now "task.preempted"
  let message := "preempted execution lease expired; worker ownership was revoked"
  let task : Task := { task.failedWith (some .preempted) none with
    errorMessage := some message }
  recordRecovery executionId .preempted none message
  if task.requeueOnPreempt = true then do
    let admitted ← admitRetry now task.projectId
    if admitted = true then do
      requeueRecovered now taskId task cleanupGraceSeconds
      pure true
    else do
      saveTask taskId (task.suppressed message)
      pure false
  else do
    saveTask taskId task
    pure false

/-- The failed branch of `recover_expired`. -/
def recoverFailed (now : Time) (taskId : Uuid) (task : Task)
    (executionId : Option Uuid) (code : ErrorCode) (maxRecoveryAttempts : ℤ)
    (cleanupGraceSeconds : ℚ) : Txn Bool := do
  let task ← transition taskId task .failed now "task.status_changed"
  let message := "execution lease expired; worker ownership was revoked"
  let task := { task.failedWith (some .infraError) (some code) with
    errorMessage := some message }
  recordRecovery executionId .infraError (some code) message
  if task.recoveryCount < maxRecoveryAttempts then do
    let admitted ← admitRetry now task.projectId
    if admitted = true then do
      let task := { task with recoveryCount := task.recoveryCount + 1 }
      requeueRecovered now taskId task cleanupGraceSeconds
      pure true
    else do
      saveTask taskId (task.suppressed message)
      pure false
  else do
    saveTask taskId task
    pure false

/-- One iteration of `recover_expired`; returns whether the task is reported
    as recovered. -/
def recoverTask (now : Time) (maxRecoveryAttempts : ℤ) (cleanupGraceSeconds : ℚ)
    (taskId : Uuid) : Txn Bool := do
  let db ← get
  match db.tasks.get? taskId with
  | none => pure false
  | some task => do
      let recoveredStatus := task.recoveredStatus
      let code := recoveryCode db task.workerId
      let executionId := task.executionId
      let preemptionRequested := task.status = .preempting
      let lapsed := { task with leaseExpiresAt := none }
      let task ← releaseExpired now taskId lapsed recoveredStatus
      let task := { task with executionId := none, workerId := none }
      if preemptionRequested then completePreemptionPlans taskId now else pure ()
      if recoveredStatus = .cancelled then
        recoverCancelled now taskId task executionId
      else if recoveredStatus = .preempted then
        recoverPreempted now taskId task executionId cleanupGraceSeconds
      else
        recoverFailed now taskId task executionId code maxRecoveryAttempts
          cleanupGraceSeconds

/-- The loop of `recover_expired` over the selected tasks. -/
def recoverTasks (now : Time) (maxRecoveryAttempts : ℤ)
    (cleanupGraceSeconds : ℚ) : List Uuid → Txn (List Uuid)
  | [] => pure []
  | taskId :: rest => do
      let recovered ← recoverTask now maxRecoveryAttempts cleanupGraceSeconds taskId
      let others ← recoverTasks now maxRecoveryAttempts cleanupGraceSeconds rest
      pure (if recovered = true then taskId :: others else others)

/-- Lock the quota rows of the projects, one after the other. -/
def lockProjects (now : Time) : List Uuid → Txn Unit
  | [] => pure ()
  | projectId :: rest => do
      let _ ← getLocked now projectId
      lockProjects now rest

/-- The lease of an active task has run out. -/
def Task.Expired (task : Task) (now : Time) : Prop :=
  task.status ∈ activeTaskStatuses ∧ ∃ lease ∈ task.leaseExpiresAt, lease < now
  deriving Decidable

/-- The tasks `recover_expired` looks at. -/
def expiredTasks (db : Db) (now : Time) (locked : List Uuid) (limit : ℕ) :
    List Uuid :=
  earliest (db.tasks.select (fun _ task => task.Expired now))
    (fun task => task.leaseExpiresAt) locked limit

/-- `TaskRepository.recover_expired`. -/
def recoverExpired (now : Time) (locked : List Uuid) (limit : ℕ)
    (maxRecoveryAttempts : ℤ) (cleanupGraceSeconds : ℚ) : Txn (List Uuid) := do
  let db ← get
  let tasks := expiredTasks db now locked limit
  let projects := (tasks.filterMap (fun taskId =>
    (db.tasks.get? taskId).map (fun task => task.projectId))).dedup
  lockProjects now (projects.insertionSort (· ≤ ·))
  recoverTasks now maxRecoveryAttempts cleanupGraceSeconds tasks

/-! ## Taking over running Jobs -/

/-- A Job a controller found running; a text that is no UUID is `none`. -/
structure JobObservation where
  taskId : Option Uuid
  executionId : Option Uuid
  workerSessionId : Option Uuid
  controllerSessionId : Option Uuid
  jobNamespace : Option String
  resourceName : Option String
  resourceUid : Option String
  specHash : Option String
  observedPodName : Option String := none
  observedPodUid : Option String := none

/-- The persisted handle is the one of the observed Job. -/
def RuntimeHandle.MatchesJob (handle : RuntimeHandle) (o : JobObservation)
    (runtimeWorkerSessionId : Uuid) : Prop :=
  0 ≤ handle.runtimeLogCursorBytes
    ∧ handle.runtimeType = "kubernetes"
    ∧ handle.runtimeNamespace = o.jobNamespace
    ∧ handle.runtimeResourceKind = "job"
    ∧ some handle.runtimeResourceName = o.resourceName
    ∧ handle.runtimeResourceUid = o.resourceUid
    ∧ handle.runtimeWorkerSessionId = some runtimeWorkerSessionId
    ∧ handle.runtimeSpecHash = o.specHash
  deriving Decidable

/-- The execution row is the one of the observed Job. -/
def TaskExecution.MatchesJob (execution : TaskExecution) (o : JobObservation)
    (taskId : Uuid) (workerId : WorkerId) (runtimeWorkerSessionId : Uuid) : Prop :=
  execution.taskId = taskId
    ∧ execution.workerId = some workerId
    ∧ execution.runtimeWorkerSessionId = some runtimeWorkerSessionId
    ∧ execution.runtimeNamespace = o.jobNamespace
    ∧ execution.runtimeResourceKind = some "job"
    ∧ execution.runtimeResourceName = o.resourceName
    ∧ execution.runtimeResourceUid = o.resourceUid
    ∧ execution.runtimeSpecHash = o.specHash
  deriving Decidable

/-- The observed Pod contradicts a recorded one, or is half an identity. -/
def PodConflict (o : JobObservation) (handle : RuntimeHandle)
    (execution : TaskExecution) : Prop :=
  o.observedPodName.isNone ≠ o.observedPodUid.isNone
    ∨ (handle.observedPodName ≠ none
      ∧ (handle.observedPodName ≠ o.observedPodName
        ∨ handle.observedPodUid ≠ o.observedPodUid))
    ∨ (execution.observedPodName ≠ none
      ∧ (execution.observedPodName ≠ o.observedPodName
        ∨ execution.observedPodUid ≠ o.observedPodUid))
  deriving Decidable

/-- The rows an observation is transferred on. -/
structure Transfer where
  taskId : Uuid
  executionId : Uuid
  task : Task
  execution : TaskExecution
  reservation : ResourceReservation
  runtimeLogCursorBytes : ℤ

/-- The checks of `transfer_recoverable_kubernetes_executions` on one
    observation; `none` where it is passed over. -/
def transferable (db : Db) (workerId : WorkerId) (newSession : Uuid)
    (o : JobObservation) : Option Transfer := do
  let taskId ← o.taskId
  let executionId ← o.executionId
  let runtimeWorkerSessionId ← o.workerSessionId
  let controllerSessionId ← o.controllerSessionId
  guard (controllerSessionId = newSession)
  let task ← db.tasks.get? taskId
  let execution ← db.executions.get? executionId
  let reservation ← activeReservation db executionId
  let handle ← task.runtimeHandle
  guard (handle.MatchesJob o runtimeWorkerSessionId)
  guard (task.status ∈ activeTaskStatuses ∧ task.workerId = some workerId
    ∧ task.executionId = some executionId ∧ task.runtimeType = .kubernetes)
  guard (execution.MatchesJob o taskId workerId runtimeWorkerSessionId)
  guard (reservation.workerId = workerId
    ∧ execution.workerSessionId = some reservation.workerSessionId)
  guard (¬ PodConflict o handle execution)
  some ⟨taskId, executionId, task, execution, reservation,
    handle.runtimeLogCursorBytes⟩

/-- `RecoverableRuntimeExecution`. -/
structure RecoverableRuntimeExecution where
  taskId : Uuid
  executionId : Uuid
  workerSessionId : Uuid
  runtimeLogCursorBytes : ℤ

/-- Point the execution and its reservation to the new session. -/
def transferExecution (now : Time) (newSession : Uuid)
    (leaseSeconds cleanupGraceSeconds : ℚ) (t : Transfer) :
    Txn RecoverableRuntimeExecution := do
  modify fun db => { db with
    executions := db.executions.set t.executionId
      { t.execution with workerSessionId := some newSession }
    reservations := db.reservations.set t.executionId
      { t.reservation with workerSessionId := newSession } }
  let lease ← runtimeLeaseExpiry t.task now leaseSeconds cleanupGraceSeconds
  saveTask t.taskId { t.task with
    leaseExpiresAt := some lease
    version := t.task.version + 1 }
  pure ⟨t.taskId, t.executionId, newSession, t.runtimeLogCursorBytes⟩

/-- The loop over the observations. -/
def transferObserved (now : Time) (workerId : WorkerId) (newSession : Uuid)
    (leaseSeconds cleanupGraceSeconds : ℚ) :
    List JobObservation → Txn (List RecoverableRuntimeExecution)
  | [] => pure []
  | o :: rest => do
      let db ← get
      match transferable db workerId newSession o with
      | none =>
        transferObserved now workerId newSession leaseSeconds
          cleanupGraceSeconds rest
      | some t => do
          let recovered ← transferExecution now newSession leaseSeconds
            cleanupGraceSeconds t
          let others ← transferObserved now workerId newSession leaseSeconds
            cleanupGraceSeconds rest
          pure (recovered :: others)

/-- `TaskRepository.transfer_recoverable_kubernetes_executions`. -/
def transferRecoverableKubernetesExecutions (now : Time) (workerId : WorkerId)
    (newSession : Uuid) (leaseSeconds cleanupGraceSeconds : ℚ)
    (observations : List JobObservation) :
    Txn (List RecoverableRuntimeExecution) := do
  let db ← get
  if ∃ worker ∈ db.workers.get? workerId, worker.workerSessionId = newSession then
    transferObserved now workerId newSession leaseSeconds cleanupGraceSeconds
      observations
  else pure []

end MiniAiCloud
