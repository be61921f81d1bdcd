import MiniAiCloud.Tasks

/-! # The task repository: calls of the worker that owns an execution

    A worker names the task, itself, the execution and its session.  Each call
    checks that the execution is the task's current one and that the session
    still owns its reservation before it writes anything. -/

namespace MiniAiCloud

open Transaction

/-- The identity a worker-side call carries. -/
structure Caller where
  taskId : Uuid
  workerId : WorkerId
  executionId : Uuid
  workerSessionId : Option Uuid

/-- `_session_owns_execution`. -/
def SessionOwnsExecution (db : Db) (workerId : WorkerId) (executionId : Uuid)
    (session : Uuid) : Prop :=
  (∃ worker ∈ db.workers.get? workerId, worker.workerSessionId = session)
    ∧ ∃ reservation ∈ db.reservations.get? executionId,
        reservation.workerId = workerId
          ∧ reservation.workerSessionId = session
          ∧ reservation.releasedAt = none
  deriving Decidable

/-- The task row, where the execution token is the current one. -/
def currentTask (db : Db) (c : Caller) : Option Task :=
  (db.tasks.get? c.taskId).filter (fun task =>
    task.workerId = some c.workerId ∧ task.executionId = some c.executionId)

/-- `_owned_task`. -/
def ownedTask (c : Caller) : Txn Task := do
  let db ← get
  let task ← expect (currentTask db c) (.staleExecution "execution token is stale")
  raiseIf (∃ session ∈ c.workerSessionId,
      ¬ SessionOwnsExecution db c.workerId c.executionId session)
    (.staleExecution "worker session is stale")
  pure task

/-- `_runtime_lease_expiry`. -/
def runtimeLeaseExpiry (task : Task) (now : Time) (leaseSeconds : ℚ)
    (cleanupGraceSeconds : ℚ) : Txn Time := do
  raiseIf (cleanupGraceSeconds < 0)
    (.valueError "Kubernetes runtime cleanup grace must not be negative")
  let ordinaryExpiry := now + leaseSeconds
  if task.runtimeType ≠ .kubernetes ∨ task.runtimeHandle.isNone then
    pure ordinaryExpiry
  else
    let startedAt := task.startedAt.getD now
    pure (max ordinaryExpiry (startedAt + task.timeoutSeconds + cleanupGraceSeconds))

/-! ## Progress and leases -/

/-- `mark_pulling`, `mark_starting` and `mark_running`: renew the lease where
    the step was reported before, else take it from one of the `previous`
    statuses. -/
def markProgress (reported previous : List TaskStatus) (target : TaskStatus)
    (message : String) (now : Time) (c : Caller)
    (leaseSeconds cleanupGraceSeconds : ℚ) : Txn Task := do
  let task ← ownedTask c
  if task.status ∈ reported then do
    let lease ← runtimeLeaseExpiry task now leaseSeconds cleanupGraceSeconds
    let task := { task with
      leaseExpiresAt := some lease
      version := task.version + 1 }
    saveTask c.taskId task
    pure task
  else do
    raiseIf (task.status ∉ previous) (.staleExecution message)
    let task ← transition c.taskId task target now "task.status_changed"
    let lease ← runtimeLeaseExpiry task now leaseSeconds cleanupGraceSeconds
    let task := { task with leaseExpiresAt := some lease }
    saveTask c.taskId task
    pure task

/-- `TaskRepository.mark_pulling`. -/
def markPulling : Time → Caller → ℚ → ℚ → Txn Task :=
  markProgress [.pulling, .starting, .running] [.assigned, .preparing] .pulling
    "task is no longer assigned to this execution"

/-- `TaskRepository.mark_starting`. -/
def markStarting : Time → Caller → ℚ → ℚ → Txn Task :=
  markProgress [.starting, .running] [.pulling] .starting
    "task is no longer pulling for this execution"

/-- `TaskRepository.mark_running`. -/
def markRunning : Time → Caller → ℚ → ℚ → Txn Task :=
  markProgress [.running] [.pulling, .starting] .running
    "task is no longer starting for this execution"

/-- `TaskRepository.renew_lease`. -/
def renewLease (now : Time) (c : Caller)
    (leaseSeconds cleanupGraceSeconds : ℚ) : Txn Bool := do
  let db ← get
  match currentTask db c with
  | none => pure false
  | some task =>
    if task.status ∉ activeTaskStatuses ∨ ∃ session ∈ c.workerSessionId,
        ¬ SessionOwnsExecution db c.workerId c.executionId session then
      pure false
    else do
      let lease ← runtimeLeaseExpiry task now leaseSeconds cleanupGraceSeconds
      saveTask c.taskId { task with
        leaseExpiresAt := some lease
        version := task.version + 1 }
      pure true

/-- `TaskRepository.preserve_kubernetes_handoff_lease`. -/
def preserveKubernetesHandoffLease (now : Time) (c : Caller)
    (cleanupGraceSeconds : ℤ) : Txn Task := do
  let task ← ownedTask c
  raiseIf (task.runtimeType ≠ .kubernetes ∨ task.runtimeHandle.isNone)
    (.staleExecution "Kubernetes handoff runtime handle is no longer owned")
  raiseIf (cleanupGraceSeconds < 0)
    (.valueError "Kubernetes handoff cleanup grace must not be negative")
  let task := { task with
    leaseExpiresAt := some (now + (task.timeoutSeconds + cleanupGraceSeconds))
    version := task.version + 1 }
  saveTask c.taskId task
  pure task

/-! ## Runtime observations and logs -/

/-- The arguments of `record_runtime_handle`. -/
structure RuntimeObservation where
  runtimeType : String
  resourceKind : String
  resourceName : String
  runtimeNamespace : Option String
  resourceUid : Option String
  runtimeWorkerSessionId : Option Uuid
  specHash : Option String
  observedPodName : Option String
  observedPodUid : Option String

/-- `not text` for an optional text. -/
def Blank (text : Option String) : Prop := text = none ∨ text = some ""
  deriving Decidable

/-- The checks of `record_runtime_handle` on a Kubernetes observation. -/
def checkKubernetesHandle (o : RuntimeObservation) (execution : TaskExecution)
    (cleanupGraceSeconds : ℚ) : Txn Unit := do
  raiseIf (cleanupGraceSeconds < 0)
    (.valueError "Kubernetes runtime cleanup grace must not be negative")
  raiseIf (o.resourceKind ≠ "job" ∨ Blank o.runtimeNamespace
      ∨ o.resourceName = "" ∨ Blank o.resourceUid
      ∨ o.runtimeWorkerSessionId = none ∨ Blank o.specHash)
    (.valueError "Kubernetes runtime handle has incomplete Job fencing identity")
  raiseIf (execution.runtimeWorkerSessionId ≠ none
      ∧ execution.runtimeWorkerSessionId ≠ o.runtimeWorkerSessionId)
    (.staleExecution "Kubernetes Job creation session is immutable")

/-- The handle an observation is persisted as. -/
def RuntimeObservation.handle (o : RuntimeObservation)
    (existing : Option RuntimeHandle) : RuntimeHandle where
  runtimeType := o.runtimeType
  runtimeNamespace := o.runtimeNamespace
  runtimeResourceKind := o.resourceKind
  runtimeResourceName := o.resourceName
  runtimeResourceUid := o.resourceUid
  runtimeWorkerSessionId := o.runtimeWorkerSessionId
  observedPodName := o.observedPodName
  observedPodUid := o.observedPodUid
  runtimeSpecHash := o.specHash
  runtimeLogCursorBytes :=
    (existing.map (fun handle => handle.runtimeLogCursorBytes)).getD 0

/-- The execution row with an observation recorded. -/
def TaskExecution.observing (execution : TaskExecution)
    (o : RuntimeObservation) : TaskExecution :=
  if o.runtimeType = "kubernetes" then
    { execution with
      runtimeObjectId := some o.resourceName
      runtimeNamespace := o.runtimeNamespace
      runtimeResourceKind := some o.resourceKind
      runtimeResourceName := some o.resourceName
      runtimeResourceUid := o.resourceUid
      runtimeWorkerSessionId := o.runtimeWorkerSessionId
      observedPodName := o.observedPodName
      observedPodUid := o.observedPodUid
      runtimeSpecHash := o.specHash }
  else { execution with runtimeObjectId := some o.resourceName }

/-- Write the row of an execution. -/
def saveExecution (executionId : Uuid) (execution : TaskExecution) : Txn Unit :=
  modify fun db => { db with
    executions := db.executions.set executionId execution }

/-- `TaskRepository.record_runtime_handle`. -/
def recordRuntimeHandle (now : Time) (c : Caller) (o : RuntimeObservation)
    (cleanupGraceSeconds : ℚ) : Txn Task := do
  let task ← ownedTask c
  let db ← get
  let execution ← expect ((db.executions.get? c.executionId).filter (fun execution =>
      execution.taskId = c.taskId ∧ execution.workerId = some c.workerId))
    (.staleExecution "runtime handle execution record is stale")
  raiseIf (c.workerSessionId ≠ none
      ∧ execution.workerSessionId ≠ c.workerSessionId)
    (.staleExecution "runtime handle controller session is stale")
  raiseIf (execution.runtimeType.value ≠ o.runtimeType)
    (.staleExecution "runtime handle type does not match the execution")
  raiseIf (o.observedPodName.isNone ≠ o.observedPodUid.isNone)
    (.valueError "observed Pod name and UID must be recorded together")
  raiseIf (execution.observedPodName ≠ none
      ∧ (execution.observedPodName ≠ o.observedPodName
        ∨ execution.observedPodUid ≠ o.observedPodUid))
    (.staleExecution "observed Kubernetes Pod identity is immutable")
  raiseIf (∃ handle ∈ task.runtimeHandle, handle.observedPodName ≠ none
      ∧ (handle.observedPodName ≠ o.observedPodName
        ∨ handle.observedPodUid ≠ o.observedPodUid))
    (.staleExecution "persisted Kubernetes Pod identity is immutable")
  if o.runtimeType = "kubernetes" then
    checkKubernetesHandle o execution cleanupGraceSeconds
  else pure ()
  let task := { task with
    runtimeHandle := some (o.handle task.runtimeHandle)
    version := task.version + 1 }
  let lease ← if o.runtimeType = "kubernetes" then do
      let lease ← runtimeLeaseExpiry task now 0 cleanupGraceSeconds
      pure (some lease)
    else pure task.leaseExpiresAt
  let task := { task with leaseExpiresAt := lease }
  saveTask c.taskId task
  saveExecution c.executionId (execution.observing o)
  pure task

/-- The execution and the persisted handle name this Job. -/
def SameJob (execution : TaskExecution) (handle : RuntimeHandle)
    (resourceName resourceUid specHash : String) : Prop :=
  execution.runtimeType = .kubernetes
    ∧ execution.runtimeResourceName = some resourceName
    ∧ execution.runtimeResourceUid = some resourceUid
    ∧ execution.runtimeSpecHash = some specHash
    ∧ handle.runtimeType = "kubernetes"
    ∧ handle.runtimeResourceName = resourceName
    ∧ handle.runtimeResourceUid = some resourceUid
    ∧ handle.runtimeSpecHash = some specHash
  deriving Decidable

/-- `TaskRepository.advance_runtime_log_cursor`; its caller always has a
    session. -/
def advanceRuntimeLogCursor (c : Caller) (cursorBytes : ℤ)
    (resourceName resourceUid specHash : String) : Txn Task := do
  raiseIf (cursorBytes < 0) (.valueError "runtime log cursor must not be negative")
  let task ← ownedTask c
  let db ← get
  let stale := Err.staleExecution "runtime log cursor execution fence is stale"
  let execution ← expect ((db.executions.get? c.executionId).filter (fun execution =>
      execution.taskId = c.taskId ∧ execution.workerId = some c.workerId
        ∧ execution.workerSessionId = c.workerSessionId)) stale
  let handle ← expect task.runtimeHandle stale
  raiseIf (¬ SameJob execution handle resourceName resourceUid specHash) stale
  raiseIf (handle.runtimeLogCursorBytes < 0)
    (.staleExecution "persisted runtime log cursor is invalid")
  raiseIf (cursorBytes < handle.runtimeLogCursorBytes)
    (.staleExecution "runtime log cursor must be monotonic")
  if cursorBytes = handle.runtimeLogCursorBytes then pure task
  else do
    let task := { task with
      runtimeHandle := some { handle with runtimeLogCursorBytes := cursorBytes }
      version := task.version + 1 }
    saveTask c.taskId task
    pure task

/-- The task `append_log` writes to. -/
def loggedTask (taskId : Uuid) (executionId : Option Uuid)
    (workerId : Option WorkerId) (workerSessionId : Option Uuid) : Txn Task :=
  match workerSessionId with
  | none => do
      let db ← get
      expect (db.tasks.get? taskId)
        (.lookupError ("task " ++ toString taskId ++ " does not exist"))
  | some session => do
      let required := Err.valueError
        "worker_id and execution_id are required with worker_session_id"
      let workerId ← expect workerId required
      let executionId ← expect executionId required
      ownedTask ⟨taskId, workerId, executionId, some session⟩

/-- `TaskRepository.append_log`. -/
def appendLog (now : Time) (taskId : Uuid) (executionId : Option Uuid)
    (stream : LogStream) (content : String) (workerId : Option WorkerId)
    (workerSessionId : Option Uuid) : Txn TaskLog := do
  let task ← loggedTask taskId executionId workerId workerSessionId
  raiseIf (executionId ≠ none ∧ (task.executionId ≠ executionId
      ∨ task.status ∉ activeTaskStatuses))
    (.staleExecution "cannot append logs for a stale or terminal execution")
  let log : TaskLog := {
    taskId := taskId
    executionId := executionId
    stream := stream
    sequence := task.logSequence + 1
    content := content
    timestamp := now }
  saveTask taskId { task with
    logSequence := task.logSequence + 1
    version := task.version + 1 }
  modify fun db => { db with taskLogs := db.taskLogs ++ [log] }
  pure log

/-! ## Picking up a placement -/

/-- The number of devices actively linked to a reservation. -/
def activeDeviceCount (db : Db) (executionId : Uuid) : ℕ :=
  (db.reservationGpuDevices.select
    (fun key link => key.1 = executionId ∧ link.releasedAt = none)).length

/-- The WHERE clause of `take_global_assignment`. -/
def Takeable (db : Db) (workerId : WorkerId) (session : Uuid) (task : Task) :
    Prop :=
  task.workerId = some workerId ∧ task.status = .assigned
    ∧ (∃ executionId ∈ task.executionId,
        ∃ reservation ∈ db.reservations.get? executionId,
          reservation.workerSessionId = session
            ∧ reservation.releasedAt = none
            ∧ reservation.gpuCount = task.gpuCount
            ∧ (task.gpuCount = 0
              ∨ (activeDeviceCount db executionId : ℤ) = task.gpuCount))
    ∧ ∃ worker ∈ db.workers.get? workerId, worker.workerSessionId = session
  deriving Decidable

/-- `TaskRepository.take_global_assignment`. -/
def takeGlobalAssignment (now : Time) (workerId : WorkerId) (session : Uuid)
    (leaseSeconds : ℚ) (locked : List Uuid) : Txn (Option (Uuid × Task)) := do
  let db ← get
  match earliest (db.tasks.select (fun _ task => Takeable db workerId session task))
      (fun task => task.assignedAt) locked 1 with
  | [] => pure none
  | taskId :: _ => do
      let task ← expect (db.tasks.get? taskId) (.lookupError "task row is missing")
      let task ← transition taskId task .preparing now "task.status_changed"
      let task := { task with leaseExpiresAt := some (now + leaseSeconds) }
      saveTask taskId task
      pure (some (taskId, task))

end MiniAiCloud
