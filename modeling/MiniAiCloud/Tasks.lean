import Mathlib.Data.List.Sort
import MiniAiCloud.Reservations

/-! # The task repository: submission, dependencies, cancellation, retries

    The task row is threaded through a call as the object the session holds and
    written back with `saveTask`.  Queries read the tables; a query that skips
    rows locked by other transactions takes the list of those rows. -/

namespace MiniAiCloud

open Transaction

/-! ## Rows and transitions -/

/-- Write the row of a task. -/
def saveTask (taskId : Uuid) (task : Task) : Txn Unit :=
  modify fun db => { db with tasks := db.tasks.set taskId task }

/-- Append an entry to the history of a task. -/
def recordEvent (event : TaskEvent) : Txn Unit :=
  modify fun db => { db with taskEvents := db.taskEvents ++ [event] }

/-- The row `_transition` leaves. -/
def Task.transitioned (task : Task) (target : TaskStatus) (now : Time) : Task :=
  { task with
    status := target
    version := task.version + 1
    queuedAt := if target = .queued then some now else task.queuedAt
    assignedAt := if target = .assigned then some now else task.assignedAt
    startedAt := if target = .running then some now else task.startedAt
    finishedAt :=
      if target = .queued ∨ target = .retrying then none
      else if target ∈ finalTaskStatuses then some now
      else task.finishedAt }

/-- `ensure_transition`. -/
def ensureTransition (current target : TaskStatus) : Txn Unit :=
  raiseIf (¬ CanTransition current target) (.invalidTaskTransition current target)

/-- `_transition`. -/
def transition (taskId : Uuid) (task : Task) (target : TaskStatus) (now : Time)
    (eventType : String) : Txn Task := do
  ensureTransition task.status target
  recordEvent {
    projectId := task.projectId
    taskId := taskId
    eventType := eventType
    sequence := task.version + 1
    fromStatus := some task.status
    status := target
    executionId := task.executionId
    workerId := task.workerId
    createdAt := now }
  pure (task.transitioned target now)

/-- `_prepare_for_assignment`: per-attempt columns are cleared. -/
def Task.prepared (task : Task) : Task :=
  { task with
    startedAt := none
    finishedAt := none
    exitCode := none
    errorMessage := none
    failureCategory := none
    errorCategory := none
    errorCode := none
    durationMs := none
    cpuSeconds := none
    gpuSeconds := none
    wallTimeSeconds := none
    estimatedCost := none
    runtimeHandle := none
    gpuDeviceIds := []
    cancelRequested := false
    nextAttemptAt := none
    unschedulableReason := none }

/-- The error columns of a task, all from one category. -/
def Task.failedWith (task : Task) (category : Option ErrorCategory)
    (code : Option ErrorCode) : Task :=
  { task with
    failureCategory := category
    errorCategory := category
    errorCode := code }

/-! ## Dependencies -/

/-- The failure policy and prerequisite status of each edge out of a task. -/
def dependencyRows (db : Db) (taskId : Uuid) :
    List (DependencyFailurePolicy × TaskStatus) :=
  (db.taskDependencies.select (fun key _ => key.1 = taskId)).filterMap
    fun row => (db.tasks.get? row.1.2).map
      (fun prerequisite => (row.2.failurePolicy, prerequisite.status))

/-- `_unsatisfied_dependencies`: some prerequisite has not succeeded. -/
def UnsatisfiedDependencies (db : Db) (taskId : Uuid) : Prop :=
  ∃ row ∈ dependencyRows db taskId, row.2 ≠ .succeeded
  deriving Decidable

/-- A prerequisite in this status can no longer succeed. -/
def Unsuccessful (status : TaskStatus) : Prop :=
  status ∈ finalTaskStatuses ∧ status ≠ .succeeded
  deriving Decidable

/-- `DependencyFailurePolicy(text)`, `none` where it is unsupported. -/
def DependencyFailurePolicy.ofString? (text : String) :
    Option DependencyFailurePolicy :=
  if text = "cancel" then some .cancel
  else if text = "block" then some .block
  else none

/-! ## Submission -/

/-- What a client submits. -/
structure TaskSubmission where
  projectId : Uuid
  runtimeType : RuntimeType := .docker
  timeoutSeconds : ℤ
  maxRetries : ℤ
  retryBackoff : RetryBackoff := .exponential
  retryBaseSeconds : ℚ := 1
  retryMaxSeconds : ℚ := 60
  retryOnExitCodes : Option (List ℤ) := none
  cpuLimit : ℚ
  memoryLimitMb : ℤ
  gpuCount : ℤ
  gpuMemoryMb : ℤ := 0
  gpuModel : Option String := none
  acceleratorRequest : Option AcceleratorRequest := none
  labels : List (String × String)
  tolerations : List Toleration := []
  priority : ℤ := 50
  preemptible : Bool := false
  dependsOn : List Uuid := []
  dependencyFailurePolicy : String := "cancel"

/-- The row of a submission: CPU is stored as given and in whole millicores. -/
def TaskSubmission.task (s : TaskSubmission) (now : Time) : Task where
  projectId := s.projectId
  runtimeType := s.runtimeType
  timeoutSeconds := s.timeoutSeconds
  maxRetries := s.maxRetries
  retryBackoff := s.retryBackoff
  retryBaseSeconds := s.retryBaseSeconds
  retryMaxSeconds := s.retryMaxSeconds
  retryOnExitCodes := s.retryOnExitCodes.getD [1, 137]
  cpuLimit := s.cpuLimit
  cpuMillicores := pyRound (s.cpuLimit * 1000)
  memoryLimitMb := s.memoryLimitMb
  gpuCount := s.gpuCount
  gpuMemoryMb := s.gpuMemoryMb
  gpuModel := s.gpuModel
  acceleratorRequest := s.acceleratorRequest
  labels := s.labels
  tolerations := s.tolerations
  priority := s.priority
  preemptible := s.preemptible
  createdAt := now

/-- The CHECK constraints of the tasks table on a new row. -/
def checkTaskRow (task : Task) : Txn Unit := do
  raiseIf (¬ (0 ≤ task.priority ∧ task.priority ≤ 100)) (.integrityError "priority")
  raiseIf (¬ 0 < task.cpuMillicores) (.integrityError "cpu_millicores")
  raiseIf (¬ 0 ≤ task.gpuMemoryMb) (.integrityError "gpu_memory")
  raiseIf (¬ 0 < task.retryBaseSeconds) (.integrityError "retry_base_seconds")
  raiseIf (¬ task.retryBaseSeconds ≤ task.retryMaxSeconds)
    (.integrityError "retry_max_seconds")

/-- `_accelerator_request_vendors`; the texts name supported vendors. -/
def acceleratorRequestVendors (request : Option AcceleratorRequest)
    (gpuCount : ℤ) : Txn (Option (List String)) :=
  match request with
  | none => pure none
  | some request =>
    if gpuCount = 0 ∨ request.allowedVendors = [] then pure none
    else do
      raiseIf (∃ text ∈ request.allowedVendors,
          AcceleratorVendor.ofString? text = none)
        (.valueError "not a valid AcceleratorVendor")
      pure (some request.allowedVendors)

/-- Insert the row of a new task; its key is fresh. -/
def insertTask (taskId : Uuid) (task : Task) : Txn Unit := do
  let db ← get
  checkTaskRow task
  raiseIf (db.tasks.get? taskId ≠ none) (.integrityError "pk_tasks")
  modify fun db => { db with tasks := db.tasks.insert taskId task }

/-- The dependency edges of a new task, outside every job group. -/
def submissionEdges (taskId : Uuid) (dependsOn : List Uuid)
    (policy : DependencyFailurePolicy) : List ((Uuid × Uuid) × TaskDependency) :=
  dependsOn.map fun dependency =>
    ((taskId, dependency), { jobGroupId := none, failurePolicy := policy })

/-- The last part of `create_queued`: what the prerequisites' statuses say. -/
def settleSubmission (now : Time) (taskId : Uuid) (task : Task)
    (policy : DependencyFailurePolicy) (statuses : List TaskStatus) :
    Txn Task := do
  if (∃ status ∈ statuses, Unsuccessful status) ∧ policy = .cancel then do
    let task ← transition taskId task .cancelled now "task.dependency_cancelled"
    let task := { task.failedWith (some .cancelled) task.errorCode with
      errorMessage := some "a prerequisite task did not succeed" }
    saveTask taskId task
    let _ ← releaseQueued now task.projectId
    pure task
  else if ∀ status ∈ statuses, status = .succeeded then do
    let task ← transition taskId task .queued now "task.queued"
    saveTask taskId task
    pure task
  else pure task

/-- `TaskRepository.create_queued`; `taskId` is the minted primary key. -/
def createQueued (now : Time) (taskId : Uuid) (s : TaskSubmission) :
    Txn Task := do
  let db ← get
  raiseIf (¬ s.dependsOn.Nodup)
    (.dependencyValidation "depends_on task IDs must be unique")
  let policy ← expect (DependencyFailurePolicy.ofString? s.dependencyFailurePolicy)
    (.dependencyValidation "unsupported dependency failure policy")
  let dependencyTasks := db.tasks.select
    (fun id task => task.projectId = s.projectId ∧ id ∈ s.dependsOn)
  raiseIf (dependencyTasks.length ≠ s.dependsOn.length)
    (.dependencyValidation "every dependency must exist in the submitting project")
  let quota ← initializeQuota now s.projectId
  let vendors ← acceleratorRequestVendors s.acceleratorRequest s.gpuCount
  ensureTaskCanFit quota.quota (pyRound (s.cpuLimit * 1000)) s.memoryLimitMb
    s.gpuCount none vendors
  let _ ← admitQueued now s.projectId
  let task := s.task now
  insertTask taskId task
  let edges := submissionEdges taskId s.dependsOn policy
  modify fun db => { db with
    taskDependencies := db.taskDependencies.insertAll edges }
  recordEvent {
    projectId := s.projectId
    taskId := taskId
    eventType := "task.created"
    sequence := 0
    fromStatus := none
    status := .pending
    createdAt := now }
  settleSubmission now taskId task policy
    (dependencyTasks.map (fun row => row.2.status))

/-! ## Dependency resolution -/

/-- `ORDER BY column, id` on rows with a time and a key. -/
def Earlier (a b : Time × Uuid) : Prop :=
  a.1 < b.1 ∨ a.1 = b.1 ∧ a.2 ≤ b.2
  deriving Decidable

/-- The keys of the selected rows by a time column, up to a limit; the rows
    other transactions have locked are skipped. -/
def earliest {ρ : Type} (rows : List (Uuid × ρ)) (column : ρ → Option Time)
    (locked : List Uuid) (limit : ℕ) : List Uuid :=
  -- A null sorts last, behind every row that has a time.
  let free := rows.filter (fun row => row.1 ∉ locked)
  let timed := free.filterMap (fun row => (column row.2).map (fun t => (t, row.1)))
  let untimed := (free.filter (fun row => column row.2 = none)).map Prod.fst
  ((timed.insertionSort Earlier).map Prod.snd ++ untimed).take limit

/-- The tasks `resolve_dependency_readiness` looks at. -/
def unresolvedTasks (db : Db) (locked : List Uuid) (limit : ℕ) : List Uuid :=
  earliest (db.tasks.select (fun id task =>
      (task.status = .pending ∨ task.status = .queued)
        ∧ ∃ row ∈ db.taskDependencies.rows, row.1.1 = id))
    (fun task => some task.createdAt) locked limit

/-- One iteration of `resolve_dependency_readiness`, on the prerequisite rows
    read before the loop.  Returns whether the task changed. -/
def resolveTask (now : Time) (taskId : Uuid)
    (rows : List (DependencyFailurePolicy × TaskStatus)) : Txn Bool := do
  let db ← get
  match db.tasks.get? taskId with
  | none => pure false
  | some task =>
    if rows = [] then pure false
    else if ∀ row ∈ rows, row.2 = .succeeded then
      if task.status = .pending then do
        let task ← transition taskId task .queued now
          "task.dependencies_satisfied"
        saveTask taskId task
        pure true
      else pure false
    else if ∃ row ∈ rows, Unsuccessful row.2 ∧ row.1 = .cancel then do
      let task ← transition taskId task .cancelled now "task.dependency_cancelled"
      saveTask taskId { task.failedWith (some .cancelled) task.errorCode with
        cancelRequested := true
        errorMessage := some "a prerequisite task did not succeed" }
      let _ ← releaseQueued now task.projectId
      pure true
    else pure false

/-- The loop of `resolve_dependency_readiness` over the selected tasks. -/
def resolveTasks (now : Time) (before : Db) : List Uuid → Txn (List Uuid)
  | [] => pure []
  | taskId :: rest => do
      let changed ← resolveTask now taskId (dependencyRows before taskId)
      let others ← resolveTasks now before rest
      pure (if changed then taskId :: others else others)

/-- `TaskRepository.resolve_dependency_readiness`. -/
def resolveDependencyReadiness (now : Time) (locked : List Uuid) (limit : ℕ) :
    Txn (List Uuid) := do
  let db ← get
  resolveTasks now db (unresolvedTasks db locked limit)

/-! ## Cancellation -/

/-- `_release_worker_capacity`: the counters are clamped, not checked. -/
def Worker.clampedWithout (worker : Worker) (task : Task) : Worker :=
  { worker with
    runningTasks := max 0 (worker.runningTasks - 1)
    reservedCpu := max 0 (worker.reservedCpu - task.cpuLimit)
    reservedMemoryMb := max 0 (worker.reservedMemoryMb - task.memoryLimitMb)
    reservedGpus := max 0 (worker.reservedGpus - task.gpuCount)
    version := worker.version + 1 }

/-- Release the capacity of a task that has no reservation row. -/
def releaseWorkerCapacity (workerId : Option WorkerId) (task : Task) :
    Txn Unit :=
  match workerId with
  | none => pure ()
  | some workerId => modify fun db => { db with
      workers := db.workers.modify workerId (fun worker => worker.clampedWithout task) }

/-- `QuotaRepository.release_queued` where the project has a quota state. -/
def releaseQueuedIfTracked (now : Time) (projectId : Uuid) : Txn Unit := do
  let db ← get
  if (db.quotaStates.get? projectId).isSome then do
    let _ ← releaseQueued now projectId
  else pure ()

/-- The last branch of `cancel`: a task that holds no execution. -/
def cancelIdle (now : Time) (taskId : Uuid) (task : Task) : Txn Task := do
  let previous := task
  let task ← transition taskId task .cancelled now "task.status_changed"
  let task := { task.failedWith (some .cancelled) none with
    cancelRequested := true
    leaseExpiresAt := none
    executionId := none }
  saveTask taskId task
  if previous.status = .pending ∨ previous.status = .queued
      ∨ previous.status = .scheduling ∨ previous.status = .retrying then
    releaseQueuedIfTracked now task.projectId
  else pure ()
  releaseWorkerCapacity previous.workerId task
  pure task

/-- `TaskRepository.cancel`. -/
def cancel (now : Time) (taskId : Uuid) : Txn (Option Task) := do
  let db ← get
  match db.tasks.get? taskId with
  | none => pure none
  | some task =>
    if task.status ∈ finalTaskStatuses then pure (some task)
    else if task.status = .preempting then do
      let task := { task.failedWith (some .cancelled) none with
        cancelRequested := true
        requeueOnPreempt := false
        version := task.version + 1 }
      saveTask taskId task
      pure (some task)
    else if task.status ∈ activeTaskStatuses ∧ task.executionId ≠ none then do
      let task := { task with cancelRequested := true }
      let task ← if task.status ≠ .stopping
        then transition taskId task .stopping now "task.stop_requested"
        else pure task
      saveTask taskId task
      pure (some task)
    else do
      let task ← cancelIdle now taskId task
      pure (some task)

/-! ## Due retries -/

/-- One iteration of `release_due_retries`. -/
def releaseRetry (now : Time) (taskId : Uuid) : Txn Unit := do
  let db ← get
  match db.tasks.get? taskId with
  | none => pure ()
  | some task =>
    if task.cancelRequested then do
      let task ← transition taskId task .cancelled now "task.status_changed"
      saveTask taskId { task.failedWith (some .cancelled) none with
        nextAttemptAt := none }
    else do
      let task ← transition taskId task .queued now "task.status_changed"
      saveTask taskId { task with nextAttemptAt := none, cancelRequested := false }

/-- The loop of `release_due_retries`. -/
def releaseRetries (now : Time) : List Uuid → Txn Unit
  | [] => pure ()
  | taskId :: rest => do
      releaseRetry now taskId
      releaseRetries now rest

/-- `TaskRepository.release_due_retries`. -/
def releaseDueRetries (now : Time) (locked : List Uuid) (limit : ℕ) :
    Txn (List Uuid) := do
  let db ← get
  let due := earliest (db.tasks.select (fun _ task => task.status = .retrying
      ∧ ∀ t ∈ task.nextAttemptAt, t ≤ now))
    (fun task => task.nextAttemptAt) locked limit
  releaseRetries now due
  pure due

end MiniAiCloud
