import MiniAiCloud.Tasks
import MiniAiCloud.Policies

/-! # Assigning tasks to workers

    A queued task gets an execution in one of two ways: a worker pulls it
    (`claim`) or the global scheduler places it (`place`).  Both check the task,
    its prerequisites and the worker, mint an execution, charge the worker and
    the project and bind devices.  To make room, the scheduler may ask running
    tasks to stop (`request_preemption`). -/

namespace MiniAiCloud

open Transaction

/-! ## The rows an assignment writes -/

/-- What an assignment mints and reserves. -/
structure Assignment where
  executionId : Uuid
  workerId : WorkerId
  /-- The amount added to `reserved_cpu`. -/
  cpuCharge : ℚ
  /-- The devices bound to the reservation. -/
  devices : List (Uuid × GpuDevice)
  requested : RequestedAccelerator
  prices : Prices

/-- The worker counters after an assignment. -/
def Worker.charged (worker : Worker) (task : Task) (cpuCharge : ℚ) : Worker :=
  { worker with
    runningTasks := worker.runningTasks + 1
    reservedCpu := worker.reservedCpu + cpuCharge
    reservedMemoryMb := worker.reservedMemoryMb + task.memoryLimitMb
    reservedGpus := worker.reservedGpus + task.gpuCount
    version := worker.version + 1 }

/-- `max(attempt) or 0` over the executions of a task. -/
def previousAttempt (db : Db) (taskId : Uuid) : ℤ :=
  ((db.executions.select (fun _ execution => execution.taskId = taskId)).map
    (fun row => row.2.attempt)).foldl max 0

/-- The `observed_*` columns of bound devices. -/
def observedAllocation (now : Time) (devices : List (Uuid × GpuDevice)) :
    Option ObservedAllocation :=
  if devices.isEmpty then none
  else some {
    deviceIds := devices.map (fun row => row.2.deviceUuid)
    vendor := .nvidia
    observedAt := now }

def Assignment.execution (a : Assignment) (now : Time) (taskId : Uuid)
    (task : Task) (worker : Worker) (attempt : ℤ) : TaskExecution :=
  { a.requested with
    taskId := taskId
    projectId := task.projectId
    workerId := some a.workerId
    workerSessionId := some worker.workerSessionId
    attempt := attempt
    status := .assigned
    cpuMillicores := task.cpuMillicores
    memoryMb := task.memoryLimitMb
    gpuCount := task.gpuCount
    gpuModel := task.gpuModel
    observed := observedAllocation now a.devices
    prices := a.prices
    assignedAt := now
    runtimeType := task.runtimeType }

def Assignment.reservation (a : Assignment) (now : Time) (taskId : Uuid)
    (task : Task) (worker : Worker) : ResourceReservation :=
  { a.requested with
    projectId := task.projectId
    taskId := taskId
    workerId := a.workerId
    workerSessionId := worker.workerSessionId
    cpuMillicores := task.cpuMillicores
    memoryMb := task.memoryLimitMb
    gpuCount := task.gpuCount
    observed := observedAllocation now a.devices
    createdAt := now }

/-- The demand an assignment puts on the quota of its project. -/
def Assignment.demand (a : Assignment) (task : Task) : ResourceDemand where
  cpuMillicores := task.cpuMillicores
  memoryMb := task.memoryLimitMb
  gpuCount := task.gpuCount
  acceleratorVendor := a.requested.requestedVendor.map AcceleratorVendor.value

/-- The CHECK constraints that executions and reservations share. -/
def checkRequested (r : RequestedAccelerator) (gpuCount : ℤ)
    (observed : Option ObservedAllocation) : Txn Unit := do
  raiseIf (¬ (gpuCount = 0 ∧ r.requestedVendor = none ∧ r.requestedKind = none
        ∧ r.requestedProfile = none
      ∨ 0 < gpuCount ∧ r.requestedVendor ≠ none ∧ r.requestedKind ≠ none))
    (.integrityError "accelerator_request")
  raiseIf (∃ profile ∈ r.requestedProfile, ¬ (profile.digest.length = 71
      ∧ profile.digest.toList.take 7 = "sha256:".toList))
    (.integrityError "requested_profile_digest")
  raiseIf (¬ (gpuCount = 0 ∨ r.allocationAuthority ≠ .kubernetesDevicePlugin
      ∨ r.requestedProfile ≠ none))
    (.integrityError "requested_profile_authority")
  raiseIf (∃ vendor ∈ r.requestedVendor,
      r.requestedKind ≠ some (kindForVendor vendor))
    (.integrityError "requested_vendor_kind")
  raiseIf (∃ o ∈ observed, ∃ vendor ∈ r.requestedVendor, o.vendor ≠ vendor)
    (.integrityError "observed_vendor")

/-- Insert the row of a new execution. -/
def insertExecution (executionId : Uuid) (execution : TaskExecution) :
    Txn Unit := do
  let db ← get
  checkRequested execution.toRequestedAccelerator execution.gpuCount
    execution.observed
  raiseIf (db.executions.get? executionId ≠ none)
    (.integrityError "pk_task_executions")
  modify fun db => { db with
    executions := db.executions.insert executionId execution }

/-- The CHECK constraints of the reservations table alone. -/
def checkReservationRow (reservation : ResourceReservation) : Txn Unit := do
  raiseIf (¬ 0 < reservation.cpuMillicores) (.integrityError "cpu")
  raiseIf (¬ 0 < reservation.memoryMb) (.integrityError "memory")
  raiseIf (¬ 0 ≤ reservation.gpuCount) (.integrityError "gpu")
  checkRequested reservation.toRequestedAccelerator reservation.gpuCount
    reservation.observed
  raiseIf (¬ (reservation.gpuCount = 0
      ∨ reservation.allocationAuthority = .kubernetesDevicePlugin
      ∨ reservation.legacyUnbound = true ∨ reservation.observed.isSome))
    (.integrityError "exact_device_evidence")

/-- Insert the row of a new reservation: one for each execution, and one active
    one for each task. -/
def insertReservation (executionId : Uuid) (reservation : ResourceReservation) :
    Txn Unit := do
  let db ← get
  checkReservationRow reservation
  raiseIf (db.reservations.get? executionId ≠ none)
    (.integrityError "uq_resource_reservations_execution")
  raiseIf (∃ row ∈ db.reservations.rows,
      row.2.taskId = reservation.taskId ∧ row.2.releasedAt = none)
    (.integrityError "uq_reservations_active_task")
  modify fun db => { db with
    reservations := db.reservations.insert executionId reservation }

/-- A reservation holds the device. -/
def Allocated (db : Db) (deviceId : Uuid) : Prop :=
  ∃ row ∈ db.reservationGpuDevices.rows,
    row.1.2 = deviceId ∧ row.2.releasedAt = none
  deriving Decidable

/-- Link the devices to a new reservation: a device has one active link. -/
def bindDevices (now : Time) (executionId : Uuid)
    (devices : List (Uuid × GpuDevice)) : Txn Unit := do
  let db ← get
  raiseIf (∃ row ∈ devices,
      db.reservationGpuDevices.get? (executionId, row.1) ≠ none)
    (.integrityError "uq_reservation_gpu_device")
  raiseIf (∃ row ∈ devices, Allocated db row.1)
    (.integrityError "uq_reservation_gpu_active")
  modify fun db => { db with
    reservationGpuDevices := db.reservationGpuDevices.insertAll
      (devices.map (fun row => ((executionId, row.1), { createdAt := now }))) }

/-- What `claim` and `place` write once the task is marked assigned. -/
def assign (now : Time) (taskId : Uuid) (task : Task) (worker : Worker)
    (a : Assignment) : Txn Unit := do
  let db ← get
  modify fun db => { db with
    workers := db.workers.set a.workerId (worker.charged task a.cpuCharge) }
  insertExecution a.executionId
    (a.execution now taskId task worker (previousAttempt db taskId + 1))
  let reservation := a.reservation now taskId task worker
  insertReservation a.executionId reservation
  bindDevices now a.executionId a.devices
  assertExactDeviceBinding a.executionId reservation
  let _ ← reserveExecution now task.projectId (a.demand task) 0
  saveTask taskId task

/-- The task row, while it waits for an execution. -/
def queuedTask (db : Db) (taskId : Uuid) : Option Task :=
  (db.tasks.get? taskId).filter (fun task =>
    task.status = .queued ∧ task.cancelRequested = false)

/-! ## Worker-pull assignment -/

/-- `_worker_can_run_task`. -/
def WorkerCanRunTask (worker : Worker) (task : Task) : Prop :=
  worker.status = .online
    ∧ worker.overcommitted = false
    ∧ task.runtimeType.value ∈ worker.runtimeTypes
    ∧ pyRound (worker.reservedCpu * 1000) + task.cpuMillicores
        ≤ worker.cpuAllocatableMillicores
    ∧ worker.reservedMemoryMb + task.memoryLimitMb ≤ worker.memoryAllocatableMb
    ∧ worker.reservedGpus + task.gpuCount ≤ worker.gpuCount
    ∧ LabelsMatch task.labels worker.labels
    ∧ TaintsTolerated worker.taints task.tolerations
  deriving Decidable

/-- `ORDER BY memory_free_mb, memory_total_mb, device_uuid`. -/
def GpuDevice.Before (a b : Uuid × GpuDevice) : Prop :=
  a.2.memoryFreeMb < b.2.memoryFreeMb
    ∨ a.2.memoryFreeMb = b.2.memoryFreeMb
      ∧ (a.2.memoryTotalMb < b.2.memoryTotalMb
        ∨ a.2.memoryTotalMb = b.2.memoryTotalMb
          ∧ a.2.deviceUuid ≤ b.2.deviceUuid)
  deriving Decidable

/-- The device query of `claim`. -/
def claimDevices (db : Db) (workerId : WorkerId) (task : Task)
    (locked : List Uuid) : List (Uuid × GpuDevice) :=
  let free := db.gpuDevices.select (fun id device =>
    device.workerId = workerId ∧ device.health = "healthy"
      ∧ task.gpuMemoryMb ≤ device.memoryFreeMb
      ∧ device.vendor = .nvidia ∧ device.acceleratorKind = .gpu
      ∧ ¬ Allocated db id ∧ ∀ model ∈ task.gpuModel, device.model = model)
  ((free.filter (fun row => row.1 ∉ locked)).insertionSort GpuDevice.Before).take
    task.gpuCount.toNat

/-- What worker-pull asks of the accelerators. -/
def pulledAccelerator (gpuCount : ℤ) : RequestedAccelerator where
  allocationAuthority := .controlPlaneExactDevice
  requestedVendor := if gpuCount ≠ 0 then some .nvidia else none
  requestedKind := if gpuCount ≠ 0 then some .gpu else none
  requestedProfile := none

/-- The checks of `claim`: the task, the worker and the devices to bind. -/
def claimable (now : Time) (taskId : Uuid) (workerId : WorkerId)
    (workerSessionId : Option Uuid) (locked : List Uuid) :
    Txn (Task × Worker × List (Uuid × GpuDevice)) := do
  let db ← get
  let task ← expect (queuedTask db taskId) (.claimRejected "task is no longer queued")
  raiseIf (UnsatisfiedDependencies db taskId)
    (.claimRejected "task dependencies are not ready")
  let _ ← getLocked now task.projectId
  let worker ← expect ((db.workers.get? workerId).filter
      (fun worker => worker.status = .online))
    (.claimRejected "worker is not online")
  raiseIf (∃ session ∈ workerSessionId, worker.workerSessionId ≠ session)
    (.claimRejected "worker session is stale")
  raiseIf (worker.concurrency ≤ worker.runningTasks)
    (.claimRejected "worker has no free concurrency slot")
  raiseIf (¬ WorkerCanRunTask worker task)
    (.claimRejected "worker does not satisfy task requirements")
  let devices := claimDevices db workerId task locked
  raiseIf ((devices.length : ℤ) ≠ task.gpuCount)
    (.claimRejected "worker concrete GPU inventory is insufficient")
  pure (task, worker, devices)

/-- `TaskRepository.claim`; `executionId` is the minted `uuid4()`. -/
def claim (now : Time) (taskId : Uuid) (workerId : WorkerId) (executionId : Uuid)
    (leaseSeconds : ℚ) (workerSessionId : Option Uuid) (prices : Prices)
    (locked : List Uuid) : Txn (Task × Uuid) := do
  let claimed ← claimable now taskId workerId workerSessionId locked
  let worker := claimed.2.1
  let devices := claimed.2.2
  let task ← transition taskId claimed.1.prepared .assigned now "task.assigned"
  let task := { task with
    workerId := some workerId
    executionId := some executionId
    leaseExpiresAt := some (now + leaseSeconds)
    gpuDeviceIds := devices.map (fun row => row.2.deviceUuid) }
  assign now taskId task worker {
    executionId := executionId
    workerId := workerId
    -- `worker.reserved_cpu += task.cpu_limit`
    cpuCharge := task.cpuLimit
    devices := devices
    requested := pulledAccelerator task.gpuCount
    prices := prices }
  pure (task, executionId)

/-! ## Global placement -/

def isLowercase (c : Char) : Bool := 'a' ≤ c && c ≤ 'z'

def isDecimal (c : Char) : Bool := '0' ≤ c && c ≤ '9'

/-- `PROFILE_ID_PATTERN`: `[a-z][a-z0-9-]{2,63}`. -/
def isProfileId (text : String) : Bool :=
  match text.toList with
  | [] => false
  | first :: rest => isLowercase first && 2 ≤ rest.length && rest.length ≤ 63
      && rest.all (fun c => isLowercase c || isDecimal c || c = '-')

/-- `PROFILE_VERSION_PATTERN`: `[1-9][0-9]*\.[0-9]+\.[0-9]+`. -/
def isProfileVersion (text : String) : Bool :=
  match text.toList.splitOn '.' with
  | [major, minor, patch] =>
    major.head? ≠ some '0' && [major, minor, patch].all
      (fun part => !part.isEmpty && part.all isDecimal)
  | _ => false

/-- `SEMANTIC_DIGEST_PATTERN`: `sha256:[0-9a-f]{64}`. -/
def isSemanticDigest (text : String) : Bool :=
  text.toList.take 7 = "sha256:".toList && (text.toList.drop 7).length = 64
    && (text.toList.drop 7).all (fun c => isDecimal c || 'a' ≤ c && c ≤ 'f')

/-- `runtime_profile_binding_id`. -/
def runtimeProfileBindingId (profile : RuntimeProfile) : Txn String := do
  raiseIf (isProfileId profile.id = false)
    (.valueError "invalid runtime profile binding profile_id")
  raiseIf (isProfileVersion profile.version = false)
    (.valueError "invalid runtime profile binding profile_version")
  raiseIf (isSemanticDigest profile.digest = false)
    (.valueError "invalid runtime profile binding semantic_digest")
  let binding := profile.id ++ "@" ++ profile.version ++ "#" ++ profile.digest
  raiseIf (255 < binding.length)
    (.valueError "runtime profile binding must not exceed 255 characters")
  pure binding

/-- `BatchAdmissionSnapshot`, the fields `place` reads. -/
structure BatchAdmissionSnapshot where
  workerId : WorkerId
  workerSessionId : Uuid
  vendor : AcceleratorVendor
  kind : AcceleratorKind
  selectedModel : String
  runtimeProfile : RuntimeProfile
  allocationAuthority : AllocationAuthority
  acceleratorResourceName : String
  nodeName : String

/-- The arguments of `place` besides the task and the worker. -/
structure PlacementRequest where
  gpuDeviceIds : List Uuid := []
  leaseSeconds : ℚ
  prices : Prices
  admission : Option BatchAdmissionSnapshot := none
  /-- `runtime_profile_catalog is not None`. -/
  catalogAvailable : Bool := false
  /-- What the pool planner of the admission repository computes. -/
  availableAccelerators : ℤ := 0

/-- The inventory pool of a vendor admission. -/
def poolDevices (db : Db) (workerId : WorkerId) (worker : Worker)
    (admission : BatchAdmissionSnapshot) (binding : String) :
    List (Uuid × GpuDevice) :=
  let pool := db.gpuDevices.select (fun _ device =>
    device.workerId = workerId
      ∧ (device.health = "healthy" ∨ device.health = "inventory-only")
      ∧ device.inventoryGeneration = worker.inventoryGeneration
      ∧ device.vendor = admission.vendor
      ∧ device.acceleratorKind = admission.kind
      ∧ device.model = admission.selectedModel
      ∧ device.kubernetesResourceName = some admission.acceleratorResourceName
      ∧ device.kubernetesNodeName = some admission.nodeName
      ∧ binding ∈ device.runtimeProfileIds)
  pool.insertionSort (fun a b => a.2.deviceUuid ≤ b.2.deviceUuid)

/-- The requested concrete devices of the worker. -/
def requestedDevices (db : Db) (workerId : WorkerId) (ids : List Uuid) :
    List (Uuid × GpuDevice) :=
  let devices := db.gpuDevices.select (fun id device => id ∈ ids
    ∧ device.workerId = workerId ∧ device.health = "healthy"
    ∧ device.vendor = .nvidia ∧ device.acceleratorKind = .gpu)
  devices.insertionSort (fun a b => a.1 ≤ b.1)

/-- The device step of `place`. -/
def placementDevices (workerId : WorkerId) (worker : Worker) (task : Task)
    (request : PlacementRequest) : Txn (List (Uuid × GpuDevice)) := do
  let db ← get
  match request.admission with
  | some admission => do
      raiseIf (request.catalogAvailable = false)
        (.placementConflict "runtime profile catalog is unavailable")
      let binding ← runtimeProfileBindingId admission.runtimeProfile
      raiseIf (request.availableAccelerators < task.gpuCount)
        (.placementConflict "vendor accelerator capacity changed")
      pure (poolDevices db workerId worker admission binding)
  | none =>
    if request.gpuDeviceIds ≠ [] then do
      let devices := requestedDevices db workerId request.gpuDeviceIds
      raiseIf ((devices.length : ℤ) ≠ task.gpuCount)
        (.placementConflict "GPU device inventory changed")
      raiseIf (∃ id ∈ request.gpuDeviceIds, Allocated db id)
        (.placementConflict "a selected GPU was allocated concurrently")
      pure devices
    else do
      raiseIf (task.gpuCount ≠ 0)
        (.placementConflict "GPU task requires concrete device reservations")
      pure []

/-- The snapshot `place` takes of a locked device. -/
def GpuDevice.snapshot (row : Uuid × GpuDevice) (vendorAdmitted : Bool) :
    GpuDeviceSnapshot where
  id := row.1
  uuid := row.2.deviceUuid
  model := row.2.model
  memoryTotalMb := row.2.memoryTotalMb
  memoryFreeMb := some row.2.memoryFreeMb
  healthy := decide (row.2.health = "healthy")
    || vendorAdmitted && decide (row.2.health = "inventory-only")

/-- `evaluate_snapshot` on the locked rows. -/
def checkPlacement (workerId : WorkerId) (worker : Worker) (task : Task)
    (devices : List (Uuid × GpuDevice)) (vendorAdmitted : Bool) : Txn Unit :=
  let snapshot := workerSnapshot workerId worker
    (devices.map (fun row => GpuDevice.snapshot row vendorAdmitted))
  match evaluateSnapshot snapshot (taskSnapshot task) with
  | .ok _ => pure ()
  | .error rejection => throw (.placementConflict
      ("worker no longer satisfies task requirements: " ++ rejection.value))

/-- The checks of `place`: the task, the worker and the devices. -/
def placeable (now : Time) (taskId : Uuid) (workerId : WorkerId)
    (request : PlacementRequest) :
    Txn (Task × Worker × List (Uuid × GpuDevice)) := do
  let db ← get
  let task ← expect (queuedTask db taskId)
    (.placementConflict "task is no longer queued")
  raiseIf (UnsatisfiedDependencies db taskId)
    (.placementConflict "task dependencies are not ready")
  let _ ← getLocked now task.projectId
  let worker ← expect ((db.workers.get? workerId).filter
      (fun worker => worker.status = .online ∧ worker.overcommitted = false))
    (.placementConflict "worker is unavailable")
  raiseIf (∃ admission ∈ request.admission, admission.workerId ≠ workerId
      ∨ admission.workerSessionId ≠ worker.workerSessionId)
    (.placementConflict "vendor admission worker fence changed")
  raiseIf (∃ admission ∈ request.admission, admission.nodeName = "")
    (.placementConflict "vendor admission node snapshot is missing")
  raiseIf (worker.concurrency ≤ worker.runningTasks)
    (.placementConflict "worker has no free execution slot")
  raiseIf (worker.cpuAllocatableMillicores
      < worker.reservedCpu * 1000 + task.cpuMillicores)
    (.placementConflict "worker CPU capacity changed")
  raiseIf (worker.memoryAllocatableMb
      < worker.reservedMemoryMb + task.memoryLimitMb)
    (.placementConflict "worker memory capacity changed")
  raiseIf (request.admission.isSome ∧ request.gpuDeviceIds ≠ [])
    (.placementConflict
      "kubernetes_device_plugin admission must not bind database device rows")
  let devices ← placementDevices workerId worker task request
  checkPlacement workerId worker task devices request.admission.isSome
  pure (task, worker, devices)

/-- What a placement asks of the accelerators. -/
def PlacementRequest.requested (request : PlacementRequest) (gpuCount : ℤ) :
    RequestedAccelerator :=
  match request.admission with
  | none => pulledAccelerator gpuCount
  | some admission => {
      allocationAuthority := admission.allocationAuthority
      requestedVendor := if gpuCount ≠ 0 then some admission.vendor else none
      requestedKind := if gpuCount ≠ 0 then some admission.kind else none
      requestedProfile := some admission.runtimeProfile }

/-- The devices a placement binds: none where the device plugin allocates. -/
def PlacementRequest.bound (request : PlacementRequest)
    (devices : List (Uuid × GpuDevice)) : List (Uuid × GpuDevice) :=
  if request.admission.isNone then devices else []

/-- The `selected_*` columns of a vendor admission. -/
def BatchAdmissionSnapshot.selected (admission : BatchAdmissionSnapshot) :
    SelectedAccelerator where
  vendor := admission.vendor
  kind := admission.kind
  model := admission.selectedModel
  profile := admission.runtimeProfile
  allocationAuthority := admission.allocationAuthority

/-- `_record_task_event`. -/
def recordTaskEvent (now : Time) (taskId : Uuid) (task : Task)
    (previous : TaskStatus) (eventType : String) (incoming : Option Uuid) :
    Txn Unit :=
  recordEvent {
    projectId := task.projectId
    taskId := taskId
    eventType := eventType
    sequence := task.version
    fromStatus := some previous
    status := task.status
    executionId := task.executionId
    workerId := task.workerId
    incomingTaskId := incoming
    createdAt := now }

/-- The two status changes of `place`, through scheduling to assigned. -/
def markPlaced (now : Time) (taskId : Uuid) (task : Task) (workerId : WorkerId)
    (executionId : Uuid) (request : PlacementRequest)
    (devices : List (Uuid × GpuDevice)) : Txn Task := do
  ensureTransition task.status .scheduling
  let previous := task.status
  let task := { task with status := .scheduling, version := task.version + 1 }
  recordTaskEvent now taskId task previous "task.scheduling" none
  ensureTransition task.status .assigned
  let previous := task.status
  let task := { task.prepared with
    status := .assigned
    assignedAt := some now
    workerId := some workerId
    executionId := some executionId
    leaseExpiresAt := some (now + request.leaseSeconds)
    gpuDeviceIds := (request.bound devices).map (fun row => row.2.deviceUuid)
    kubernetesNodeName := request.admission.map (fun a => a.nodeName)
    selected := (request.admission.map (fun a => a.selected)).or task.selected
    version := task.version + 1 }
  recordTaskEvent now taskId task previous "task.assigned" none
  pure task

/-- `SchedulingRepository.place`; `executionId` is the minted `uuid4()`. -/
def place (now : Time) (taskId : Uuid) (workerId : WorkerId) (executionId : Uuid)
    (request : PlacementRequest) : Txn (Task × Uuid) := do
  let placed ← placeable now taskId workerId request
  let worker := placed.2.1
  let devices := placed.2.2
  let task ← markPlaced now taskId placed.1 workerId executionId request devices
  assign now taskId task worker {
    executionId := executionId
    workerId := workerId
    -- `worker.reserved_cpu += task.cpu_millicores / 1000`
    cpuCharge := task.cpuMillicores / 1000
    devices := request.bound devices
    requested := request.requested task.gpuCount
    prices := request.prices }
  pure (task, executionId)

/-- `SchedulingRepository.mark_unschedulable`. -/
def markUnschedulable (taskId : Uuid) (reason : String) : Txn Bool := do
  let db ← get
  match queuedTask db taskId with
  | none => pure false
  | some task =>
    if task.unschedulableReason ≠ some reason then do
      saveTask taskId { task with
        unschedulableReason := some reason
        version := task.version + 1 }
      pure true
    else pure true

/-! ## Preemption -/

/-- `PreemptionDecision`. -/
structure PreemptionDecision where
  incomingTaskId : Uuid
  workerId : WorkerId
  victimTaskIds : List Uuid
  alreadyRequested : Bool := false

/-- `ORDER BY started_at DESC, id`; a task that has not started comes first. -/
def StartedLater (a b : Uuid × Task) : Prop :=
  a.2.startedAt = none ∧ (b.2.startedAt ≠ none ∨ a.1 ≤ b.1)
    ∨ ∃ s ∈ a.2.startedAt, ∃ t ∈ b.2.startedAt, t < s ∨ s = t ∧ a.1 ≤ b.1
  deriving Decidable

/-- The order in which the tasks of one worker are considered as victims. -/
def VictimBefore (a b : Uuid × Task) : Prop :=
  a.2.priority < b.2.priority ∨ a.2.priority = b.2.priority ∧ StartedLater a b
  deriving Decidable

/-- The task may be stopped for a task of this priority. -/
def Task.Preemptable (task : Task) (workerId : WorkerId) (maximum : ℤ) : Prop :=
  task.workerId = some workerId ∧ task.status ∈ launchStatuses
    ∧ task.preemptible = true ∧ task.cancelRequested = false
    ∧ task.priority ≤ maximum
  deriving Decidable

/-- The candidates on one worker, in order. -/
def victimsOn (db : Db) (workerId : WorkerId) (maximum : ℤ)
    (locked : List Uuid) : List (Uuid × Task) :=
  let rows := db.tasks.select (fun _ task => task.Preemptable workerId maximum)
  (rows.filter (fun row => row.1 ∉ locked)).insertionSort VictimBefore

/-- The worker as it will be once the selected tasks have stopped. -/
def WorkerSnapshot.freed (worker : WorkerSnapshot)
    (selected : List (Uuid × Task)) : WorkerSnapshot :=
  let uuids := selected.flatMap (fun row => row.2.gpuDeviceIds)
  { worker with
    runningTasks := max 0 (worker.runningTasks - selected.length)
    reservedCpuMillicores := max 0 (worker.reservedCpuMillicores
      - (selected.map (fun row => row.2.cpuMillicores)).sum)
    reservedMemoryMb := max 0 (worker.reservedMemoryMb
      - (selected.map (fun row => row.2.memoryLimitMb)).sum)
    gpuDevices := worker.gpuDevices.map (fun device =>
      if device.uuid ∈ uuids then { device with allocated := false } else device) }

/-- The shortest run of candidates whose stop makes room for the task. -/
def enoughVictims (worker : WorkerSnapshot) (incoming : TaskSnapshot)
    (selected : List (Uuid × Task)) :
    List (Uuid × Task) → Option (List (Uuid × Task))
  | [] => none
  | victim :: rest =>
    let selected := selected ++ [victim]
    match evaluateSnapshot (worker.freed selected) incoming with
    | .ok _ => some selected
    | .error _ => enoughVictims worker incoming selected rest

/-- A worker on which stopping the victims makes room. -/
structure Feasible where
  workerId : WorkerId
  victims : List (Uuid × Task)

/-- The score order: by total priority, number of victims and worker. -/
def Feasible.Before (a b : Feasible) : Prop :=
  let priority (f : Feasible) := (f.victims.map (fun row => row.2.priority)).sum
  priority a < priority b
    ∨ priority a = priority b
      ∧ (a.victims.length < b.victims.length
        ∨ a.victims.length = b.victims.length ∧ a.workerId ≤ b.workerId)
  deriving Decidable

/-- `worker_by_id[worker_id]`: the last snapshot of a worker wins. -/
def workerById (workers : List WorkerSnapshot) (workerId : WorkerId) :
    Option WorkerSnapshot :=
  (workers.filter (fun worker => worker.id = workerId)).getLast?

/-- The choice of `request_preemption`. -/
def choosePreemption (db : Db) (workers : List WorkerSnapshot)
    (incoming : TaskSnapshot) (maximum : ℤ) (locked : List Uuid) :
    Option Feasible :=
  let workerIds := (workers.map (fun worker => worker.id)).dedup
  let feasible := workerIds.filterMap (fun workerId => do
    let worker ← workerById workers workerId
    let victims ← enoughVictims worker incoming []
      (victimsOn db workerId maximum locked)
    some (Feasible.mk workerId victims))
  (feasible.insertionSort Feasible.Before).head?

/-- Ask one victim to stop; its reservation stays until it has. -/
def preemptVictim (now : Time) (incomingTaskId : Uuid) (workerId : WorkerId)
    (victimId : Uuid) (victim : Task) : Txn Unit := do
  ensureTransition victim.status .preempting
  let previous := victim.status
  let victim := { victim with
    status := .preempting
    cancelRequested := true
    preemptionCount := victim.preemptionCount + 1
    version := victim.version + 1 }
  saveTask victimId victim
  recordTaskEvent now victimId victim previous "task.preemption_requested"
    (some incomingTaskId)
  modify fun db => { db with
    preemptionPlans := db.preemptionPlans ++ [{
      incomingTaskId := incomingTaskId
      victimTaskId := victimId
      workerId := workerId
      state := .requested
      createdAt := now }] }

/-- The loop over the selected victims. -/
def preemptVictims (now : Time) (incomingTaskId : Uuid) (workerId : WorkerId) :
    List (Uuid × Task) → Txn Unit
  | [] => pure ()
  | (victimId, victim) :: rest => do
      preemptVictim now incomingTaskId workerId victimId victim
      preemptVictims now incomingTaskId workerId rest

/-- The open plans for a task, the oldest first. -/
def requestedPlans (db : Db) (incomingTaskId : Uuid) : List PreemptionPlan :=
  (db.preemptionPlans.filter (fun plan =>
    plan.incomingTaskId = incomingTaskId ∧ plan.state = .requested)).insertionSort
      (fun a b => a.createdAt ≤ b.createdAt)

/-- `SchedulingRepository.request_preemption`; `effectivePriority` and the
    worker snapshots are the scheduler's. -/
def requestPreemption (now : Time) (incomingTaskId : Uuid)
    (workers : List WorkerSnapshot) (effectivePriority minPriorityDelta : ℤ)
    (locked : List Uuid) : Txn (Option PreemptionDecision) := do
  let db ← get
  let incoming ← expect
    (if incomingTaskId ∈ locked then none else db.tasks.get? incomingTaskId)
    (.preemptionContention "incoming task is locked by another scheduler")
  if incoming.status ≠ .queued ∨ incoming.cancelRequested = true then pure none
  else
    match requestedPlans db incomingTaskId with
    | plan :: others => pure (some {
        incomingTaskId := incomingTaskId
        workerId := plan.workerId
        victimTaskIds := (plan :: others).map (fun p => p.victimTaskId)
        alreadyRequested := true })
    | [] =>
      match choosePreemption db workers (taskSnapshot incoming)
          (effectivePriority - minPriorityDelta) locked with
      | none => pure none
      | some chosen => do
          preemptVictims now incomingTaskId chosen.workerId chosen.victims
          saveTask incomingTaskId { incoming with
            unschedulableReason := some "preemption_in_progress"
            version := incoming.version + 1 }
          pure (some {
            incomingTaskId := incomingTaskId
            workerId := chosen.workerId
            victimTaskIds := chosen.victims.map Prod.fst })

end MiniAiCloud
