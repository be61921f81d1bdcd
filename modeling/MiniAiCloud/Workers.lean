import MiniAiCloud.Dag

/-! # The worker repository

    Workers register under a session, report that they are alive and publish
    their accelerators.  Registration keeps the capacity counters: executions of
    an earlier session still own what they reserved. -/

namespace MiniAiCloud

open Transaction

/-- What a worker registers with. -/
structure WorkerRegistration where
  hostname : String
  concurrency : ℤ
  cpuCount : ℤ
  memoryTotalMb : ℤ
  labels : List (String × String) := []
  gpuCount : ℤ := 0
  gpuModel : Option String := none
  gpuMemoryMb : ℤ := 0
  workerSessionId : Option Uuid := none
  nodeName : Option String := none
  runtimeTypes : List String := []
  taints : List Taint := []

/-- `node_name or hostname`. -/
def WorkerRegistration.node (r : WorkerRegistration) : String :=
  if r.nodeName.getD "" = "" then r.hostname else r.nodeName.getD ""

/-- `runtime_types or ["docker"]`. -/
def WorkerRegistration.runtimes (r : WorkerRegistration) : List String :=
  if r.runtimeTypes = [] then ["docker"] else r.runtimeTypes

/-- The row of a worker that registers for the first time. -/
def WorkerRegistration.worker (r : WorkerRegistration) (now : Time)
    (session : Uuid) : Worker where
  workerSessionId := session
  hostname := r.hostname
  nodeName := r.node
  runtimeTypes := r.runtimes
  status := .online
  startedAt := now
  lastHeartbeatAt := now
  runningTasks := 0
  concurrency := r.concurrency
  reservedCpu := 0
  reservedMemoryMb := 0
  reservedGpus := 0
  cpuCount := r.cpuCount
  cpuTotalMillicores := r.cpuCount * 1000
  cpuAllocatableMillicores := r.cpuCount * 1000
  memoryTotalMb := r.memoryTotalMb
  memoryAllocatableMb := r.memoryTotalMb
  labels := r.labels
  taints := r.taints
  gpuCount := r.gpuCount
  gpuModel := r.gpuModel
  gpuMemoryMb := r.gpuMemoryMb
  inventoryUpdatedAt := now

/-- The row of a known worker that registers again. -/
def Worker.reregistered (worker : Worker) (r : WorkerRegistration) (now : Time)
    (session : Uuid) : Worker :=
  let overcommitted := decide (r.cpuCount * 1000 < worker.reservedCpu * 1000
    ∨ r.memoryTotalMb < worker.reservedMemoryMb
    ∨ r.gpuCount < worker.reservedGpus)
  { worker with
    workerSessionId := session
    hostname := r.hostname
    nodeName := r.node
    runtimeTypes := r.runtimes
    taints := r.taints
    startedAt := now
    lastHeartbeatAt := now
    concurrency := r.concurrency
    cpuCount := r.cpuCount
    cpuTotalMillicores := r.cpuCount * 1000
    cpuAllocatableMillicores := r.cpuCount * 1000
    memoryTotalMb := r.memoryTotalMb
    memoryAllocatableMb := r.memoryTotalMb
    labels := r.labels
    gpuCount := r.gpuCount
    gpuModel := r.gpuModel
    gpuMemoryMb := r.gpuMemoryMb
    inventoryGeneration := worker.inventoryGeneration + 1
    inventoryUpdatedAt := now
    overcommitted := overcommitted
    status := if overcommitted = true then .draining else .online
    drainReason := if overcommitted = true
      then some "inventory capacity is below active reservations" else none
    version := worker.version + 1 }

/-- `WorkerRepository.register`; `fresh` is the session id minted where the
    worker names none. -/
def register (now : Time) (workerId : WorkerId) (r : WorkerRegistration)
    (fresh : Uuid) : Txn Unit := do
  let db ← get
  let session := r.workerSessionId.getD fresh
  match db.workers.get? workerId with
  | none => modify fun db => { db with
      workers := db.workers.insert workerId (r.worker now session) }
  | some worker => modify fun db => { db with
      workers := db.workers.set workerId (worker.reregistered r now session) }

/-- Change the row of a worker behind its session, where one is named; returns
    whether the row was found. -/
def updateWorker (workerId : WorkerId) (workerSessionId : Option Uuid)
    (f : Worker → Worker) : Txn Bool := do
  let db ← get
  match db.workers.get? workerId with
  | none => pure false
  | some worker =>
    if ∃ session ∈ workerSessionId, worker.workerSessionId ≠ session then
      pure false
    else do
      modify fun db => { db with workers := db.workers.set workerId (f worker) }
      pure true

/-- `WorkerRepository.heartbeat`; the reported task count is dropped. -/
def heartbeat (now : Time) (workerId : WorkerId) (workerSessionId : Option Uuid) :
    Txn Bool :=
  updateWorker workerId workerSessionId (fun worker => { worker with
    status := if worker.status ≠ .draining then .online else worker.status
    lastHeartbeatAt := now
    version := worker.version + 1 })

/-- `WorkerRepository.drain`. -/
def drain (workerId : WorkerId) (reason : String) : Txn Bool :=
  updateWorker workerId none (fun worker => { worker with
    status := .draining
    drainReason := some reason
    version := worker.version + 1 })

/-- `WorkerRepository.set_status`. -/
def setStatus (now : Time) (workerId : WorkerId) (status : WorkerStatus)
    (workerSessionId : Option Uuid) : Txn Bool :=
  updateWorker workerId workerSessionId (fun worker => { worker with
    status := status
    lastHeartbeatAt := now
    version := worker.version + 1 })

/-- `ORDER BY last_heartbeat_at, id`. -/
def HeardBefore (a b : WorkerId × Worker) : Prop :=
  a.2.lastHeartbeatAt < b.2.lastHeartbeatAt
    ∨ a.2.lastHeartbeatAt = b.2.lastHeartbeatAt ∧ a.1 ≤ b.1
  deriving Decidable

/-- Mark the workers offline. -/
def markOffline (workerIds : List WorkerId) : Txn Unit :=
  modify fun db => { db with
    workers := db.workers.mapRows (fun id worker =>
      if id ∈ workerIds
      then { worker with status := .offline, version := worker.version + 1 }
      else worker) }

/-- `WorkerRepository.mark_stale_offline`. -/
def markStaleOffline (now : Time) (offlineTimeoutSeconds : ℚ)
    (limit : Option ℤ) (locked : List WorkerId) : Txn (List WorkerId) := do
  raiseIf (∃ n ∈ limit, n < 1) (.valueError "limit must be at least one")
  let db ← get
  let stale := db.workers.select (fun _ worker => worker.status = .online
    ∧ worker.lastHeartbeatAt < now - offlineTimeoutSeconds)
  let ordered := (stale.filter (fun row => row.1 ∉ locked)).insertionSort HeardBefore
  let workerIds := (ordered.map Prod.fst).take
    (limit.elim ordered.length Int.toNat)
  markOffline workerIds
  pure workerIds

/-! ## Accelerator inventory -/

/-- A published device; `id` is the key minted where the device is new. -/
structure InventoryItem where
  id : Uuid
  uuid : String
  index : ℤ
  memoryTotalMb : ℤ
  memoryFreeMb : ℤ
  vendor : Option String := none
  acceleratorKind : Option String := none
  fake : Bool := false
  model : String
  runtimeProfileIds : List String := []
  capabilities : List String := []
  kubernetesResourceName : Option String := none
  kubernetesNodeName : Option String := none
  health : String := "healthy"

/-- `_inventory_integer`. -/
def inventoryInteger (value : ℤ) (field : String) (minimum : ℤ) : Txn Unit :=
  raiseIf (value < minimum) (.valueError
    ("accelerator " ++ field ++ " must be at least " ++ toString minimum))

/-- `_inventory_names`. -/
def inventoryNames (names : List String) (field : String) :
    Txn (List String) := do
  raiseIf (∃ name ∈ names, pyStrip name = "") (.valueError
    ("accelerator " ++ field ++ " entries must be non-blank strings"))
  raiseIf (¬ (names.map pyStrip).Nodup)
    (.valueError ("accelerator " ++ field ++ " entries must be unique"))
  pure (names.map pyStrip)

def AcceleratorKind.value : AcceleratorKind → String
  | gpu => "gpu"
  | npu => "npu"

/-- `AcceleratorKind(text)`, `none` where it raises. -/
def AcceleratorKind.ofString? (text : String) : Option AcceleratorKind :=
  if text = "gpu" then some gpu else if text = "npu" then some npu else none

/-- The vendor text of an item; the fake vendor counts as NVIDIA. -/
def InventoryItem.rawVendor (item : InventoryItem) : String :=
  let raw := item.vendor.getD "nvidia"
  if raw = "fake" ∧ item.fake = true then "nvidia" else raw

/-- A name that must not be blank where it is given. -/
def inventoryName (name : Option String) (field : String) :
    Txn (Option String) := do
  raiseIf (name.map pyStrip = some "")
    (.valueError ("accelerator " ++ field ++ " must not be blank"))
  pure (name.map pyStrip)

/-- The row an item is published as. -/
def inventoryDevice (now : Time) (workerId : WorkerId) (generation : ℤ)
    (item : InventoryItem) : Txn GpuDevice := do
  inventoryInteger item.index "index" 0
  inventoryInteger item.memoryTotalMb "memory_total_mb" 1
  inventoryInteger item.memoryFreeMb "memory_free_mb" 0
  raiseIf (item.memoryTotalMb < item.memoryFreeMb)
    (.valueError "accelerator memory_free_mb must not exceed memory_total_mb")
  let vendor ← expect (AcceleratorVendor.ofString? item.rawVendor)
    (.valueError ("unsupported accelerator vendor: " ++ item.rawVendor))
  let rawKind := item.acceleratorKind.getD (kindForVendor vendor).value
  let kind ← expect (AcceleratorKind.ofString? rawKind)
    (.valueError ("unsupported accelerator kind: " ++ rawKind))
  raiseIf (kind ≠ kindForVendor vendor)
    (.valueError ("accelerator vendor " ++ vendor.value
      ++ " is incompatible with kind " ++ kind.value))
  let runtimeProfileIds ← inventoryNames item.runtimeProfileIds "runtime_profile_ids"
  let capabilities ← inventoryNames item.capabilities "capabilities"
  let resource ← inventoryName item.kubernetesResourceName "kubernetes_resource_name"
  let node ← inventoryName item.kubernetesNodeName "kubernetes_node_name"
  pure {
    workerId := workerId
    deviceUuid := item.uuid
    deviceIndex := item.index
    vendor := vendor
    acceleratorKind := kind
    model := item.model
    memoryTotalMb := item.memoryTotalMb
    memoryFreeMb := item.memoryFreeMb
    runtimeProfileIds := runtimeProfileIds
    capabilities := capabilities
    kubernetesResourceName := resource
    kubernetesNodeName := node
    health := item.health
    inventoryGeneration := generation
    lastSeenAt := now }

/-- Write one published device: over the worker's device of that UUID, or as a
    new row. -/
def publishDevice (now : Time) (workerId : WorkerId) (generation : ℤ)
    (existing : List (Uuid × GpuDevice)) (item : InventoryItem) :
    Txn GpuDevice := do
  let device ← inventoryDevice now workerId generation item
  match existing.find? (fun row => row.2.deviceUuid = item.uuid) with
  | some row => do
      modify fun db => { db with gpuDevices := db.gpuDevices.set row.1 device }
      pure device
  | none => do
      let db ← get
      raiseIf (db.gpuDevices.get? item.id ≠ none) (.integrityError "pk_gpu_devices")
      modify fun db => { db with gpuDevices := db.gpuDevices.insert item.id device }
      pure device

/-- The loop over the published devices. -/
def publishDevices (now : Time) (workerId : WorkerId) (generation : ℤ)
    (existing : List (Uuid × GpuDevice)) :
    List InventoryItem → Txn (List GpuDevice)
  | [] => pure []
  | item :: rest => do
      let device ← publishDevice now workerId generation existing item
      let others ← publishDevices now workerId generation existing rest
      pure (device :: others)

/-- A device of the worker that was not published again goes missing. -/
def GpuDevice.unseen (device : GpuDevice) (now : Time) (workerId : WorkerId)
    (seen : List String) : GpuDevice :=
  if device.workerId = workerId ∧ device.deviceUuid ∉ seen
  then { device with health := "missing", lastSeenAt := now } else device

/-- The unique constraints of the device table, for one worker. -/
def UniqueDevices (db : Db) (workerId : WorkerId) : Prop :=
  let devices := (db.gpuDevices.select
    (fun _ device => device.workerId = workerId)).map Prod.snd
  (devices.map (fun device => device.deviceUuid)).Nodup
    ∧ (devices.map (fun device => (device.vendor, device.deviceIndex))).Nodup
  deriving Decidable

/-- `",".join(sorted(set(models))) or None`. -/
def joinedModels (models : List String) : Option String :=
  let joined := String.intercalate "," (models.dedup.insertionSort (· ≤ ·))
  if joined = "" then none else some joined

/-- `WorkerRepository.replace_gpu_inventory`. -/
def replaceGpuInventory (now : Time) (workerId : WorkerId) (session : Uuid)
    (items : List InventoryItem) : Txn (List GpuDevice) := do
  let db ← get
  let worker ← expect ((db.workers.get? workerId).filter
      (fun worker => worker.workerSessionId = session))
    (.lookupError "worker session is stale")
  let existing := db.gpuDevices.select (fun _ device => device.workerId = workerId)
  let result ← publishDevices now workerId worker.inventoryGeneration existing items
  let seen := items.map (fun item => item.uuid)
  modify fun db => { db with
    gpuDevices := db.gpuDevices.mapRows
      (fun _ device => device.unseen now workerId seen)
    workers := db.workers.set workerId { worker with
      gpuCount := result.length
      gpuModel := joinedModels (result.map (fun device => device.model))
      gpuMemoryMb := (result.map (fun device => device.memoryTotalMb)).sum
      inventoryUpdatedAt := now
      version := worker.version + 1 } }
  let db ← get
  raiseIf (¬ UniqueDevices db workerId) (.integrityError "uq_gpu_devices")
  pure result

end MiniAiCloud
