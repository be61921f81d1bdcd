import Mathlib.Data.String.Basic
import MiniAiCloud.Placement
import MiniAiCloud.Services
import MiniAiCloud.Tally
import MiniAiCloud.Workers

/-! # The accelerator pools of the cluster

    What a Kubernetes device plugin hands out is not counted in a column.  The free
    accelerators of a pool, the devices of one vendor under one resource name on one
    node, are planned anew from three reads: the inventory the workers report, the
    replicas of model services, and the reservations that leave the device to the
    plugin.  Whatever a read leaves unclear about a pool closes the pool.

    A placement plans its pool after it has locked its own worker and before it
    writes (`available_batch_accelerators_for_pool`). -/

namespace MiniAiCloud

open Transaction OrderedQuery Tally

/-! ## Runtime profiles -/

/-- A runtime profile of the catalog, the fields admission reads. -/
structure CatalogProfile where
  vendor : AcceleratorVendor
  kind : AcceleratorKind
  /-- `kubernetes.resource_name`. -/
  resourceName : String
  features : List String
  dtypes : List String
  tensorParallelSupported : Bool
  /-- What `semantic_digest()` computes of the profile. -/
  semanticDigest : String

/-- `RuntimeProfileCatalog`: the digests of the manifest and the loaded profiles, by
    id and version. -/
structure RuntimeProfileCatalog where
  manifest : Table (String × String) String
  runtimeProfiles : Table (String × String) CatalogProfile

/-- `load_exact`; `none` where it raises `RuntimeProfileCompatibilityError`. -/
def RuntimeProfileCatalog.loadExact (catalog : RuntimeProfileCatalog)
    (profile : RuntimeProfile) : Option CatalogProfile := do
  let digest ← catalog.manifest.get? (profile.id, profile.version)
  if digest ≠ profile.digest then none
  else
    (catalog.runtimeProfiles.get? (profile.id, profile.version)).filter
      (fun found => found.semanticDigest = profile.digest)

/-- `_runtime_profile_capabilities`. -/
def CatalogProfile.capabilities (profile : CatalogProfile) : List String :=
  profile.features ++ profile.dtypes
    ++ (if profile.tensorParallelSupported then ["tensor-parallel"] else [])

/-- `_kubernetes_resource_contract`: the accelerators a resource name of the cluster
    stands for. -/
def kubernetesResourceContract (resourceName : String) :
    Option (AcceleratorVendor × AcceleratorKind) :=
  let namespaced := "huawei.com/".toList
  if resourceName = "nvidia.com/gpu" then some (.nvidia, .gpu)
  else if namespaced.isPrefixOf resourceName.toList = false then none
  else
    let lowered := (resourceName.toList.drop namespaced.length).map Char.toLower
    if ["memory", "core", "unhealthy", "recover", "fault", "network"].any
        (fun marker => lowered.tails.any marker.toList.isPrefixOf) then none
    else if lowered = "npu".toList ∨ "ascend".toList.isPrefixOf lowered then
      some (.huaweiAscend, .npu)
    else none

/-! ## The inventory -/

/-- `InventoryDeviceSnapshot`, the fields the pool planner reads. -/
structure InventoryDeviceSnapshot where
  workerId : WorkerId
  nodeName : String
  health : String
  vendor : AcceleratorVendor
  kind : AcceleratorKind
  model : String
  memoryTotalMb : ℤ
  runtimeProfileIds : List String
  capabilities : List String
  kubernetesResourceName : Option String

/-- A worker and a node it reports. -/
abbrev NodeKey := WorkerId × String

def InventoryDeviceSnapshot.nodeKey (device : InventoryDeviceSnapshot) : NodeKey :=
  (device.workerId, device.nodeName)

/-- The device can be handed out: `health in {"healthy", "inventory-only"}`. -/
def InventoryDeviceSnapshot.Usable (device : InventoryDeviceSnapshot) : Prop :=
  device.health = "healthy" ∨ device.health = "inventory-only"
  deriving Decidable

/-- The node of a device; for Kubernetes it must be a valid node name. -/
def inventoryNode (runtimeType : Option RuntimeType) (worker : Worker)
    (device : GpuDevice) : Option String :=
  if runtimeType = some .kubernetes then
    let reported := device.kubernetesNodeName.getD ""
    some (if reported = "" then worker.nodeName else reported)
      |>.filter (fun node => isDnsSubdomain node)
  else some (if worker.nodeName = "" then device.workerId else worker.nodeName)

/-- The snapshot of a device row and its worker. -/
def inventorySnapshot (runtimeType : Option RuntimeType)
    (row : (Uuid × GpuDevice) × Worker) : Option InventoryDeviceSnapshot :=
  if ∃ wanted ∈ runtimeType, wanted.value ∉ row.2.runtimeTypes then none
  else (inventoryNode runtimeType row.2 row.1.2).map (fun node => {
    workerId := row.1.2.workerId
    nodeName := node
    health := row.1.2.health
    vendor := row.1.2.vendor
    kind := row.1.2.acceleratorKind
    model := row.1.2.model
    memoryTotalMb := row.1.2.memoryTotalMb
    runtimeProfileIds := row.1.2.runtimeProfileIds
    capabilities := row.1.2.capabilities
    kubernetesResourceName := row.1.2.kubernetesResourceName })

/-- The devices joined with their workers. -/
def deviceRows (db : Db) : List ((Uuid × GpuDevice) × Worker) :=
  db.gpuDevices.rows.filterMap (fun row =>
    (db.workers.get? row.2.workerId).map (fun worker => (row, worker)))

/-- What the query of an inventory asks for. -/
structure InventoryQuery where
  vendors : List AcceleratorVendor
  kinds : List AcceleratorKind
  minimumMemoryMb : ℤ := 0
  runtimeType : Option RuntimeType := none
  includeUnavailable : Bool := false

/-- The rows an inventory query selects. -/
def InventoryQuery.Selects (query : InventoryQuery) (row : (Uuid × GpuDevice) × Worker) :
    Prop :=
  row.2.status = .online ∧ row.2.overcommitted = false
    ∧ row.1.2.inventoryGeneration = row.2.inventoryGeneration
    ∧ query.minimumMemoryMb ≤ row.1.2.memoryFreeMb
    ∧ row.1.2.vendor ∈ query.vendors ∧ row.1.2.acceleratorKind ∈ query.kinds
    ∧ (query.includeUnavailable = true ∨ row.1.2.health = "healthy"
      ∨ query.runtimeType = some .kubernetes ∧ row.1.2.health = "inventory-only")
  deriving Decidable

/-- The rows of an inventory query, in the order of vendor, kind, model, worker, device
    and id. -/
def InventoryQuery.devices (query : InventoryQuery) (db : Db) :
    List InventoryDeviceSnapshot :=
  let rows := (deviceRows db).filter (fun row => query.Selects row)
  let ordered := orderBy (fun row : (Uuid × GpuDevice) × Worker =>
    toLex (row.1.2.vendor.value, toLex (row.1.2.acceleratorKind.value,
      toLex (row.1.2.model, toLex (row.1.2.workerId,
        toLex (row.1.2.deviceUuid, row.1.1)))))) rows
  ordered.filterMap (inventorySnapshot query.runtimeType)

/-- `AdmissionRepository.list_healthy_inventory_devices`. -/
def listHealthyInventoryDevices (query : InventoryQuery) :
    Txn (List InventoryDeviceSnapshot) := do
  raiseIf (query.minimumMemoryMb < 0)
    (.valueError "minimum_memory_mb must not be negative")
  let db ← get
  pure (query.devices db)

/-- The workers that report a node. -/
def reporters (inventory : List InventoryDeviceSnapshot) (node : String) : List WorkerId :=
  ((inventory.filter (fun device => device.nodeName = node)).map
    (fun device => device.workerId)).dedup

/-- `_unique_inventory_node_owners`: the worker of each node that one worker reports. -/
def uniqueInventoryNodeOwners (inventory : List InventoryDeviceSnapshot) :
    List (String × WorkerId) :=
  (inventory.map (fun device => device.nodeName)).dedup.filterMap (fun node =>
    match reporters inventory node with
    | [owner] => some (node, owner)
    | _ => none)

/-- `node_owners.get(node)`. -/
def ownerOf (nodeOwners : List (String × WorkerId)) (node : String) : Option WorkerId :=
  (nodeOwners.find? (fun row => row.1 = node)).map Prod.snd

/-! ## Reservations that leave the device to the plugin -/

/-- `_DeferredReservationTotal`, the fields the classification reads. -/
structure DeferredReservationTotal where
  vendor : AcceleratorVendor
  profile : Option RuntimeProfile
  acceleratorCount : ℤ
  nodeName : String
  workerSessionMatches : Bool

/-- `_DeferredAcceleratorUsage`.  `unknown_by_worker_resource` stays empty where the
    owners of the nodes are known, as they are in every call. -/
structure DeferredAcceleratorUsage where
  byNodeResource : Table (WorkerId × String × AcceleratorVendor × String) ℤ := .empty
  unknownByWorkerResource : Table (WorkerId × AcceleratorVendor × String) ℤ := .empty
  unknownByWorkerVendor : Table (WorkerId × AcceleratorVendor) ℤ := .empty
  unknownByVendorResource : Table (AcceleratorVendor × String) ℤ := .empty
  unknownByVendor : Table AcceleratorVendor ℤ := .empty

/-- The reservation is active and leaves the device to the plugin. -/
def ResourceReservation.Deferred (reservation : ResourceReservation) : Prop :=
  reservation.releasedAt = none
    ∧ reservation.allocationAuthority = .kubernetesDevicePlugin
  deriving Decidable

/-- `coalesce(Task.kubernetes_node_name, Worker.node_name)` in the join of a
    reservation with its worker and its task. -/
def reservedNode (db : Db) (reservation : ResourceReservation) : Option String := do
  let worker ← db.workers.get? reservation.workerId
  let task ← db.tasks.get? reservation.taskId
  pure (task.kubernetesNodeName.getD worker.nodeName)

/-- The row of the deferred query for a reservation. -/
def deferredTotal (db : Db) (reservation : ResourceReservation) :
    Option DeferredReservationTotal := do
  let vendor ← reservation.requestedVendor
  let worker ← db.workers.get? reservation.workerId
  let node ← reservedNode db reservation
  pure {
    vendor := vendor
    profile := reservation.requestedProfile
    acceleratorCount := reservation.gpuCount
    nodeName := node
    workerSessionMatches := reservation.workerSessionId = worker.workerSessionId }

/-- The resource of a total: that of its profile, where the vendors agree. -/
def DeferredReservationTotal.resourceName (total : DeferredReservationTotal)
    (catalog : RuntimeProfileCatalog) : Option String := do
  let profile ← total.profile
  let found ← catalog.loadExact profile
  if found.vendor = total.vendor then some found.resourceName else none

/-- One turn of the loop of `_classify_deferred_accelerators`. -/
def DeferredAcceleratorUsage.classify (catalog : RuntimeProfileCatalog)
    (nodeOwners : List (String × WorkerId)) (usage : DeferredAcceleratorUsage)
    (total : DeferredReservationTotal) : DeferredAcceleratorUsage :=
  let stableNode := total.workerSessionMatches && isDnsSubdomain total.nodeName
  let currentOwner := if stableNode then ownerOf nodeOwners total.nodeName else none
  -- the reservation belongs to a different physical Kubernetes node
  if stableNode ∧ currentOwner = none then usage
  else match total.resourceName catalog, currentOwner with
  | none, none => { usage with
      unknownByVendor := add usage.unknownByVendor total.vendor total.acceleratorCount }
  | none, some owner => { usage with
      unknownByWorkerVendor := add usage.unknownByWorkerVendor (owner, total.vendor)
        total.acceleratorCount }
  | some resourceName, some owner => { usage with
      byNodeResource := add usage.byNodeResource
        (owner, total.nodeName, total.vendor, resourceName) total.acceleratorCount }
  | some resourceName, none => { usage with
      unknownByVendorResource := add usage.unknownByVendorResource
        (total.vendor, resourceName) total.acceleratorCount }

/-- `_active_deferred_accelerators`; rows in the order of worker, id and vendor. -/
def activeDeferredAccelerators (catalog : RuntimeProfileCatalog)
    (nodeOwners : List (String × WorkerId)) (vendors : List AcceleratorVendor) (db : Db) :
    DeferredAcceleratorUsage :=
  if nodeOwners = [] ∨ vendors = [] then {}
  else
    let rows := db.reservations.select (fun _ reservation => reservation.Deferred
      ∧ ∃ vendor ∈ reservation.requestedVendor, vendor ∈ vendors)
    let ordered := orderBy (fun row : Uuid × ResourceReservation =>
      toLex (row.2.workerId, row.1)) rows
    (ordered.filterMap (fun row => deferredTotal db row.2)).foldl
      (DeferredAcceleratorUsage.classify catalog nodeOwners) {}

/-! ## Replicas of model services -/

/-- `_ServiceReplicaCommitment`, the fields the pool planner reads. -/
structure ServiceReplicaCommitment where
  vendor : Option AcceleratorVendor
  model : Option String
  resourceName : Option String
  acceleratorCount : ℤ
  eligibleNodeNames : Option (List String)
  assignedNodeName : Option String

/-- A text without surrounding blanks, `none` where nothing is left. -/
def normalizedText (text : Option String) : Option String :=
  (text.map pyStrip).filter (fun stripped => stripped ≠ "")

/-- `_service_commitment` for the admission columns of a service or a replica. -/
def serviceCommitment (admission : Option ServiceAdmissionSnapshot)
    (acceleratorCount : ℤ) (assignedNodeName : Option String) :
    ServiceReplicaCommitment where
  vendor := admission.map (fun a => a.selectedVendor)
  model := normalizedText (admission.map (fun a => a.selectedModel))
  resourceName := normalizedText (admission.bind (fun a => a.acceleratorResourceName))
  acceleratorCount := acceleratorCount
  eligibleNodeNames := (admission.map (fun a => a.eligibleNodeNames)).filter (fun nodes =>
    nodes ≠ [] ∧ nodes.Pairwise (· < ·))
  assignedNodeName := normalizedText assignedNodeName

/-- The service runs on Kubernetes and takes accelerators. -/
def ModelService.Accelerated (service : ModelService) : Prop :=
  service.runtimeType = .kubernetes ∧ (0 < service.gpuCount ∨ service.admission.isSome)
  deriving Decidable

/-- The accelerators of one replica. -/
def ModelService.gang (service : ModelService) : ℤ :=
  max service.gpuCount service.tensorParallelSize

/-- The commitment of a replica, where its service takes accelerators and it has not
    ended. -/
def replicaCommitment (db : Db) (replica : ServiceReplica) :
    Option ServiceReplicaCommitment :=
  ((db.modelServices.get? replica.serviceId).filter (fun service =>
      service.Accelerated ∧ replica.status ∈ nonterminalReplicaStatuses)).map
    (fun service =>
      serviceCommitment replica.admission service.gang replica.assignedNodeName)

/-- The replicas of the current generation that are there. -/
def materialized (db : Db) (serviceId : Uuid) (service : ModelService) : ℤ :=
  (db.serviceReplicas.select (fun _ replica => replica.serviceId = serviceId
    ∧ replica.generation = service.generation
    ∧ replica.status ∈ activeReplicaStatuses)).length

/-- The commitments of the desired replicas that are still missing. -/
def missingCommitments (db : Db) (row : Uuid × ModelService) :
    List ServiceReplicaCommitment :=
  List.replicate (row.2.desiredReplicas - materialized db row.1 row.2).toNat
    (serviceCommitment row.2.admission row.2.gang none)

/-- `_active_service_accelerators` over all services; replicas in the order of service,
    generation and ordinal, services in the order of their ids. -/
def activeServiceAccelerators (db : Db) : List ServiceReplicaCommitment :=
  let replicas := orderBy (fun row : Uuid × ServiceReplica =>
    toLex (row.2.serviceId, toLex (row.2.generation, row.2.ordinal)))
    db.serviceReplicas.rows
  let services := orderBy (fun row : Uuid × ModelService => row.1)
    (db.modelServices.select (fun _ service =>
      service.Accelerated ∧ 0 < service.desiredReplicas))
  replicas.filterMap (fun row => replicaCommitment db row.2)
    ++ services.flatMap (missingCommitments db)

/-! ## The pool planner -/

/-- The devices of one vendor under one resource name. -/
def InventoryDeviceSnapshot.InPool (device : InventoryDeviceSnapshot)
    (vendor : AcceleratorVendor) (resourceName : String) : Prop :=
  device.vendor = vendor ∧ device.kubernetesResourceName = some resourceName
  deriving Decidable

/-- Charge the deferred reservations of one dictionary entry to the pool. -/
def chargeDeferred (vendor : AcceleratorVendor) (resourceName : String)
    (remaining : Table NodeKey ℤ)
    (row : (WorkerId × String × AcceleratorVendor × String) × ℤ) :
    Option (Table NodeKey ℤ) :=
  if row.1.2.2.1 ≠ vendor ∨ row.1.2.2.2 ≠ resourceName then some remaining
  else draw remaining (row.1.1, row.1.2.1) row.2

/-- Charge a replica of this pool to the node it is assigned to.  A replica of another
    model takes the whole node. -/
def chargeAssigned (model : String) (remaining : Table NodeKey ℤ)
    (commitment : ServiceReplicaCommitment) (assigned : String) :
    Option (Table NodeKey ℤ) :=
  match (keys remaining).filter (fun key => key.2 = assigned) with
  | [] => some remaining
  | [key] =>
    if commitment.model ≠ some model then some (remaining.set key 0)
    else draw remaining key commitment.acceleratorCount
  | _ => none

/-- Charge one service commitment to the pool.  `none` closes the pool: the snapshot is
    incomplete, or the replica may still come to one of its nodes. -/
def chargeCommitment (vendor : AcceleratorVendor) (model resourceName : String)
    (remaining : Table NodeKey ℤ) (commitment : ServiceReplicaCommitment) :
    Option (Table NodeKey ℤ) :=
  match commitment.vendor, commitment.resourceName, commitment.eligibleNodeNames,
      commitment.assignedNodeName with
  | none, _, _, _ => none
  | some committed, resource, eligible, assigned =>
    if committed ≠ vendor then some remaining
    else match resource, eligible, assigned with
    | none, _, _ => none
    | some name, eligible, assigned =>
      if name ≠ resourceName then some remaining
      else match eligible, assigned with
      | none, _ => none
      | some nodes, none =>
        if nodes = [] ∨ ∃ key ∈ keys remaining, key.2 ∈ nodes then none else some remaining
      | some nodes, some node =>
        if node ∉ nodes then none else chargeAssigned model remaining commitment node

/-- The node keys a pool can be on. -/
def candidateNodeKeys (inventory : List InventoryDeviceSnapshot)
    (vendor : AcceleratorVendor) (model resourceName : String) : List NodeKey :=
  (inventory.filter (fun device => device.InPool vendor resourceName
    ∧ device.model = model)).map InventoryDeviceSnapshot.nodeKey

/-- The pool before anything is charged: its devices, by node. -/
def physicalPool (inventory : List InventoryDeviceSnapshot) (vendor : AcceleratorVendor)
    (model resourceName : String) : Table NodeKey ℤ :=
  collect InventoryDeviceSnapshot.nodeKey (fun _ => 1) (inventory.filter (fun device =>
    device.InPool vendor resourceName
      ∧ device.nodeKey ∈ candidateNodeKeys inventory vendor model resourceName))

/-- Some deferred reservations may or may not lie in the pool. -/
def DeferredAcceleratorUsage.Unclear (deferred : DeferredAcceleratorUsage)
    (vendor : AcceleratorVendor) (resourceName : String) (remaining : Table NodeKey ℤ) :
    Prop :=
  0 < amount deferred.unknownByVendorResource (vendor, resourceName)
    ∨ 0 < amount deferred.unknownByVendor vendor
    ∨ (∃ row ∈ deferred.unknownByWorkerResource.rows, 0 < row.2
        ∧ row.1.1 ∈ (keys remaining).map Prod.fst ∧ row.1.2 = (vendor, resourceName))
    ∨ ∃ row ∈ deferred.unknownByWorkerVendor.rows, 0 < row.2
        ∧ row.1.1 ∈ (keys remaining).map Prod.fst ∧ row.1.2 = vendor
  deriving Decidable

/-- `_plan_physical_pool_remaining`. -/
def planPhysicalPoolRemaining (inventory : List InventoryDeviceSnapshot)
    (vendor : AcceleratorVendor) (model resourceName : String)
    (services : List ServiceReplicaCommitment) (deferred : DeferredAcceleratorUsage) :
    Option (Table NodeKey ℤ) :=
  let remaining := physicalPool inventory vendor model resourceName
  if ∃ key ∈ candidateNodeKeys inventory vendor model resourceName,
      (reporters inventory key.2).length ≠ 1 then none
  else if deferred.Unclear vendor resourceName remaining then none
  else (deferred.byNodeResource.rows.foldlM (chargeDeferred vendor resourceName)
    remaining).bind (fun charged =>
      services.foldlM (chargeCommitment vendor model resourceName) charged)

/-- The pool a placement wants to use. -/
structure PoolRequest where
  workerId : WorkerId
  nodeName : Option String
  vendor : AcceleratorVendor
  kind : AcceleratorKind
  model : String
  profile : RuntimeProfile
  resourceName : String
  minimumMemoryMb : ℤ
  requiredCapabilities : List String

/-- What every device of a homogeneous pool satisfies. -/
def PoolRequest.Fits (pool : PoolRequest) (binding : String)
    (profileCapabilities : List String) (device : InventoryDeviceSnapshot) : Prop :=
  device.vendor = pool.vendor ∧ device.kind = pool.kind ∧ device.model = pool.model
    ∧ pool.minimumMemoryMb ≤ device.memoryTotalMb
    ∧ binding ∈ device.runtimeProfileIds
    ∧ ∀ capability ∈ pool.requiredCapabilities,
        capability ∈ device.capabilities ∨ capability ∈ profileCapabilities
  deriving Decidable

/-- The devices under one resource name that a worker reports on one node. -/
def devicesAt (inventory : List InventoryDeviceSnapshot) (resourceName : String)
    (key : NodeKey) : List InventoryDeviceSnapshot :=
  inventory.filter (fun device => device.nodeKey = key
    ∧ device.kubernetesResourceName = some resourceName)

/-- `_batch_homogeneous_compatible_devices`: the usable devices of the nodes on which
    every device of the resource fits. -/
def batchHomogeneousCompatibleDevices (inventory : List InventoryDeviceSnapshot)
    (pool : PoolRequest) (profileCapabilities : List String) :
    Txn (List InventoryDeviceSnapshot) := do
  let binding ← runtimeProfileBindingId pool.profile
  let candidates := ((inventory.filter (fun device => device.workerId = pool.workerId
    ∧ (∀ node ∈ pool.nodeName, device.nodeName = node) ∧ device.Usable
    ∧ device.InPool pool.vendor pool.resourceName ∧ device.kind = pool.kind
    ∧ device.model = pool.model
    ∧ binding ∈ device.runtimeProfileIds)).map InventoryDeviceSnapshot.nodeKey).dedup
  pure ((orderBy (fun key : NodeKey => toLex key) candidates).flatMap (fun key =>
    if (devicesAt inventory pool.resourceName key).all
        (fun device => pool.Fits binding profileCapabilities device) then
      (devicesAt inventory pool.resourceName key).filter (fun device => device.Usable)
    else []))

/-- `_batch_pool_available_capacity`. -/
def batchPoolAvailableCapacity (inventory : List InventoryDeviceSnapshot)
    (pool : PoolRequest) (profileCapabilities : List String)
    (services : List ServiceReplicaCommitment) (deferred : DeferredAcceleratorUsage) :
    Txn ℤ :=
  match planPhysicalPoolRemaining inventory pool.vendor pool.model pool.resourceName
      services deferred with
  | none => pure 0
  | some remaining => do
      let devices ← batchHomogeneousCompatibleDevices inventory pool profileCapabilities
      let compatible := collect InventoryDeviceSnapshot.nodeKey (fun _ => 1) devices
      pure ((compatible.rows.map (fun row =>
        let physical := inventory.countP (fun device =>
          device.nodeKey = row.1 ∧ device.InPool pool.vendor pool.resourceName)
        max 0 (row.2 - (physical - amount remaining row.1)))).sum)

/-- What the planner reads before the reservations. -/
structure PoolSurvey where
  inventory : List InventoryDeviceSnapshot
  services : List ServiceReplicaCommitment
  profileCapabilities : List String

/-- The inventory the planner lists: every current device of the vendor and the kind. -/
def PoolRequest.inventoryQuery (pool : PoolRequest) : InventoryQuery where
  vendors := [pool.vendor]
  kinds := [pool.kind]
  runtimeType := some .kubernetes
  includeUnavailable := true

/-- The first part of `available_batch_accelerators_for_pool`: the profile, the
    inventory and the services; `none` where it returns zero. -/
def surveyPool (catalog : RuntimeProfileCatalog) (pool : PoolRequest) :
    Txn (Option PoolSurvey) :=
  match catalog.loadExact pool.profile with
  | none => pure none
  | some profile =>
    if profile.vendor ≠ pool.vendor ∨ profile.kind ≠ pool.kind
        ∨ profile.resourceName ≠ pool.resourceName then pure none
    else do
      let inventory ← listHealthyInventoryDevices pool.inventoryQuery
      let db ← get
      pure (some {
        inventory := inventory
        services := activeServiceAccelerators db
        profileCapabilities := profile.capabilities })

/-- The second part: the reservations, and the capacity that follows. -/
def countPool (catalog : RuntimeProfileCatalog) (pool : PoolRequest)
    (survey : PoolSurvey) : Txn ℤ := do
  let db ← get
  batchPoolAvailableCapacity survey.inventory pool survey.profileCapabilities
    survey.services (activeDeferredAccelerators catalog
      (uniqueInventoryNodeOwners survey.inventory) [pool.vendor] db)

/-- The pool with its resource name normalized. -/
def PoolRequest.normalized (pool : PoolRequest) : Txn PoolRequest := do
  raiseIf (pyStrip pool.resourceName = "") (.valueError "resource_name must not be blank")
  pure { pool with resourceName := pyStrip pool.resourceName }

/-- `AdmissionRepository.available_batch_accelerators_for_pool`. -/
def availableBatchAcceleratorsForPool (catalog : RuntimeProfileCatalog)
    (pool : PoolRequest) : Txn ℤ := do
  let pool ← pool.normalized
  let survey ← surveyPool catalog pool
  match survey with
  | none => pure 0
  | some survey => countPool catalog pool survey

/-- The pool `place` asks the planner for. -/
def BatchAdmissionSnapshot.pool (admission : BatchAdmissionSnapshot) (workerId : WorkerId)
    (task : Task) : PoolRequest where
  workerId := workerId
  nodeName := some admission.nodeName
  vendor := admission.vendor
  kind := admission.kind
  model := admission.selectedModel
  profile := admission.runtimeProfile
  resourceName := admission.acceleratorResourceName
  minimumMemoryMb := task.gpuMemoryMb
  requiredCapabilities := task.acceleratorRequest.elim [] (fun r => r.requiredCapabilities)

end MiniAiCloud
