import Mathlib.Data.String.Basic
import MiniAiCloud.QuotaRunProofs
import MiniAiCloud.Services

/-! # Creating and scaling services

    A service commits the resources of its desired replicas to the quota of its
    project when it is created and each time it is scaled, by the API or by the
    autoscaler.  The commitment moves by a difference, which is computed from the
    desired replicas the session knows.

    The autoscaler loads the row of a service and locks it at once.  The API first
    loads the row without a lock and locks it by a second query; the session keeps
    the object of the first load and the second does not refresh it.  So a scale
    request is two steps here, with whatever happens in between. -/

namespace MiniAiCloud

open Transaction OrderedQuery Reachability

/-! ## Constraints of a row -/

/-- The check constraints of a row, each with its name. -/
def checkConstraints : List (String × Bool) → Txn Unit
  | [] => pure ()
  | (constraint, holds) :: rest => do
      raiseIf (holds = false) (.integrityError constraint)
      checkConstraints rest

/-- The check constraints of `model_services` over the columns modelled. -/
def ModelService.constraints (service : ModelService) : List (String × Bool) :=
  [("desired_replicas", 0 ≤ service.desiredReplicas ∧ service.desiredReplicas ≤ 1000),
   ("generation", 1 ≤ service.generation),
   ("cpu_millicores", 1 ≤ service.cpuMillicores),
   ("memory_mb", 16 ≤ service.memoryMb),
   ("gpu_count", 0 ≤ service.gpuCount),
   ("selected_vendor_kind", ∀ admission ∈ service.admission,
      admission.selectedKind = kindForVendor admission.selectedVendor),
   ("resource_authority", ∀ admission ∈ service.admission,
      admission.allocationAuthority = .controlPlaneExactDevice
        ∨ admission.acceleratorResourceName ≠ none),
   ("policy_vendor", ∀ admission ∈ service.admission,
      (admission.selectionPolicy = .nvidiaOnly → admission.selectedVendor = .nvidia)
        ∧ (admission.selectionPolicy = .ascendOnly →
          admission.selectedVendor = .huaweiAscend)),
   ("tensor_parallel_size", 1 ≤ service.tensorParallelSize),
   ("autoscaling_min_replicas",
      0 ≤ service.autoscalingMinReplicas ∧ service.autoscalingMinReplicas ≤ 1000),
   ("autoscaling_max_replicas", 1 ≤ service.autoscalingMaxReplicas
      ∧ service.autoscalingMinReplicas ≤ service.autoscalingMaxReplicas
      ∧ service.autoscalingMaxReplicas ≤ 1000),
   ("autoscaling_target_concurrency", 1 ≤ service.autoscalingTargetConcurrency
      ∧ service.autoscalingTargetConcurrency ≤ 1000000),
   ("autoscaling_cooldown_seconds", 0 ≤ service.autoscalingCooldownSeconds
      ∧ service.autoscalingCooldownSeconds ≤ 86400)]

/-! ## Creation -/

/-- What a caller of `ServiceRepository.create` supplies. -/
structure ServiceSubmission where
  serviceId : Uuid
  projectId : Uuid
  name : String
  model : String
  runtime : ServingRuntime
  runtimeType : RuntimeType
  image : Option String
  cpuMillicores : ℤ
  memoryMb : ℤ
  gpuCount : ℤ
  desiredReplicas : ℤ
  modelRevision : Option String := none
  tensorParallelSize : Option ℤ := none
  autoscalingEnabled : Bool := false
  autoscalingMinReplicas : ℤ := 1
  autoscalingMaxReplicas : ℤ := 4
  autoscalingTargetConcurrency : ℤ := 8
  autoscalingCooldownSeconds : ℤ := 60
  admission : Option ServiceAdmissionSnapshot := none

/-- The loop of `_eligible_node_snapshot` over the names. -/
def validateNodeNames : List String → Txn (List String)
  | [] => pure []
  | value :: rest => do
      let name ← validateKubernetesDnsSubdomain value "eligible node name"
      let names ← validateNodeNames rest
      pure (name :: names)

/-- `_eligible_node_snapshot`. -/
def eligibleNodeSnapshot (values : Option (List String)) (logicalModelId : Option Uuid) :
    Txn (Option (List String)) :=
  match logicalModelId with
  | none => do
      raiseIf (values ≠ none) (.valueError "eligible_node_names requires a logical model")
      pure none
  | some _ => do
      let values ← expect values
        (.valueError "logical services require an eligible-node snapshot")
      let names ← validateNodeNames values
      let canonical := orderBy id names.dedup
      raiseIf (canonical = [])
        (.valueError "logical services require a non-empty eligible-node snapshot")
      pure (some canonical)

/-- The logical models of a project with a public name. -/
def publicModels (db : Db) (projectId : Uuid) (publicName : String) :
    List (Uuid × LogicalModel) :=
  db.catalog.logicalModels.select (fun _ model =>
    model.projectId = projectId ∧ model.publicName = publicName)

/-- `check_service_name_available`. -/
def checkServiceNameAvailable (projectId : Uuid) (serviceName : String)
    (logicalModelId : Option Uuid) : Txn Unit := do
  let db ← get
  raiseIf (∃ owner ∈ (publicModels db projectId serviceName).head?,
      some owner.1 ≠ logicalModelId)
    (.gatewayModelNameConflict serviceName)

/-- The resources of one replica, as the quota counts them. -/
def ModelService.demand (service : ModelService) : ResourceDemand where
  cpuMillicores := service.cpuMillicores
  memoryMb := service.memoryMb
  gpuCount := service.gpuCount
  acceleratorVendor := service.admission.map (fun admission => admission.selectedVendor.value)

/-- The row of a new service. -/
def ServiceSubmission.service (s : ServiceSubmission) (now : Time)
    (eligibleNodeNames : Option (List String)) : ModelService where
  projectId := s.projectId
  name := s.name
  model := s.model
  runtime := s.runtime
  runtimeType := s.runtimeType
  image := s.image
  modelRevision := s.modelRevision
  cpuMillicores := s.cpuMillicores
  memoryMb := s.memoryMb
  gpuCount := s.gpuCount
  tensorParallelSize := s.tensorParallelSize.getD (max 1 s.gpuCount)
  admission := s.admission.map (fun admission => { admission with
    eligibleNodeNames := eligibleNodeNames.getD [] })
  desiredReplicas := s.desiredReplicas
  autoscalingEnabled := s.autoscalingEnabled
  autoscalingMinReplicas := s.autoscalingMinReplicas
  autoscalingMaxReplicas := s.autoscalingMaxReplicas
  autoscalingTargetConcurrency := s.autoscalingTargetConcurrency
  autoscalingCooldownSeconds := s.autoscalingCooldownSeconds
  createdAt := now
  updatedAt := now

/-- Insert the row of a new service. -/
def insertService (serviceId : Uuid) (service : ModelService) : Txn Unit := do
  let db ← get
  checkConstraints service.constraints
  raiseIf (db.modelServices.get? serviceId ≠ none) (.integrityError "pk_model_services")
  raiseIf (∃ row ∈ db.modelServices.rows,
      row.2.projectId = service.projectId ∧ row.2.name = service.name)
    (.integrityError "uq_model_services_project_name")
  modify fun db => { db with modelServices := db.modelServices.insert serviceId service }

/-- `ServiceRepository.create`. -/
def createService (now : Time) (s : ServiceSubmission) : Txn Unit := do
  let nodes ← eligibleNodeSnapshot (s.admission.map (·.eligibleNodeNames))
    (s.admission.map (·.logicalModelId))
  checkServiceNameAvailable s.projectId s.name (s.admission.map (·.logicalModelId))
  let service := s.service now nodes
  let _ ← replaceServiceCommitment now s.projectId 0 s.desiredReplicas service.demand
  insertService s.serviceId service

/-! ## Scaling -/

/-- What a flush leaves in a column: an attribute that equals what was loaded is not
    written. -/
def flushed {α : Type} [DecidableEq α] (loaded new current : α) : α :=
  if new = loaded then current else new

/-- The row of a service once its new count is written, by a session that loaded it as
    `service`. -/
def ModelService.rescaled (row service : ModelService) (now : Time) (desiredReplicas : ℤ)
    (nodes : Option (List String)) : ModelService :=
  { row with
    desiredReplicas := desiredReplicas
    admission := match nodes with
      | none => row.admission
      | some names => row.admission.map (fun admission => { admission with
          eligibleNodeNames := flushed
            (service.admission.elim [] (·.eligibleNodeNames)) names
            admission.eligibleNodeNames })
    status := flushed service.status
      (if desiredReplicas = 0 then .stopping else .pending) row.status
    stoppedAt := flushed service.stoppedAt none row.stoppedAt
    updatedAt := now
    version := service.version + 1 }

/-- The eligible nodes a scaling brings with it. -/
def scaledNodes (service : ModelService) (desiredReplicas : ℤ)
    (eligibleNodeNames : Option (List String)) : Txn (Option (List String)) :=
  if service.desiredReplicas < desiredReplicas ∧ service.admission.isSome then
    eligibleNodeSnapshot eligibleNodeNames (service.admission.map (·.logicalModelId))
  else do
    raiseIf (eligibleNodeNames ≠ none)
      (.valueError "eligible_node_names requires a logical-service scale-up")
    pure none

/-- `ServiceRepository.set_desired_replicas`, in a session that has loaded the row as
    `loaded` already; the query then finds that object. -/
def setDesiredReplicas (now : Time) (serviceId projectId : Uuid)
    (loaded : Option ModelService) (desiredReplicas : ℤ)
    (eligibleNodeNames : Option (List String)) : Txn (Option ModelService) := do
  let db ← get
  match (db.modelServices.get? serviceId).filter (·.projectId = projectId) with
  | none => pure none
  | some row =>
    let service := loaded.getD row
    if service.desiredReplicas = desiredReplicas then pure (some service)
    else do
      let nodes ← scaledNodes service desiredReplicas eligibleNodeNames
      let _ ← replaceServiceCommitment now projectId service.desiredReplicas
        desiredReplicas service.demand
      let scaled := row.rescaled service now desiredReplicas nodes
      checkConstraints scaled.constraints
      saveService serviceId scaled
      pure (some (service.rescaled service now desiredReplicas nodes))

/-- A scale request whose session has loaded the row of its service, not locked. -/
structure ScaleRequest where
  serviceId : Uuid
  projectId : Uuid
  preview : ModelService

/-- The rest of `scale_service`, from the lock on.  `revalidated` is what the admission
    of a logical service answers: the eligible nodes, or that it is rejected. -/
def scaleService (now : Time) (request : ScaleRequest) (replicas : ℤ)
    (revalidated : Option (List String)) : Txn Unit := do
  let db ← get
  raiseIf (¬ ∃ row ∈ db.modelServices.get? request.serviceId,
      row.projectId = request.projectId)
    (.lookupError "Service not found")
  let existing := request.preview
  if existing.desiredReplicas < replicas ∧ existing.admission.isSome
      ∧ existing.runtimeType = .kubernetes then
    match revalidated with
    | none => pure ()
    | some nodes => void (setDesiredReplicas now request.serviceId request.projectId
        (some existing) replicas (some nodes))
  else void (setDesiredReplicas now request.serviceId request.projectId
    (some existing) replicas none)

/-! ## The autoscaler -/

/-- What the metrics know of a service. -/
structure ServiceLoad where
  activeRequests : ℤ
  observedAt : Time

structure AutoscalerSettings where
  metricMaxAgeSeconds : ℚ
  scaleToZeroEnabled : Bool
  kubernetesAdmissionReady : Bool
  hasRuntimeProfileCatalog : Bool

/-- A row of `_candidates`. -/
structure AutoscaleCandidate where
  serviceId : Uuid
  logicalModelId : Option Uuid
  runtimeType : RuntimeType
  checkedAt : Option Time

/-- What a pass counts a candidate as; a skipped one is not counted. -/
inductive AutoscaleOutcome where
  | skipped | missing | coolingDown | held | scaled
  deriving DecidableEq, Repr

/-- `_usable_load`. -/
def ServiceLoad.UsableAt (load : ServiceLoad) (now : Time) (maxAgeSeconds : ℚ) : Prop :=
  0 ≤ load.activeRequests ∧ -5 ≤ now - load.observedAt ∧ now - load.observedAt ≤ maxAgeSeconds
  deriving Decidable

/-- `_in_cooldown`. -/
def ModelService.InCooldown (service : ModelService) (now : Time) : Prop :=
  ∃ last ∈ service.lastScaledAt, now - last < service.autoscalingCooldownSeconds
  deriving Decidable

/-- `_target_replicas`. -/
def targetReplicas (service : ModelService) (activeRequests : ℤ) (scaleToZeroEnabled : Bool) :
    ℤ :=
  let minimum := if scaleToZeroEnabled then service.autoscalingMinReplicas
    else max 1 service.autoscalingMinReplicas
  let requested := ⌈(activeRequests : ℚ) / service.autoscalingTargetConcurrency⌉
  min service.autoscalingMaxReplicas (max minimum requested)

/-- The logical model whose lock protects a service. -/
def lockedModel (runtimeType : RuntimeType) (logicalModelId : Option Uuid) : Option Uuid :=
  if runtimeType = .kubernetes then logicalModelId else none

/-- The scaling itself, where a refusal by the quota is caught. -/
def autoscaleTo (now : Time) (serviceId : Uuid) (service : ModelService) (target : ℤ)
    (nodes : Option (List String)) : Txn AutoscaleOutcome := do
  let updated ← catching Err.isQuotaExceeded
    (do
      let updated ← setDesiredReplicas now serviceId service.projectId (some service) target nodes
      pure (some updated))
    (pure none)
  match updated with
  | none => pure .held
  | some none => pure .skipped
  | some (some _) => do
      modify fun db => { db with
        modelServices := db.modelServices.modify serviceId (fun row => { row with
          lastScaledAt := some now }) }
      pure .scaled

/-- What a pass does with a service it has locked. -/
def autoscaleLocked (now : Time) (settings : AutoscalerSettings) (serviceId : Uuid)
    (service : ModelService) (load : Option ServiceLoad)
    (revalidated : Option (List String)) : Txn AutoscaleOutcome :=
  match load.filter (·.UsableAt now settings.metricMaxAgeSeconds) with
  | none => pure .missing
  | some load =>
    if service.InCooldown now then pure .coolingDown
    else
      let target := targetReplicas service load.activeRequests settings.scaleToZeroEnabled
      let growing := service.runtimeType = .kubernetes ∧ service.desiredReplicas < target
      if target = service.desiredReplicas then pure .held
      else if growing ∧ settings.kubernetesAdmissionReady = false then pure .held
      else if growing ∧ service.admission.isSome then
        match revalidated.filter (fun _ => settings.hasRuntimeProfileCatalog) with
        | none => pure .held
        | some nodes => autoscaleTo now serviceId service target (some nodes)
      else autoscaleTo now serviceId service target none

/-- One candidate of `ServiceAutoscaler.run_once`, in its own transaction.  The rows
    locked by others are skipped. -/
def autoscale (now : Time) (settings : AutoscalerSettings) (candidate : AutoscaleCandidate)
    (locked : List Uuid) (load : Option ServiceLoad) (revalidated : Option (List String)) :
    Txn AutoscaleOutcome := do
  let db ← get
  let model := lockedModel candidate.runtimeType candidate.logicalModelId
  if ∃ modelId ∈ model, modelId ∈ locked ∨ db.catalog.logicalModels.get? modelId = none then
    pure .skipped
  else
    match (db.modelServices.get? candidate.serviceId).filter (fun service =>
        service.autoscalingEnabled ∧ candidate.serviceId ∉ locked
          ∧ service.lastAutoscaleCheckedAt = candidate.checkedAt
          ∧ lockedModel service.runtimeType (service.admission.map (·.logicalModelId))
              = model) with
    | none => pure .skipped
    | some service => do
        let _ ← getLocked now service.projectId
        let service := { service with
          lastAutoscaleCheckedAt := some now, updatedAt := now }
        saveService candidate.serviceId service
        autoscaleLocked now settings candidate.serviceId service load revalidated

/-! ## The system -/

/-- The quota calls of tasks and of project owners. -/
inductive ProjectCall where
  | initializeQuota (projectId : Uuid)
  | admitQueued (projectId : Uuid)
  | releaseQueued (projectId : Uuid)
  | reserveExecution (projectId : Uuid) (demand : ResourceDemand) (estimatedCost : ℚ)
  | release (projectId : Uuid) (demand : ResourceDemand) (reservedCost settledCost : ℚ)
      (accountingDate : Option Date)
  | replace (projectId : Uuid) (limits : QuotaLimits)

def ProjectCall.quotaCall : ProjectCall → QuotaCall
  | .initializeQuota p => .initializeQuota p
  | .admitQueued p => .admitQueued p
  | .releaseQueued p => .releaseQueued p
  | .reserveExecution p demand cost => .reserveExecution p demand cost
  | .release p demand reserved settled date => .release p demand reserved settled date
  | .replace p limits => .replace p limits

/-- The database, and the scale requests between their two steps. -/
structure ScalingState where
  db : Db
  requests : Table Uuid ScaleRequest

inductive ScalingCall where
  | createService (now : Time) (submission : ServiceSubmission)
  | previewService (requestId serviceId projectId : Uuid)
  | scaleService (now : Time) (requestId : Uuid) (replicas : ℤ)
      (revalidated : Option (List String))
  | autoscale (now : Time) (settings : AutoscalerSettings) (candidate : AutoscaleCandidate)
      (locked : List Uuid) (load : Option ServiceLoad) (revalidated : Option (List String))
  /-- A quota call, by a caller that rolls a failed call back or not. -/
  | quota (now : Time) (call : ProjectCall) (rolledBack : Bool)
  | serve (now : Time) (op : ServiceOp)
  /-- What the rest of the platform does to the other tables. -/
  | elsewhere (rest : Db)

/-- The first step of `scale_service`: the row as the session loads it. -/
def ScalingState.preview (s : ScalingState) (requestId serviceId projectId : Uuid) :
    ScalingState :=
  match (s.db.modelServices.get? serviceId).filter (·.projectId = projectId) with
  | none => s
  | some row => { s with requests := s.requests.put requestId ⟨serviceId, projectId, row⟩ }

/-- The second step. -/
def ScalingState.scale (s : ScalingState) (now : Time) (requestId : Uuid) (replicas : ℤ)
    (revalidated : Option (List String)) : ScalingState :=
  match s.requests.get? requestId with
  | none => s
  | some request =>
    ⟨commit (scaleService now request replicas revalidated) s.db,
      s.requests.erase requestId⟩

/-- Services are created and scaled among the other calls.  At first there are neither
    services nor quota rows. -/
def scaling : System ScalingState ScalingCall where
  init s := s.db.modelServices = .empty ∧ s.db.quotas = .empty ∧ s.db.quotaStates = .empty
    ∧ s.requests = .empty
  step
    | .createService now submission, s =>
      { s with db := commit (createService now submission) s.db }
    | .previewService requestId serviceId projectId, s =>
      s.preview requestId serviceId projectId
    | .scaleService now requestId replicas revalidated, s =>
      s.scale now requestId replicas revalidated
    | .autoscale now settings candidate locked load revalidated, s => { s with
        db := commit (autoscale now settings candidate locked load revalidated) s.db }
    | .quota now call rolledBack, s => { s with
        db := if rolledBack then commit (call.quotaCall.run now) s.db
          else leaves (call.quotaCall.run now) s.db }
    | .serve now op, s => { s with db := commit (op.txn now) s.db }
    | .elsewhere rest, s => { s with
        db := { rest with
          modelServices := s.db.modelServices
          quotas := s.db.quotas
          quotaStates := s.db.quotaStates } }

end MiniAiCloud
