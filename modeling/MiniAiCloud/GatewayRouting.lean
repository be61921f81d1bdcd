import MiniAiCloud.LogicalModels

/-! # Routing of the gateway

    A request names a model; the gateway resolves the name to a service without a
    logical model or to the services of a logical model, drops those its policy and the
    state of their variants rule out, and takes the first of the others whose circuit
    lets requests through and which has a healthy endpoint.

    The list of models is computed on its own, by queries over the whole project. -/

namespace MiniAiCloud

open Transaction OrderedQuery Reachability

/-! ## Columns of a service -/

def ModelService.logicalModelId (service : ModelService) : Option Uuid :=
  service.admission.map (·.logicalModelId)

def ModelService.modelVariantId (service : ModelService) : Option Uuid :=
  service.admission.map (·.modelVariantId)

def ModelService.selectedVendor (service : ModelService) : Option AcceleratorVendor :=
  service.admission.map (·.selectedVendor)

def ModelService.selectedKind (service : ModelService) : Option AcceleratorKind :=
  service.admission.map (·.selectedKind)

/-! ## Policies -/

/-- `_CandidatePolicy`. -/
structure CandidatePolicy where
  vendorOrder : List AcceleratorVendor
  allowedVendors : List AcceleratorVendor
  balanced : Bool := false

/-- `_candidate_policy`. -/
def candidatePolicy : Option GatewayRoutingPolicy → CandidatePolicy
  | none => ⟨[.nvidia, .huaweiAscend], [.nvidia, .huaweiAscend], false⟩
  | some .preferNvidia => ⟨[.nvidia, .huaweiAscend], [.nvidia, .huaweiAscend], false⟩
  | some .preferAscend => ⟨[.huaweiAscend, .nvidia], [.nvidia, .huaweiAscend], false⟩
  | some .strictNvidia => ⟨[.nvidia, .huaweiAscend], [.nvidia], false⟩
  | some .strictAscend => ⟨[.huaweiAscend, .nvidia], [.huaweiAscend], false⟩
  | some .balanced => ⟨[.nvidia, .huaweiAscend], [.nvidia, .huaweiAscend], true⟩

/-- The `case` over `vendor_rank`, with its `else_`. -/
def CandidatePolicy.vendorRank (policy : CandidatePolicy) (vendor : Option AcceleratorVendor) :
    ℕ :=
  vendor.elim policy.vendorOrder.length policy.vendorOrder.idxOf

/-! ## Circuits -/

/-- The circuit keeps requests away. -/
def VendorCircuitState.Blocks (circuit : VendorCircuitState) (now : Time) : Prop :=
  circuit.state = .opened ∧ ∃ opened ∈ circuit.openedUntil, now < opened
  deriving Decidable

/-! ## The list of models -/

structure GatewayModelCatalogEntry where
  modelId : String
  createdAt : Time

/-- The services of a project, the newest first. -/
def projectServices (db : Db) (projectId : Uuid) : List (Uuid × ModelService) :=
  orderBy (fun row => toLex (OrderDual.toDual row.2.createdAt, OrderDual.toDual row.1))
    (db.modelServices.select (fun _ service => service.projectId = projectId))

/-- The conditions of `routable_service_ids` on a replica. -/
def ServiceReplica.Routable (replica : ServiceReplica) (generation : ℤ) : Prop :=
  replica.generation = generation ∧ replica.status = .running ∧ replica.health = .healthy
    ∧ replica.endpointUrl ≠ none ∧ replica.endpointUrl ≠ some "" ∧ replica.executionId ≠ none
  deriving Decidable

/-- `routable_service_ids`. -/
def routableServiceIds (db : Db) (projectId : Uuid) : List Uuid :=
  (db.serviceReplicas.select (fun _ replica =>
    ∃ service ∈ db.modelServices.get? replica.serviceId,
      service.projectId = projectId ∧ replica.Routable service.generation)).map (·.2.serviceId)

/-- The logical models of a project. -/
def projectModels (db : Db) (projectId : Uuid) : List (Uuid × LogicalModel) :=
  db.catalog.logicalModels.select (fun _ model => model.projectId = projectId)

/-- `service_by_name.get(name)`: of services with the same name the last one counts. -/
def serviceNamed (services : List (Uuid × ModelService)) (name : String) :
    Option (Uuid × ModelService) :=
  (services.filter (fun row => row.2.name = name)).getLast?

/-- `ambiguous_names`: public names that another service has taken. -/
def ambiguousNames (db : Db) (projectId : Uuid) : List String :=
  ((projectModels db projectId).filter (fun row : Uuid × LogicalModel => decide
    (∃ owner ∈ serviceNamed (projectServices db projectId) row.2.publicName,
      owner.2.logicalModelId ≠ some row.1))).map (·.2.publicName)

/-- `variants_by_id.get(id)` over the variants of the models of the project. -/
def projectVariant (db : Db) (projectId variantId : Uuid) : Option ModelVariant :=
  (db.catalog.modelVariants.get? variantId).filter (fun variant =>
    variant.logicalModelId ∈ (projectModels db projectId).map Prod.fst)

/-- The logical model that a service makes available, if it passes the checks of the
    loop over the services. -/
def offeredModel (now : Time) (projectId : Uuid) (db : Db) (row : Uuid × ModelService) :
    Option Uuid := do
  let admission ← row.2.admission
  let model ← getLogicalModel db projectId admission.logicalModelId
  guard (¬ (model.publicName ∈ ambiguousNames db projectId ∨ model.status ≠ .ready
    ∨ row.2.desiredReplicas ≤ 0 ∨ row.1 ∉ routableServiceIds db projectId))
  guard (admission.selectedVendor ∈ (candidatePolicy (some model.routingPolicy)).allowedVendors)
  let variant ← projectVariant db projectId admission.modelVariantId
  guard (¬ (variant.logicalModelId ≠ admission.logicalModelId ∨ variant.status ≠ .ready
    ∨ admission.selectedVendor ≠ variant.vendor ∨ admission.selectedKind ≠ variant.kind))
  guard (¬ ∃ circuit ∈ db.catalog.vendorCircuits.get?
      (projectId, admission.logicalModelId, admission.selectedVendor), circuit.Blocks now)
  pure admission.logicalModelId

/-- The loop that collects `available_logical_ids`. -/
def availableLogicalIds (now : Time) (projectId : Uuid) (db : Db) : List Uuid :=
  (projectServices db projectId).foldl (fun available row =>
    match offeredModel now projectId db row with
    | none => available
    | some modelId => if modelId ∈ available then available else modelId :: available) []

/-- `GatewayRoutingRepository.list_available_models`. -/
def listAvailableModels (now : Time) (projectId : Uuid) (db : Db) :
    List GatewayModelCatalogEntry :=
  let plain := (projectServices db projectId).filter (fun row =>
    row.2.logicalModelId = none ∧ row.2.name ∉ ambiguousNames db projectId
      ∧ 0 < row.2.desiredReplicas ∧ row.1 ∈ routableServiceIds db projectId)
  let logical := (projectModels db projectId).filter (fun row =>
    row.1 ∈ availableLogicalIds now projectId db)
  let entries := plain.map (fun row => ⟨row.2.name, row.2.createdAt⟩)
    ++ logical.map (fun row => ⟨row.2.publicName, row.2.createdAt⟩)
  orderBy (fun entry : GatewayModelCatalogEntry =>
    toLex (OrderDual.toDual entry.createdAt, OrderDual.toDual entry.modelId)) entries

/-! ## Resolving a name -/

/-- What a name stands for: the anchor, a service; and the logical model of the anchor,
    locked.  Or nothing that can be routed. -/
inductive Resolution where
  | unserved (anchor : Option Uuid)
  | served (anchor : Uuid × ModelService) (model : Option (Uuid × LogicalModel))

/-- `ServiceRepository.get_by_name`. -/
def getServiceByName (db : Db) (projectId : Uuid) (name : String) :
    Option (Uuid × ModelService) :=
  (db.modelServices.select (fun _ service =>
    service.projectId = projectId ∧ service.name = name)).head?

/-- `public_logical_model`. -/
def publicLogicalModel (db : Db) (projectId : Uuid) (publicModel : String) :
    Option (Uuid × LogicalModel) :=
  (orderBy (fun row => toLex (row.2.createdAt, row.1))
    (publicModels db projectId publicModel)).head?

/-- The services of a logical model. -/
def modelServicesOf (db : Db) (projectId modelId : Uuid) : List (Uuid × ModelService) :=
  db.modelServices.select (fun _ service =>
    service.projectId = projectId ∧ service.logicalModelId = some modelId)

/-- The service that stands for a logical model whose public name no service has. -/
def modelAnchor (db : Db) (projectId modelId : Uuid) (model : LogicalModel) :
    Option (Uuid × ModelService) :=
  (orderBy (fun row : Uuid × ModelService =>
      toLex (if row.2.name = model.name then 0 else 1, toLex (row.2.createdAt, row.1)))
    (modelServicesOf db projectId modelId)).head?

/-- The part of `choose_route` that finds the anchor and the logical model. -/
def resolvePublicModel (projectId : Uuid) (publicModel : String) : Txn Resolution := do
  let db ← get
  let anchor := getServiceByName db projectId publicModel
  match publicLogicalModel db projectId publicModel with
  | some (modelId, model) => do
      raiseIf (∃ row ∈ anchor, row.2.logicalModelId ≠ some modelId)
        (.gatewayModelNameConflict publicModel)
      if model.status ≠ .ready then pure (.unserved (anchor.map Prod.fst))
      else match anchor.or (modelAnchor db projectId modelId model) with
        | none => pure (.unserved none)
        | some anchor => pure (.served anchor (some (modelId, model)))
  | none =>
    match anchor with
    | none => pure (.unserved none)
    | some anchor =>
      match anchor.2.logicalModelId with
      | none => pure (.served anchor none)
      | some modelId =>
        match getLogicalModel db projectId modelId with
        | none => pure (.unserved (some anchor.1))
        | some model =>
          if model.status ≠ .ready then pure (.unserved (some anchor.1))
          else pure (.served anchor (some (modelId, model)))

/-! ## Candidates -/

inductive SkipReason where
  | policyExcluded | variantMissing | variantNotReady | variantSnapshotMismatch
  | vendorExcluded | circuitOpen | noHealthyReplica
  deriving DecidableEq, Repr

structure GatewayPreflightSkip where
  serviceId : Uuid
  modelVariantId : Option Uuid
  selectedVendor : Option AcceleratorVendor
  reason : SkipReason

/-- `_preflight_skip`. -/
def preflightSkip (candidate : Uuid × ModelService) (reason : SkipReason) :
    GatewayPreflightSkip where
  serviceId := candidate.1
  modelVariantId := candidate.2.modelVariantId
  selectedVendor := candidate.2.selectedVendor
  reason := reason

/-- The services of a logical model that want replicas, in the order of the policy. -/
def policyCandidates (db : Db) (projectId modelId : Uuid) (policy : CandidatePolicy) :
    List (Uuid × ModelService) :=
  orderBy (fun row : Uuid × ModelService =>
      toLex (policy.vendorRank row.2.selectedVendor, toLex (row.2.createdAt, row.1)))
    ((modelServicesOf db projectId modelId).filter (fun row => 0 < row.2.desiredReplicas))

/-- The policy and the candidates, `none` where the anchor has another logical model. -/
def routeCandidates (db : Db) (projectId : Uuid) (anchor : Uuid × ModelService)
    (model : Option (Uuid × LogicalModel)) :
    Option (CandidatePolicy × List (Uuid × ModelService)) :=
  match anchor.2.logicalModelId with
  | none => some (candidatePolicy none, [anchor])
  | some anchorModel =>
    match model with
    | none => none
    | some (modelId, model) =>
      if modelId ≠ anchorModel then none
      else
        let policy := candidatePolicy (some model.routingPolicy)
        some (policy, policyCandidates db projectId anchorModel policy)

/-- Why the first loop skips a candidate; `variants_by_id` are the variants of the model
    of the candidate. -/
def preflightReason (db : Db) (policy : CandidatePolicy) (candidate : Uuid × ModelService) :
    Option SkipReason :=
  match candidate.2.admission with
  | none => none
  | some admission =>
    if admission.selectedVendor ∉ policy.allowedVendors then some .policyExcluded
    else match (db.catalog.modelVariants.get? admission.modelVariantId).filter (fun variant =>
        variant.logicalModelId = admission.logicalModelId) with
      | none => some .variantMissing
      | some variant =>
        if variant.status ≠ .ready then some .variantNotReady
        else if admission.selectedVendor ≠ variant.vendor
            ∨ admission.selectedKind ≠ variant.kind then some .variantSnapshotMismatch
        else none

/-- The first loop: the skips and the eligible candidates. -/
def preflight (db : Db) (policy : CandidatePolicy) (candidates : List (Uuid × ModelService)) :
    List GatewayPreflightSkip × List (Uuid × ModelService) :=
  (candidates.filterMap (fun candidate =>
      (preflightReason db policy candidate).map (preflightSkip candidate)),
    candidates.filter (fun candidate => preflightReason db policy candidate = none))

/-- A balanced policy starts at the cursor of the model. -/
def rotated (policy : CandidatePolicy) (model : Option (Uuid × LogicalModel))
    (eligible : List (Uuid × ModelService)) : List (Uuid × ModelService) :=
  match model with
  | none => eligible
  | some (_, model) =>
    if policy.balanced then
      let start := (model.routingCursor % eligible.length).toNat
      eligible.drop start ++ eligible.take start
    else eligible

/-! ## Taking a route -/

/-- `_MAX_ROUTING_CURSOR`. -/
def maxRoutingCursor : ℤ := 2 ^ 63 - 1

/-- The cursor some steps on, around the end of a `BigInteger`. -/
def nextCursor (cursor steps : ℤ) : ℤ :=
  let wrapThreshold := maxRoutingCursor - steps
  if wrapThreshold < cursor then cursor - wrapThreshold - 1 else cursor + steps

/-- `_advance_routing_cursor`. -/
def advanceRoutingCursor (modelId : Uuid) (steps : ℤ) : Txn Unit := do
  raiseIf (¬ (1 ≤ steps ∧ steps ≤ maxRoutingCursor))
    (.valueError "routing cursor steps must be positive and fit in BigInteger")
  let db ← get
  let model ← expect (db.catalog.logicalModels.get? modelId)
    (.runtimeError "locked logical model disappeared while advancing routing cursor")
  saveLogicalModel modelId { model with
    routingCursor := nextCursor model.routingCursor steps }

/-- A balanced policy moves the cursor of its model past the candidates it looked at. -/
def advanceBalanced (policy : CandidatePolicy) (model : Option (Uuid × LogicalModel))
    (steps : ℤ) : Txn Unit :=
  match model with
  | none => pure ()
  | some (modelId, _) =>
    if policy.balanced then advanceRoutingCursor modelId steps else pure ()

structure GatewayRoute where
  serviceId : Uuid
  logicalModelId : Option Uuid
  modelVariantId : Option Uuid
  selectedVendor : Option AcceleratorVendor
  upstreamModel : String
  gpuCount : ℤ
  selection : EndpointSelection
  preflightSkips : List GatewayPreflightSkip

/-- The circuit once it is closed again. -/
def VendorCircuitState.reset (circuit : VendorCircuitState) (now : Time) :
    VendorCircuitState :=
  { circuit with
    state := .closed
    failureCount := 0
    openedUntil := none
    lastErrorCode := none
    version := circuit.version + 1
    updatedAt := now }

def saveCircuit (key : Uuid × Uuid × AcceleratorVendor) (circuit : VendorCircuitState) :
    Txn Unit :=
  writeCatalog fun catalog => { catalog with
    vendorCircuits := catalog.vendorCircuits.put key circuit }

/-- Whether the circuit of a candidate lets the request through; one that has been open
    for long enough is closed. -/
def passCircuit (now : Time) (projectId : Uuid) (service : ModelService) : Txn Bool :=
  match service.admission with
  | none => pure true
  | some admission => do
      let db ← get
      let key := (projectId, admission.logicalModelId, admission.selectedVendor)
      match db.catalog.vendorCircuits.get? key with
      | none => pure true
      | some circuit =>
        if circuit.state ≠ .opened then pure true
        else if circuit.Blocks now then pure false
        else do
          saveCircuit key (circuit.reset now)
          pure true

/-- The second loop, from a position on. -/
def routeAmong (now : Time) (projectId : Uuid) (excludedVendors : List AcceleratorVendor)
    (policy : CandidatePolicy) (model : Option (Uuid × LogicalModel)) :
    ℕ → List GatewayPreflightSkip → List (Uuid × ModelService) → Txn (Option GatewayRoute)
  | _, _, [] => pure none
  | offset, skips, candidate :: rest =>
    if ∃ vendor ∈ candidate.2.selectedVendor, vendor ∈ excludedVendors then
      routeAmong now projectId excludedVendors policy model (offset + 1)
        (skips ++ [preflightSkip candidate .vendorExcluded]) rest
    else do
      if ← passCircuit now projectId candidate.2 then
        match ← chooseHealthyEndpoint now candidate.1 projectId with
        | none =>
          routeAmong now projectId excludedVendors policy model (offset + 1)
            (skips ++ [preflightSkip candidate .noHealthyReplica]) rest
        | some selection => do
            advanceBalanced policy model (offset + 1)
            pure (some {
              serviceId := candidate.1
              logicalModelId := candidate.2.logicalModelId
              modelVariantId := candidate.2.modelVariantId
              selectedVendor := candidate.2.selectedVendor
              upstreamModel := candidate.2.model
              gpuCount := candidate.2.gpuCount
              selection := selection
              preflightSkips := skips })
      else
        routeAmong now projectId excludedVendors policy model (offset + 1)
          (skips ++ [preflightSkip candidate .circuitOpen]) rest

/-- `GatewayRoutingRepository.choose_route`; the anchor is given by its id. -/
def chooseRoute (now : Time) (projectId : Uuid) (publicModel : String)
    (excludedVendors : List AcceleratorVendor) : Txn (Option Uuid × Option GatewayRoute) := do
  match ← resolvePublicModel projectId publicModel with
  | .unserved anchor => pure (anchor, none)
  | .served anchor model => do
      let db ← get
      match routeCandidates db projectId anchor model with
      | none => pure (some anchor.1, none)
      | some (policy, candidates) => do
          let (skips, eligible) := preflight db policy candidates
          let route ← routeAmong now projectId excludedVendors policy model 0 skips
            (rotated policy model eligible)
          pure (some anchor.1, route)

/-! ## The outcome of a request -/

/-- `_get_or_create_circuit_state`. -/
def getOrCreateCircuitState (now : Time) (projectId modelId : Uuid)
    (vendor : AcceleratorVendor) : Txn VendorCircuitState := do
  let db ← get
  match db.catalog.vendorCircuits.get? (projectId, modelId, vendor) with
  | some circuit => pure circuit
  | none => do
      raiseIf (db.projects.get? projectId = none ∨ db.catalog.logicalModels.get? modelId = none)
        (.integrityError "fk_vendor_circuit_states")
      let circuit : VendorCircuitState := {
        state := .closed
        failureCount := 0
        openedUntil := none
        lastErrorCode := none
        version := 0
        updatedAt := now }
      saveCircuit (projectId, modelId, vendor) circuit
      pure circuit

/-- `GatewayRoutingRepository.record_outcome`. -/
def recordOutcome (now : Time) (route : GatewayRoute) (projectId : Uuid) (success : Bool)
    (errorCode : Option String) (failureThreshold : ℤ) (cooldownSeconds : ℚ) : Txn Unit :=
  match route.logicalModelId, route.selectedVendor with
  | some modelId, some vendor => do
      let circuit ← getOrCreateCircuitState now projectId modelId vendor
      if success then saveCircuit (projectId, modelId, vendor) (circuit.reset now)
      else
        let failed := { circuit with
          failureCount := circuit.failureCount + 1
          lastErrorCode := errorCode
          version := circuit.version + 1
          updatedAt := now }
        saveCircuit (projectId, modelId, vendor)
          (if failureThreshold ≤ failed.failureCount then
            { failed with state := .opened, openedUntil := some (now + cooldownSeconds) }
          else failed)
  | _, _ => pure ()

/-! ## The system -/

inductive GatewayCall where
  /-- A service is created or scaled, or another call of that system. -/
  | services (call : ScalingCall)
  | catalog (now : Time) (op : CatalogOp)
  | chooseRoute (now : Time) (projectId : Uuid) (publicModel : String)
      (excludedVendors : List AcceleratorVendor)
  | recordOutcome (now : Time) (route : GatewayRoute) (projectId : Uuid) (success : Bool)
      (errorCode : Option String) (failureThreshold : ℤ) (cooldownSeconds : ℚ)

/-- The rest of the platform does not write the catalog or the replicas either. -/
def ScalingCall.within (db : Db) : ScalingCall → ScalingCall
  | .elsewhere rest => .elsewhere { rest with
      catalog := db.catalog
      serviceReplicas := db.serviceReplicas }
  | call => call

/-- A query has no more rows than a list of the interpreter holds, a `BigInteger`; an
    insert past that fails. -/
def withinCapacity (before after : ScalingState) : ScalingState :=
  if (after.db.modelServices.rows.length : ℤ) ≤ maxRoutingCursor then after else before

/-- The gateway among the calls that create, scale and serve services.  At first there
    are no services, replicas, quota rows or logical models. -/
def gateway : System ScalingState GatewayCall where
  init s := scaling.init s ∧ s.db.serviceReplicas = .empty ∧ s.db.catalog = {}
  step
    | .services call, s => withinCapacity s (scaling.step (call.within s.db) s)
    | .catalog now op, s => { s with db := commit (op.txn now) s.db }
    | .chooseRoute now projectId publicModel excludedVendors, s => { s with
        db := commit (MiniAiCloud.chooseRoute now projectId publicModel excludedVendors) s.db }
    | .recordOutcome now route projectId success errorCode threshold cooldown, s => { s with
        db := commit (MiniAiCloud.recordOutcome now route projectId success errorCode threshold
          cooldown) s.db }

end MiniAiCloud
