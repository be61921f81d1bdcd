import MiniAiCloud.Scaling
import MiniAiCloud.Workers

/-! # Logical models and their variants

    A logical model has a public name under which clients of the gateway ask for it,
    and variants, one for each vendor it can run on.  Public names and the names of
    services share one namespace in a project: a service may only carry the public name
    of its own logical model. -/

namespace MiniAiCloud

open Transaction

/-! ## Texts -/

/-- `_RESOURCE_NAME`: `[A-Za-z0-9][A-Za-z0-9_.-]{0,127}`. -/
def isResourceName (text : String) : Bool :=
  match text.toList with
  | [] => false
  | first :: rest => isAsciiAlnum first && rest.length ≤ 127
      && rest.all (fun c => isAsciiAlnum c || c = '_' || c = '.' || c = '-')

/-- `_normalize_resource_name`. -/
def normalizeResourceName (value field : String) : Txn String := do
  let normalized := pyStrip value
  raiseIf (isResourceName normalized = false)
    (.valueError (field ++ " contains unsupported characters"))
  pure normalized

/-- `_normalize_display_text`. -/
def normalizeDisplayText (value field : String) (maximum : ℕ) : Txn String := do
  let normalized := pyStrip value
  raiseIf (normalized = "" ∨ maximum < normalized.length
      ∨ normalized.toList.any (fun c => c.toNat < 32 && c ≠ '\t'))
    (.valueError (field ++ " must not be blank or contain control characters"))
  pure normalized

/-! ## Logical models -/

/-- Write the catalog. -/
def writeCatalog (f : Catalog → Catalog) : Txn Unit :=
  modify fun db => { db with catalog := f db.catalog }

/-- `check_logical_public_name_available`, with the exception its caller makes of it. -/
def checkLogicalPublicNameAvailable (projectId : Uuid) (publicName : String) : Txn Unit := do
  let db ← get
  raiseIf (∃ row ∈ db.modelServices.rows,
      row.2.projectId = projectId ∧ row.2.name = publicName)
    (.logicalModelConflict "public_name")

/-- `LogicalModelRepository.create`. -/
def createLogicalModel (now : Time) (modelId projectId : Uuid) (name publicName : String)
    (routingPolicy : GatewayRoutingPolicy) : Txn Unit := do
  let db ← get
  raiseIf (db.projects.get? projectId ≠ some .active)
    (.lookupError "active project does not exist")
  let normalizedName ← normalizeResourceName name "logical model name"
  let normalizedPublicName ← normalizeDisplayText publicName "public_name" 255
  checkLogicalPublicNameAvailable projectId normalizedPublicName
  raiseIf (∃ row ∈ db.catalog.logicalModels.rows,
      row.2.projectId = projectId ∧ row.2.name = normalizedName)
    (.logicalModelConflict "name")
  raiseIf (publicModels db projectId normalizedPublicName ≠ [])
    (.logicalModelConflict "public_name")
  raiseIf (db.catalog.logicalModels.get? modelId ≠ none)
    (.integrityError "pk_logical_models")
  writeCatalog fun catalog => { catalog with
    logicalModels := catalog.logicalModels.insert modelId {
      projectId := projectId
      name := normalizedName
      publicName := normalizedPublicName
      routingPolicy := routingPolicy
      createdAt := now
      updatedAt := now } }

/-- `LogicalModelRepository.get`. -/
def getLogicalModel (db : Db) (projectId modelId : Uuid) : Option LogicalModel :=
  (db.catalog.logicalModels.get? modelId).filter (·.projectId = projectId)

/-- `LogicalModelRepository.get` of a caller that raises where there is none. -/
def expectLogicalModel (projectId modelId : Uuid) : Txn LogicalModel := do
  let db ← get
  expect (getLogicalModel db projectId modelId) (.lookupError "logical model does not exist")

def saveLogicalModel (modelId : Uuid) (model : LogicalModel) : Txn Unit :=
  writeCatalog fun catalog => { catalog with
    logicalModels := catalog.logicalModels.set modelId model }

/-- `LogicalModelRepository.set_routing_policy`. -/
def setRoutingPolicy (now : Time) (projectId modelId : Uuid)
    (routingPolicy : GatewayRoutingPolicy) : Txn Unit := do
  let model ← expectLogicalModel projectId modelId
  if model.routingPolicy = routingPolicy then pure ()
  else saveLogicalModel modelId { model with
    routingPolicy := routingPolicy
    routingCursor := 0
    updatedAt := now
    version := model.version + 1 }

/-- `ModelVariantRepository.count` of the ready variants. -/
def readyVariants (db : Db) (modelId : Uuid) : List (Uuid × ModelVariant) :=
  db.catalog.modelVariants.select (fun _ variant =>
    variant.logicalModelId = modelId ∧ variant.status = .ready)

/-- `LogicalModelRepository.set_status`. -/
def setLogicalModelStatus (now : Time) (projectId modelId : Uuid)
    (status : ModelAvailabilityStatus) (reason : String) : Txn Unit := do
  let model ← expectLogicalModel projectId modelId
  let db ← get
  raiseIf (status = .ready ∧ readyVariants db modelId = [])
    (.valueError "a ready logical model requires at least one ready variant")
  if model.status = status then pure ()
  else do
    let _ ← normalizeDisplayText reason "reason" 2000
    saveLogicalModel modelId { model with
      status := status
      updatedAt := now
      version := model.version + 1 }

/-- A service or a replica was admitted for this model or variant. -/
def HasAdmission (db : Db) (holds : ServiceAdmissionSnapshot → Bool) : Prop :=
  (∃ row ∈ db.modelServices.rows, ∃ admission ∈ row.2.admission, holds admission = true)
    ∨ ∃ row ∈ db.serviceReplicas.rows, ∃ admission ∈ row.2.admission, holds admission = true
  deriving Decidable

/-- `LogicalModelRepository.delete`; variants and circuits go with the model. -/
def deleteLogicalModel (projectId modelId : Uuid) : Txn Bool := do
  let db ← get
  match getLogicalModel db projectId modelId with
  | none => pure false
  | some _ => do
      raiseIf (HasAdmission db (·.logicalModelId = modelId))
        (.integrityError "fk_model_services_logical_model_id_logical_models")
      writeCatalog fun catalog => { catalog with
        logicalModels := catalog.logicalModels.erase modelId
        modelVariants := catalog.modelVariants.keep (fun _ variant =>
          variant.logicalModelId ≠ modelId)
        vendorCircuits := catalog.vendorCircuits.keep (fun key _ => key.2.1 ≠ modelId) }
      pure true

/-! ## Variants -/

/-- `ModelVariantRepository.create`. -/
def createVariant (variantId projectId modelId : Uuid) (name : String)
    (vendor : AcceleratorVendor) (kind : AcceleratorKind) (status : ModelAvailabilityStatus) :
    Txn Unit := do
  let _ ← expectLogicalModel projectId modelId
  raiseIf (kind ≠ kindForVendor vendor)
    (.valueError (vendor.value ++ " is not compatible with kind=" ++ kind.value))
  let normalized ← normalizeResourceName name "model variant name"
  let db ← get
  raiseIf (db.catalog.modelVariants.get? variantId ≠ none)
    (.integrityError "pk_model_variants")
  raiseIf (∃ row ∈ db.catalog.modelVariants.rows,
      row.2.logicalModelId = modelId ∧ row.2.name = normalized)
    (.integrityError "uq_model_variants_logical_model_name")
  writeCatalog fun catalog => { catalog with
    modelVariants := catalog.modelVariants.insert variantId {
      logicalModelId := modelId
      name := normalized
      vendor := vendor
      kind := kind
      status := status } }

/-- `ModelVariantRepository.get`. -/
def getVariant (db : Db) (projectId modelId variantId : Uuid) : Option ModelVariant :=
  (db.catalog.modelVariants.get? variantId).filter (fun variant =>
    variant.logicalModelId = modelId ∧ (getLogicalModel db projectId modelId).isSome)

/-- `ModelVariantRepository.set_status`. -/
def setVariantStatus (projectId modelId variantId : Uuid) (status : ModelAvailabilityStatus)
    (reason : String) : Txn Unit := do
  let model ← expectLogicalModel projectId modelId
  let db ← get
  let variant ← expect (getVariant db projectId modelId variantId)
    (.lookupError "model variant does not exist")
  if variant.status = status then pure ()
  else do
    raiseIf (model.status = .ready ∧ variant.status = .ready ∧ status ≠ .ready
        ∧ (readyVariants db modelId).filter (fun row => row.1 ≠ variantId) = [])
      (.valueError "a ready logical model must retain at least one ready variant")
    let _ ← normalizeDisplayText reason "reason" 2000
    writeCatalog fun catalog => { catalog with
      modelVariants := catalog.modelVariants.set variantId { variant with
        status := status
        version := variant.version + 1 } }

/-- `ModelVariantRepository.delete`. -/
def deleteVariant (projectId modelId variantId : Uuid) : Txn Bool := do
  let model ← expectLogicalModel projectId modelId
  let db ← get
  match getVariant db projectId modelId variantId with
  | none => pure false
  | some variant => do
      raiseIf (model.status = .ready ∧ variant.status = .ready
          ∧ (readyVariants db modelId).length ≤ 1)
        (.valueError "a ready logical model must retain at least one ready variant")
      raiseIf (HasAdmission db (·.modelVariantId = variantId))
        (.integrityError "fk_model_services_model_variant_id_model_variants")
      writeCatalog fun catalog => { catalog with
        modelVariants := catalog.modelVariants.erase variantId }
      pure true

/-! ## The calls -/

/-- A call on the catalog. -/
inductive CatalogOp where
  | createLogicalModel (modelId projectId : Uuid) (name publicName : String)
      (routingPolicy : GatewayRoutingPolicy)
  | setRoutingPolicy (projectId modelId : Uuid) (routingPolicy : GatewayRoutingPolicy)
  | setLogicalModelStatus (projectId modelId : Uuid) (status : ModelAvailabilityStatus)
      (reason : String)
  | deleteLogicalModel (projectId modelId : Uuid)
  | createVariant (variantId projectId modelId : Uuid) (name : String)
      (vendor : AcceleratorVendor) (kind : AcceleratorKind) (status : ModelAvailabilityStatus)
  | setVariantStatus (projectId modelId variantId : Uuid) (status : ModelAvailabilityStatus)
      (reason : String)
  | deleteVariant (projectId modelId variantId : Uuid)

def CatalogOp.txn (now : Time) : CatalogOp → Txn Unit
  | createLogicalModel modelId projectId name publicName policy =>
    MiniAiCloud.createLogicalModel now modelId projectId name publicName policy
  | setRoutingPolicy projectId modelId policy =>
    MiniAiCloud.setRoutingPolicy now projectId modelId policy
  | setLogicalModelStatus projectId modelId status reason =>
    MiniAiCloud.setLogicalModelStatus now projectId modelId status reason
  | deleteLogicalModel projectId modelId =>
    void (MiniAiCloud.deleteLogicalModel projectId modelId)
  | createVariant variantId projectId modelId name vendor kind status =>
    MiniAiCloud.createVariant variantId projectId modelId name vendor kind status
  | setVariantStatus projectId modelId variantId status reason =>
    MiniAiCloud.setVariantStatus projectId modelId variantId status reason
  | deleteVariant projectId modelId variantId =>
    void (MiniAiCloud.deleteVariant projectId modelId variantId)

end MiniAiCloud
