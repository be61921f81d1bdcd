import MiniAiCloud.Async
import MiniAiCloud.References

/-! # The object store and the requests that use it

    The bytes of an artifact live in an object store, at a staging key until they are
    verified and at a final key afterwards.  An upload puts the staging object, a finalize
    request promotes it and then marks the row ready, a deletion fences the row, removes
    both objects and then marks the row deleted; a worker publishes an output by all of
    these steps in a row.  The store and the database have no lock in common: every request
    is a program that awaits one of them at a time. -/

namespace MiniAiCloud

open Async OrderedQuery

abbrev Bytes := List UInt8

/-! ## Errors -/

/-- The class of an error. -/
def Err.className : Err → String
  | quotaNotFound _ => "QuotaNotFoundError"
  | quotaInvariantViolation _ => "QuotaInvariantViolation"
  | quotaExceeded _ _ _ => "QuotaExceededError"
  | resourceInvariantViolation _ => "ResourceInvariantViolation"
  | invalidTaskTransition _ _ => "InvalidTaskTransition"
  | claimRejected _ => "ClaimRejected"
  | staleExecution _ => "StaleExecutionError"
  | dependencyValidation _ => "DependencyValidationError"
  | placementConflict _ => "PlacementConflict"
  | preemptionContention _ => "PreemptionContention"
  | dagNotFound _ => "DAGNotFoundError"
  | dagConflict _ => "DAGConflictError"
  | dagCycle _ => "DAGCycleError"
  | lookupError _ => "LookupError"
  | valueError _ => "ValueError"
  | integrityError _ => "IntegrityError"
  | gatewayModelNameConflict _ => "GatewayModelNameConflictError"
  | logicalModelConflict _ => "LogicalModelConflictError"
  | artifactRecordNotFound _ => "ArtifactRecordNotFoundError"
  | artifactProjectUnavailable _ => "ArtifactProjectUnavailableError"
  | artifactStateConflict _ => "ArtifactStateConflictError"
  | artifactReferenced _ => "ArtifactReferencedError"
  | artifactQuotaExceeded _ _ _ => "ArtifactQuotaExceededError"
  | artifactAccountingInvariant _ => "ArtifactAccountingInvariantError"
  | taskArtifactNotFound _ => "TaskArtifactNotFoundError"
  | taskArtifactConflict _ => "TaskArtifactConflictError"
  | datasetNotFound _ => "DatasetNotFoundError"
  | datasetConflict _ => "DatasetConflictError"
  | runtimeError _ => "RuntimeError"

inductive ArtifactFault where
  /-- What a repository raised. -/
  | record (error : Err)
  | backendMismatch (backend : String)
  | storeError (message : String)
  | objectNotFound (key : ObjectKey)
  | objectChanged
  | tooLarge (sizeBytes maximumBytes : ℤ)
  | integrity (message : String)
  | workspace (message : String)
  | outputNotProduced (name : String)
  | osError
  deriving DecidableEq

/-- The class of an exception. -/
def ArtifactFault.className : ArtifactFault → String
  | record error => error.className
  | backendMismatch _ => "ArtifactBackendMismatchError"
  | storeError _ => "ArtifactStoreError"
  | objectNotFound _ => "ArtifactObjectNotFoundError"
  | objectChanged => "ArtifactObjectChangedError"
  | tooLarge _ _ => "ArtifactTooLargeError"
  | integrity _ => "ArtifactIntegrityError"
  | workspace _ => "ArtifactWorkspaceError"
  | outputNotProduced _ => "ArtifactOutputNotProducedError"
  | osError => "OSError"

/-- The text of the exceptions that become a failure reason. -/
def ArtifactFault.message : ArtifactFault → String
  | tooLarge size maximum => "artifact size " ++ toString size
      ++ " exceeds the configured maximum of " ++ toString maximum ++ " bytes"
  | integrity text | workspace text | storeError text => text
  | objectChanged => "artifact object changed during checksum verification"
  | fault => fault.className

/-- `except (ArtifactIntegrityError, ArtifactTooLargeError)`. -/
def ArtifactFault.rejectsUpload : ArtifactFault → Bool
  | integrity _ | tooLarge _ _ => true
  | _ => false

/-- `except (ArtifactIntegrityError, ArtifactObjectChangedError, ArtifactTooLargeError)`. -/
def ArtifactFault.rejectsObject : ArtifactFault → Bool
  | integrity _ | objectChanged | tooLarge _ _ => true
  | _ => false

/-! ## The local store -/

/-- A store, and the settings of its users; `digest` is the SHA-256 of an object. -/
structure ArtifactStore where
  backend : String
  maxBytes : ℤ
  artifactMaxBytes : ℤ
  digest : Bytes → String

/-- The objects of a store. -/
abbrev Objects := Table ObjectKey Bytes

def stagingKey (projectId artifactId : Uuid) : ObjectKey := ⟨projectId, artifactId, .staging⟩

def finalKey (projectId artifactId : Uuid) : ObjectKey := ⟨projectId, artifactId, .content⟩

namespace ArtifactStore

def info (store : ArtifactStore) (bytes : Bytes) : ArtifactObjectInfo :=
  ⟨bytes.length, store.digest bytes⟩

/-- `_check_expected_size`, after `normalize_sha256`. -/
def expects (store : ArtifactStore) (size : ℤ) (sha256 : String) :
    Except ArtifactFault String :=
  let normalized := (pyStrip sha256).map Char.toLower
  if isSha256 normalized = false then
    .error (.record (.valueError "sha256 must contain exactly 64 hexadecimal characters"))
  else if size < 0 then
    .error (.record (.valueError "expected_size_bytes must not be negative"))
  else if store.maxBytes < size then .error (.tooLarge size store.maxBytes)
  else .ok normalized

/-- `_verify_object`. -/
def verify (info : ArtifactObjectInfo) (size : ℤ) (sha256 : String) :
    Except ArtifactFault Unit :=
  if info.sizeBytes ≠ size then
    .error (.integrity ("artifact size mismatch: expected " ++ toString size ++ ", got "
      ++ toString info.sizeBytes))
  else if info.sha256 ≠ sha256 then .error (.integrity "artifact SHA-256 checksum mismatch")
  else .ok ()

/-- The loop of `put` over the chunks of an upload. -/
def receive (store : ArtifactStore) (size : ℤ) : List Bytes → Bytes → Except ArtifactFault Bytes
  | [], received => .ok received
  | chunk :: rest, received =>
    if chunk = [] then store.receive size rest received
    else
      let received := received ++ chunk
      if store.maxBytes < received.length then
        .error (.tooLarge received.length store.maxBytes)
      else if size < received.length then
        .error (.integrity ("artifact upload exceeded its declared size: expected "
          ++ toString size ++ " bytes"))
      else store.receive size rest received

/-- `LocalArtifactStore.put`. -/
def put (store : ArtifactStore) (key : ObjectKey) (chunks : List Bytes) (size : ℤ)
    (sha256 : String) (objects : Objects) :
    Except ArtifactFault (ArtifactObjectInfo × Objects) := do
  let expected ← store.expects size sha256
  let bytes ← store.receive size chunks []
  verify (store.info bytes) size expected
  .ok (store.info bytes, objects.put key bytes)

/-- `_inspect_local_file`. -/
def inspect (store : ArtifactStore) (bytes : Bytes) : Except ArtifactFault ArtifactObjectInfo :=
  if store.maxBytes < bytes.length then .error (.tooLarge bytes.length store.maxBytes)
  else .ok (store.info bytes)

/-- `_finalize_local_file`. -/
def promote (store : ArtifactStore) (staging final : ObjectKey) (size : ℤ) (sha256 : String)
    (objects : Objects) : Except ArtifactFault (ArtifactObjectInfo × Objects) :=
  match objects.get? final with
  | some bytes => do
      let info ← store.inspect bytes
      verify info size sha256
      .ok (info, objects)
  | none =>
    match objects.get? staging with
    | none => .error (.objectNotFound staging)
    | some bytes => do
        let info ← store.inspect bytes
        verify info size sha256
        .ok (info, (objects.erase staging).put final bytes)

/-- `LocalArtifactStore.finalize`. -/
def finalize (store : ArtifactStore) (staging final : ObjectKey) (size : ℤ)
    (sha256 : String) (objects : Objects) :
    Except ArtifactFault (ArtifactObjectInfo × Objects) := do
  let expected ← store.expects size sha256
  store.promote staging final size expected objects

end ArtifactStore

/-! ## What a request awaits -/

/-- The operations of the artifact requests: one transaction or one call of the store. -/
inductive ArtifactAwait where
  /-- `ArtifactRepository.get`. -/
  | read (projectId artifactId : Uuid)
  | create (request : PendingArtifact)
  | put (key : ObjectKey) (chunks : List Bytes) (size : ℤ) (sha256 : String)
  | finalize (staging final : ObjectKey) (size : ℤ) (sha256 : String)
  /-- `ArtifactStore.delete`. -/
  | remove (key : ObjectKey)
  | markReady (projectId artifactId : Uuid) (key : ObjectKey) (info : ArtifactObjectInfo)
  | markFailed (projectId artifactId : Uuid) (reason : String)
  /-- The first transaction of `ArtifactService.delete`. -/
  | beginDelete (projectId artifactId : Uuid)
  /-- The first transaction of `_delete_retained_artifact`. -/
  | retire (projectId artifactId : Uuid)
  | markDeleted (projectId artifactId : Uuid)
  | listOutputs (owner : ExecutionOwner)
  /-- The transaction of `_publish_file` that creates the pending row. -/
  | createOutput (owner : ExecutionOwner) (request : PendingArtifact)
  /-- The transaction of `_publish_file` that marks the row ready and binds it. -/
  | commitOutput (owner : ExecutionOwner) (bindingId artifactId : Uuid) (key : ObjectKey)
      (info : ArtifactObjectInfo)

abbrev ArtifactAwait.Answer : ArtifactAwait → Type
  | read _ _ => Option Artifact
  | put _ _ _ _ | finalize _ _ _ _ => ArtifactObjectInfo
  | remove _ => Unit
  | create _ | markReady _ _ _ _ | markFailed _ _ _ | beginDelete _ _ | markDeleted _ _
  | createOutput _ _ | commitOutput _ _ _ _ _ => Artifact
  | retire _ _ => Option Artifact
  | listOutputs _ => List (Uuid × TaskArtifact)

abbrev artifactAwaits : Signature := ⟨ArtifactAwait, ArtifactAwait.Answer⟩

abbrev ArtifactProg := Prog artifactAwaits ArtifactFault

/-- The database, the store, and the time. -/
structure ArtifactSite where
  db : Db
  objects : Objects
  now : Time

/-- A transaction commits, or is rolled back with what it raised. -/
def ArtifactSite.transact {α : Type} (site : ArtifactSite) (txn : Txn α) :
    Except ArtifactFault (α × ArtifactSite) :=
  match txn site.db with
  | .ok a db => .ok (a, { site with db := db })
  | .error e _ => .error (.record e)

/-- A call of the store changes the objects, or raises. -/
def ArtifactSite.storing {α : Type} (site : ArtifactSite)
    (result : Except ArtifactFault (α × Objects)) : Except ArtifactFault (α × ArtifactSite) :=
  match result with
  | .ok (a, objects) => .ok (a, { site with objects := objects })
  | .error e => .error e

/-- `except (ArtifactRecordNotFoundError, ArtifactReferencedError): return False`. -/
def Err.sparesArtifact : Err → Bool
  | artifactRecordNotFound _ | artifactReferenced _ => true
  | _ => false

/-- `begin_delete`, with the check of the backend that a request or a clean-up run makes in
    the same transaction. -/
def ArtifactStore.beginDelete (store : ArtifactStore) (now : Time) (projectId artifactId : Uuid)
    (site : ArtifactSite) : Except ArtifactFault (Artifact × ArtifactSite) := do
  let (artifact, after) ← site.transact (MiniAiCloud.beginDelete now projectId artifactId)
  if artifact.state ≠ .deleted ∧ artifact.backend ≠ store.backend then
    .error (.backendMismatch artifact.backend)
  else .ok (artifact, after)

def ArtifactStore.retire (store : ArtifactStore) (now : Time) (projectId artifactId : Uuid)
    (site : ArtifactSite) : Except ArtifactFault (Option Artifact × ArtifactSite) :=
  match MiniAiCloud.beginDelete now projectId artifactId site.db with
  | .ok artifact db =>
    if artifact.backend ≠ store.backend then
      .error (.storeError "artifact backend changed during retention cleanup")
    else .ok (some artifact, { site with db := db })
  | .error e _ => if e.sparesArtifact then .ok (none, site) else .error (.record e)

/-- What an operation does when nothing outside fails. -/
def ArtifactStore.perform (store : ArtifactStore) (site : ArtifactSite) :
    (op : ArtifactAwait) → Except ArtifactFault (op.Answer × ArtifactSite)
  | .read projectId artifactId => .ok (getArtifact site.db projectId artifactId false, site)
  | .create request => site.transact (createPending site.now request)
  | .put key chunks size sha256 => site.storing (store.put key chunks size sha256 site.objects)
  | .finalize staging final size sha256 =>
    site.storing (store.finalize staging final size sha256 site.objects)
  | .remove key => .ok ((), { site with objects := site.objects.erase key })
  | .markReady projectId artifactId key info =>
    site.transact (markReady site.now projectId artifactId key info)
  | .markFailed projectId artifactId reason =>
    site.transact (markFailed site.now projectId artifactId reason)
  | .beginDelete projectId artifactId => store.beginDelete site.now projectId artifactId site
  | .retire projectId artifactId => store.retire site.now projectId artifactId site
  | .markDeleted projectId artifactId =>
    site.transact (markDeleted site.now projectId artifactId)
  | .listOutputs owner => site.transact (listForExecution owner)
  | .createOutput owner request => site.transact do
      let _ ← listForExecution owner
      createPending site.now request
  | .commitOutput owner bindingId artifactId key info => site.transact do
      let _ ← listForExecution owner
      let artifact ← markReady site.now owner.projectId artifactId key info
      let _ ← bindOutput bindingId owner.taskId owner.projectId artifactId
      pure artifact

/-- An operation may also fail for a reason of its own, with any exception and without an
    effect. -/
def ArtifactStore.machine (store : ArtifactStore) :
    Machine artifactAwaits ArtifactSite ArtifactFault (Option ArtifactFault) where
  exec choice op site :=
    match choice with
    | some fault => (.error fault, site)
    | none =>
      match store.perform site op with
      | .ok (answer, after) => (.ok answer, after)
      | .error fault => (.error fault, site)

def await (op : ArtifactAwait) : ArtifactProg op.Answer := Prog.call (S := artifactAwaits) op

/-! ## The requests of the API -/

/-- The row of a new artifact: in this store, at the staging key of its id. -/
def ArtifactStore.staged (store : ArtifactStore) (request : PendingArtifact) : PendingArtifact :=
  { request with
    backend := store.backend
    objectKey := stagingKey request.projectId request.artifactId }

/-- `ArtifactService.create`. -/
def ArtifactStore.create (store : ArtifactStore) (request : PendingArtifact) :
    ArtifactProg Artifact := do
  let maximum := min store.artifactMaxBytes store.maxBytes
  .raiseIf (maximum < request.sizeBytes) (.tooLarge request.sizeBytes maximum)
  await (.create (store.staged request))

/-- `ArtifactService._required`. -/
def requiredArtifact (projectId artifactId : Uuid) : ArtifactProg Artifact := do
  let found : Option Artifact ← await (.read projectId artifactId)
  match found with
  | none => .raise (.record (.artifactRecordNotFound "artifact does not exist in project"))
  | some artifact => pure artifact

/-- `_require_pending`. -/
def requirePending (artifact : Artifact) : ArtifactProg Unit :=
  .raiseIf (artifact.state ≠ .pending) (.record (.artifactStateConflict
    ("artifact in state '" ++ artifact.state.value ++ "' does not accept uploads")))

/-- `_require_backend`. -/
def ArtifactStore.requireBackend (store : ArtifactStore) (artifact : Artifact) :
    ArtifactProg Unit :=
  .raiseIf (artifact.backend ≠ store.backend) (.backendMismatch artifact.backend)

/-- `_expected_metadata`. -/
def expectedMetadata (artifact : Artifact) : ArtifactProg (ℤ × String) :=
  match artifact.sizeBytes, artifact.sha256 with
  | some size, some sha256 => pure (size, sha256)
  | _, _ => .raise (.record (.artifactStateConflict
      "pending artifact is missing size or checksum metadata"))

/-- What an upload request brings. -/
structure ArtifactUpload where
  chunks : List Bytes
  contentLength : Option ℤ
  contentSha256 : Option String

/-- `ArtifactService.upload`. -/
def ArtifactStore.upload (store : ArtifactStore) (projectId artifactId : Uuid)
    (request : ArtifactUpload) : ArtifactProg Artifact := do
  let artifact ← requiredArtifact projectId artifactId
  requirePending artifact
  store.requireBackend artifact
  let (size, sha256) ← expectedMetadata artifact
  .raiseIf (request.contentLength.any (fun length => length ≠ size) = true)
    (.integrity ("Content-Length mismatch: expected " ++ toString size ++ ", got "
      ++ toString (request.contentLength.getD size)))
  .raiseIf (request.contentSha256.any (fun text => text.map Char.toLower ≠ sha256) = true)
    (.integrity "X-Content-SHA256 does not match artifact metadata")
  let _ ← Prog.catching ArtifactFault.rejectsUpload
    (fun fault => do
      let _ ← await (.markFailed projectId artifactId fault.message)
      .raise fault)
    (await (.put artifact.objectKey request.chunks size sha256))
  pure artifact

/-- `ArtifactService.finalize`, with the size and the checksum of its payload. -/
def ArtifactStore.finalizeRequest (store : ArtifactStore) (projectId artifactId : Uuid)
    (payload : ArtifactObjectInfo) : ArtifactProg Artifact := do
  let artifact ← requiredArtifact projectId artifactId
  store.requireBackend artifact
  let (size, sha256) ← expectedMetadata artifact
  .raiseIf (payload.sizeBytes ≠ size ∨ payload.sha256 ≠ sha256)
    (.integrity "finalize size and checksum must match the pending artifact metadata")
  let final := finalKey artifact.projectId artifactId
  if artifact.state = .ready then do
    .raiseIf (artifact.objectKey ≠ final) (.record (.artifactStateConflict
      "ready artifact points at an unexpected storage object"))
    pure artifact
  else do
    requirePending artifact
    let info : ArtifactObjectInfo ← Prog.catching ArtifactFault.rejectsObject
      (fun fault => do
        let _ ← await (.markFailed projectId artifactId fault.message)
        let _ ← await (.remove artifact.objectKey)
        .raise fault)
      (await (.finalize artifact.objectKey final size sha256))
    await (.markReady artifact.projectId artifactId final info)

/-- `store.delete` for one key after the other. -/
def removeAll : List ObjectKey → ArtifactProg Unit
  | [] => pure ()
  | key :: rest => do
      let _ ← await (.remove key)
      removeAll rest

/-- `ArtifactService.delete`. -/
def deleteRequest (projectId artifactId : Uuid) : ArtifactProg Artifact := do
  let artifact : Artifact ← await (.beginDelete projectId artifactId)
  if artifact.state = .deleted then pure artifact
  else do
    removeAll [stagingKey projectId artifactId, finalKey projectId artifactId]
    await (.markDeleted projectId artifactId)

/-- `RetentionCleanup._delete_retained_artifact`; `rank` is the order in which the set of
    keys is walked. -/
def deleteRetainedArtifact (rank : ObjectKey → ℕ) (projectId artifactId : Uuid) :
    ArtifactProg Bool := do
  let found : Option Artifact ← await (.retire projectId artifactId)
  match found with
  | none => pure false
  | some artifact => do
      removeAll (orderBy rank [artifact.objectKey, stagingKey projectId artifactId,
        finalKey projectId artifactId].dedup)
      let _ ← await (.markDeleted projectId artifactId)
      pure true

/-! ## Publishing the outputs of a task -/

/-- A declared output on the disk of the worker. -/
inductive OutputFile where
  | missing
  | irregular
  | regular (bytes : Bytes)

/-- What the worker wrote at the path of an output before the task ran. -/
structure OutputPlaceholder where
  size : ℤ
  sha256 : String

/-- An output of a prepared workspace: its declaration, its file, and the id that its
    artifact gets if it is published. -/
structure OutputMount where
  bindingId : Uuid
  placeholder : Option OutputPlaceholder
  file : OutputFile
  artifactId : Uuid

/-- `_is_regular_file`, `_inspect_output_file` and the test for the placeholder. -/
def ArtifactStore.inspectOutput (store : ArtifactStore) (name : String)
    (placeholder : OutputPlaceholder) : OutputFile → ArtifactProg (Bytes × ArtifactObjectInfo)
  | .missing => .raise (.outputNotProduced name)
  | .irregular => .raise (.workspace "declared artifact output is not a regular file")
  | .regular bytes => do
      .raiseIf (min store.artifactMaxBytes store.maxBytes < bytes.length)
        (.workspace "declared artifact output exceeds size limit")
      let info := store.info bytes
      .raiseIf (info.sizeBytes = placeholder.size ∧ info.sha256 = placeholder.sha256)
        (.outputNotProduced name)
      pure (bytes, info)

/-- The row that `_publish_file` creates. -/
def ArtifactStore.outputRequest (store : ArtifactStore) (owner : ExecutionOwner)
    (artifactId : Uuid) (name : String) (info : ArtifactObjectInfo) : PendingArtifact where
  artifactId := artifactId
  projectId := owner.projectId
  name := name
  backend := store.backend
  objectKey := stagingKey owner.projectId artifactId
  contentType := some "application/octet-stream"
  sizeBytes := info.sizeBytes
  sha256 := info.sha256
  createdByUserId := none

/-- `except Exception`: the object is removed and the row marked failed. -/
def compensate (owner : ExecutionOwner) (artifactId : Uuid) (key : ObjectKey) (what : String)
    {α : Type} (fault : ArtifactFault) : ArtifactProg α := do
  let _ ← await (.remove key)
  let _ ← await (.markFailed owner.projectId artifactId (what ++ fault.className))
  .raise fault

/-- The steps of `_publish_file` from the new row on. -/
def ArtifactStore.publish (store : ArtifactStore) (owner : ExecutionOwner)
    (bindingId artifactId : Uuid) (name : String) (bytes : Bytes) (info : ArtifactObjectInfo) :
    ArtifactProg Artifact := do
  let staging := stagingKey owner.projectId artifactId
  let final := finalKey owner.projectId artifactId
  let _ ← await (.createOutput owner (store.outputRequest owner artifactId name info))
  let stored : ArtifactObjectInfo ← Prog.catching (fun _ => true)
    (compensate owner artifactId staging "Worker output upload failed: ")
    (do
      let _ ← await (.put staging [bytes] info.sizeBytes info.sha256)
      await (.finalize staging final info.sizeBytes info.sha256))
  Prog.catching (fun _ => true)
    (compensate owner artifactId final "Worker output commit failed: ")
    (await (.commitOutput owner bindingId artifactId final stored))

/-- `_publish_file`. -/
def ArtifactStore.publishFile (store : ArtifactStore) (owner : ExecutionOwner)
    (bindingId : Uuid) (name : String) (placeholder : OutputPlaceholder) (file : OutputFile)
    (artifactId : Uuid) : ArtifactProg Artifact := do
  let (bytes, info) ← store.inspectOutput name placeholder file
  store.publish owner bindingId artifactId name bytes info

/-- The exceptions that an optional output is skipped for. -/
def ArtifactFault.sparesOptional : ArtifactFault → Bool
  | outputNotProduced _ | integrity _ | workspace _ | osError => true
  | _ => false

/-- One round of the loop of `publish_outputs`; `current` are the bindings it listed. -/
def ArtifactStore.publishOutput (store : ArtifactStore) (owner : ExecutionOwner)
    (current : List (Uuid × TaskArtifact)) (mount : OutputMount) :
    ArtifactProg (Option Artifact) :=
  match (current.lookup mount.bindingId).filter (fun binding => binding.direction = .output),
    mount.placeholder with
  | none, _ => .raise (.workspace "output artifact declaration became stale")
  | some _, none => .raise (.workspace "output artifact placeholder metadata is missing")
  | some binding, some placeholder =>
    Prog.catching (fun fault => fault.sparesOptional && !binding.required)
      (fun _ => pure none)
      (do
        let artifact ← store.publishFile owner mount.bindingId binding.name placeholder
          mount.file mount.artifactId
        pure (some artifact))

def ArtifactStore.publishEach (store : ArtifactStore) (owner : ExecutionOwner)
    (current : List (Uuid × TaskArtifact)) : List OutputMount → ArtifactProg (List Artifact)
  | [] => pure []
  | mount :: rest => do
      let artifact ← store.publishOutput owner current mount
      let others ← store.publishEach owner current rest
      pure (artifact.toList ++ others)

/-- `publish_outputs`. -/
def ArtifactStore.publishOutputs (store : ArtifactStore) (owner : ExecutionOwner)
    (outputs : List OutputMount) : ArtifactProg (List Artifact) :=
  if outputs = [] then pure []
  else do
    let current ← await (.listOutputs owner)
    store.publishEach owner current outputs

end MiniAiCloud
