import MiniAiCloud.Dag

/-! # Artifacts

    An artifact row is created `pending` with its declared size and checksum, becomes
    `ready` when the stored object has been verified, `failed` when it has not, and is
    deleted in two phases: `begin_delete` fences new references, `mark_deleted` records
    that the object is gone.  The bytes of pending and ready artifacts are counted in the
    quota state of the project. -/

namespace MiniAiCloud

open Transaction

def ArtifactState.value : ArtifactState → String
  | pending => "pending"
  | ready => "ready"
  | failed => "failed"
  | deleting => "deleting"
  | deleted => "deleted"

/-- What a store reports of an object. -/
structure ArtifactObjectInfo where
  sizeBytes : ℤ
  sha256 : String
  deriving DecidableEq

/-- `_SHA256_PATTERN`. -/
def isSha256 (text : String) : Bool :=
  text.length = 64 && text.toList.all (fun c => c.isDigit || ('a' ≤ c && c ≤ 'f'))

/-- `normalize_sha256`. -/
def normalizeSha256 (value : String) : Txn String := do
  let normalized := (pyStrip value).map Char.toLower
  raiseIf (isSha256 normalized = false)
    (.valueError "sha256 must contain exactly 64 hexadecimal characters")
  pure normalized

/-- The artifact table after a write. -/
def Db.withArtifacts (db : Db) (artifacts : Table Uuid Artifact) : Db :=
  { db with library := { db.library with artifacts := artifacts } }

/-- The flush of a changed artifact row. -/
def saveArtifact (artifactId : Uuid) (artifact : Artifact) : Txn Unit :=
  modify fun db => db.withArtifacts (db.library.artifacts.set artifactId artifact)

/-- The row after the artifact bytes of a project moved. -/
def ProjectQuotaState.withArtifactBytes (state : ProjectQuotaState) (now : Time)
    (bytes : ℤ) : ProjectQuotaState :=
  { state with
    artifactBytes := state.artifactBytes + bytes
    version := state.version + 1
    updatedAt := now }

/-- The quota states after the artifact bytes of a project moved. -/
def Db.withArtifactBytes (db : Db) (now : Time) (projectId : Uuid) (bytes : ℤ) : Db :=
  { db with
    quotaStates := db.quotaStates.modify projectId
      (fun state => state.withArtifactBytes now bytes) }

/-! ## Reading a row -/

/-- `ArtifactRepository.get`. -/
def getArtifact (db : Db) (projectId artifactId : Uuid) (includeDeleted : Bool) :
    Option Artifact :=
  (db.library.artifacts.get? artifactId).filter (fun artifact =>
    artifact.projectId = projectId
      ∧ (includeDeleted = true ∨ artifact.deletedAt = none))

/-- `ArtifactRepository._required_locked`. -/
def requiredLocked (projectId artifactId : Uuid) (includeDeleted : Bool) :
    Txn Artifact := do
  let db ← get
  expect (getArtifact db projectId artifactId includeDeleted)
    (.artifactRecordNotFound "artifact does not exist in project")

/-! ## Creating -/

/-- The arguments of `create_pending`. -/
structure PendingArtifact where
  artifactId : Uuid
  projectId : Uuid
  name : String
  backend : String
  objectKey : ObjectKey
  contentType : Option String
  sizeBytes : ℤ
  sha256 : String
  createdByUserId : Option Uuid

/-- The row of a pending artifact. -/
def PendingArtifact.row (request : PendingArtifact) (now : Time) (sha256 : String) :
    Artifact where
  projectId := request.projectId
  name := request.name
  backend := request.backend
  objectKey := request.objectKey
  contentType := request.contentType
  sizeBytes := some request.sizeBytes
  sha256 := some sha256
  createdByUserId := request.createdByUserId
  createdAt := now

/-- The artifact limit of a quota. -/
def checkArtifactLimit (limit : Option ℤ) (usedBytes requestedBytes : ℤ) : Txn Unit :=
  match limit with
  | none => pure ()
  | some bound => raiseIf (bound < usedBytes + requestedBytes)
      (.artifactQuotaExceeded bound usedBytes requestedBytes)

/-- The insert of an artifact row, with the constraints of its table. -/
def insertArtifact (artifactId : Uuid) (artifact : Artifact) : Txn Unit := do
  let db ← get
  raiseIf (db.library.artifacts.get? artifactId ≠ none) (.integrityError "pk_artifacts")
  raiseIf (∃ row ∈ db.library.artifacts.rows,
      row.2.projectId = artifact.projectId ∧ row.2.objectKey = artifact.objectKey)
    (.integrityError "uq_artifacts_project_object_key")
  modify fun db => db.withArtifacts (db.library.artifacts.insert artifactId artifact)

/-- `ArtifactRepository.create_pending`. -/
def createPending (now : Time) (request : PendingArtifact) : Txn Artifact := do
  raiseIf (request.sizeBytes < 0) (.valueError "size_bytes must not be negative")
  let sha256 ← normalizeSha256 request.sha256
  let db ← get
  raiseIf (db.projects.get? request.projectId ≠ some .active)
    (.artifactProjectUnavailable "active project does not exist")
  let missing := Err.artifactAccountingInvariant ("project " ++ toString request.projectId
    ++ " is missing artifact quota accounting rows")
  let quota ← expect (db.quotas.get? request.projectId) missing
  let state ← expect (db.quotaStates.get? request.projectId) missing
  checkArtifactLimit quota.maxArtifactBytes state.artifactBytes request.sizeBytes
  insertArtifact request.artifactId (request.row now sha256)
  modify fun db => db.withArtifactBytes now request.projectId request.sizeBytes
  pure (request.row now sha256)

/-! ## Settling -/

/-- `_require_expected_artifact`. -/
def requireExpectedArtifact (artifact : Artifact) (info : ArtifactObjectInfo) :
    Txn Unit := do
  raiseIf (artifact.sizeBytes ≠ some info.sizeBytes ∨ artifact.sha256 = none)
    (.artifactAccountingInvariant
      "verified artifact metadata does not match its pending reservation")
  raiseIf (artifact.sha256 ≠ some info.sha256)
    (.artifactAccountingInvariant
      "verified artifact checksum does not match its pending reservation")

/-- `_require_same_final_artifact`. -/
def requireSameFinalArtifact (artifact : Artifact) (finalObjectKey : ObjectKey)
    (info : ArtifactObjectInfo) : Txn Unit := do
  requireExpectedArtifact artifact info
  raiseIf (artifact.objectKey ≠ finalObjectKey)
    (.artifactAccountingInvariant "ready artifact points at an unexpected storage object")

/-- The row of a verified artifact. -/
def Artifact.readied (artifact : Artifact) (now : Time) (finalObjectKey : ObjectKey)
    (info : ArtifactObjectInfo) : Artifact :=
  { artifact with
    state := .ready
    objectKey := finalObjectKey
    sizeBytes := some info.sizeBytes
    sha256 := some info.sha256
    verifiedAt := some now
    failureReason := none }

/-- `mark_ready` on the row it locked. -/
def readyArtifact (now : Time) (artifactId : Uuid) (artifact : Artifact)
    (finalObjectKey : ObjectKey) (info : ArtifactObjectInfo) : Txn Artifact :=
  if artifact.state = .ready then do
    requireSameFinalArtifact artifact finalObjectKey info
    pure artifact
  else do
    raiseIf (artifact.state ≠ .pending) (.artifactStateConflict
      ("artifact in state '" ++ artifact.state.value ++ "' cannot be finalized"))
    requireExpectedArtifact artifact info
    saveArtifact artifactId (artifact.readied now finalObjectKey info)
    pure (artifact.readied now finalObjectKey info)

/-- `ArtifactRepository.mark_ready`. -/
def markReady (now : Time) (projectId artifactId : Uuid) (finalObjectKey : ObjectKey)
    (info : ArtifactObjectInfo) : Txn Artifact := do
  let artifact ← requiredLocked projectId artifactId false
  readyArtifact now artifactId artifact finalObjectKey info

/-- `_release_quota_bytes`. -/
def releaseQuotaBytes (now : Time) (artifact : Artifact) : Txn Unit := do
  let reservedBytes := artifact.sizeBytes.getD 0
  let db ← get
  raiseIf ((db.quotaStates.get? artifact.projectId).all
      (fun state => state.artifactBytes < reservedBytes) = true)
    (.artifactAccountingInvariant ("project " ++ toString artifact.projectId
      ++ " artifact usage is below the reserved object size"))
  modify fun db => db.withArtifactBytes now artifact.projectId (-reservedBytes)

/-- The states whose bytes are counted. -/
def ArtifactState.Counted (state : ArtifactState) : Prop := state = .pending ∨ state = .ready
  deriving Decidable

/-- The row of an artifact that could not be stored, with `reason[:4_096]`. -/
def Artifact.failedFor (artifact : Artifact) (reason : String) : Artifact :=
  { artifact with
    state := .failed
    failureReason := some (String.ofList (reason.toList.take 4096)) }

/-- `mark_failed` on the row it locked. -/
def failArtifact (now : Time) (artifactId : Uuid) (artifact : Artifact) (reason : String) :
    Txn Artifact :=
  if artifact.state = .failed then pure artifact
  else do
    raiseIf (artifact.state ≠ .pending) (.artifactStateConflict
      ("artifact in state '" ++ artifact.state.value ++ "' cannot be marked failed"))
    releaseQuotaBytes now artifact
    saveArtifact artifactId (artifact.failedFor reason)
    pure (artifact.failedFor reason)

/-- `ArtifactRepository.mark_failed`. -/
def markFailed (now : Time) (projectId artifactId : Uuid) (reason : String) :
    Txn Artifact := do
  let artifact ← requiredLocked projectId artifactId false
  failArtifact now artifactId artifact reason

/-! ## Deleting -/

/-- The row of an artifact whose object is gone. -/
def Artifact.deletedAs (artifact : Artifact) (now : Time) : Artifact :=
  { artifact with state := .deleted, deletedAt := some now }

/-- The release of the bytes of an artifact that counts. -/
def releaseCounted (now : Time) (artifact : Artifact) : Txn Unit :=
  if artifact.state.Counted then releaseQuotaBytes now artifact else pure ()

/-- `mark_deleted` on the row it locked. -/
def deleteArtifact (now : Time) (artifactId : Uuid) (artifact : Artifact) : Txn Artifact :=
  if artifact.state = .deleted then pure artifact
  else do
    releaseCounted now artifact
    saveArtifact artifactId (artifact.deletedAs now)
    pure (artifact.deletedAs now)

/-- `ArtifactRepository.mark_deleted`. -/
def markDeleted (now : Time) (projectId artifactId : Uuid) : Txn Artifact := do
  let artifact ← requiredLocked projectId artifactId true
  deleteArtifact now artifactId artifact

/-- A task binding or a dataset version names the artifact. -/
def Referenced (db : Db) (artifactId : Uuid) : Prop :=
  (∃ row ∈ db.library.taskArtifacts.rows, row.2.artifactId = some artifactId)
    ∨ ∃ row ∈ db.library.datasetVersions.rows, row.2.artifactId = artifactId
  deriving Decidable

/-- `begin_delete` on the row it locked, once it knows whether it is referenced. -/
def fenceArtifact (now : Time) (artifactId : Uuid) (artifact : Artifact)
    (referenced : Prop) [Decidable referenced] : Txn Artifact :=
  if artifact.state = .deleting ∨ artifact.state = .deleted then pure artifact
  else do
    raiseIf referenced
      (.artifactReferenced "artifact is referenced by a task or dataset")
    releaseCounted now artifact
    saveArtifact artifactId { artifact with state := .deleting }
    pure { artifact with state := .deleting }

/-- `ArtifactRepository.begin_delete`. -/
def beginDelete (now : Time) (projectId artifactId : Uuid) : Txn Artifact := do
  let db ← get
  raiseIf (db.projects.get? projectId = none)
    (.artifactRecordNotFound "artifact project does not exist")
  raiseIf (db.quotaStates.get? projectId = none)
    (.artifactAccountingInvariant ("project " ++ toString projectId
      ++ " is missing artifact quota accounting rows"))
  let artifact ← requiredLocked projectId artifactId true
  fenceArtifact now artifactId artifact (Referenced db artifactId)

end MiniAiCloud
