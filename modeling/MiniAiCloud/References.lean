import Mathlib.Data.Prod.Lex
import Mathlib.Data.String.Basic
import MiniAiCloud.Artifacts
import MiniAiCloud.OrderedQuery

/-! # What refers to artifacts

    A task binds input artifacts when it is created and output artifacts when they are
    published; a dataset has one artifact for each of its versions.  Every writer of a
    reference locks the row of the artifact, requires it to be ready, and adds the
    reference in the same transaction.  Each writer is given in two parts, what it reads
    under its locks and what it then writes. -/

namespace MiniAiCloud

open Transaction OrderedQuery

/-! ## Texts -/

/-- `uuid.hex`: the 32 hexadecimal digits. -/
def uuidHex (u : Uuid) : List Char :=
  List.replicate (32 - (Nat.toDigits 16 u).length) '0' ++ Nat.toDigits 16 u

/-- The index in at least three digits. -/
def paddedIndex (index : ℕ) : List Char :=
  List.replicate (3 - (Nat.toDigits 10 index).length) '0' ++ Nat.toDigits 10 index

/-- The characters `[A-Za-z0-9_.-]`. -/
def isNameChar (c : Char) : Bool := isAsciiAlnum c || c = '_' || c = '.' || c = '-'

/-- `_SAFE_NAME`: `[A-Za-z0-9][A-Za-z0-9_.-]{0,254}`. -/
def isSafeName (text : List Char) : Bool :=
  match text with
  | [] => false
  | first :: rest => isAsciiAlnum first && rest.length ≤ 254 && rest.all isNameChar

/-- `validate_artifact_name`. -/
def validateArtifactName (value : String) : Txn String := do
  raiseIf (isSafeName (pyStrip value).toList = false) (.valueError
    ("artifact name must start with an alphanumeric character and contain only "
      ++ "letters, digits, dot, underscore or dash"))
  pure (pyStrip value)

/-- One component of a path in the loop of `posixpath.normpath`; `done` is reversed. -/
def normalizeComponent (absolute : Bool) (done : List (List Char)) (comp : List Char) :
    List (List Char) :=
  if comp = [] ∨ comp = ['.'] then done
  else if comp ≠ ['.', '.'] ∨ (absolute = false ∧ done = []) ∨ done.head? = some ['.', '.']
    then comp :: done
  else done.tail

/-- `posixpath.normpath`. -/
def normpath (path : List Char) : List Char :=
  let slashes := match path with
    | '/' :: '/' :: '/' :: _ => 1
    | '/' :: '/' :: _ => 2
    | '/' :: _ => 1
    | _ => 0
  let comps := ((path.splitOn '/').foldl (normalizeComponent (slashes ≠ 0)) []).reverse
  let text := List.replicate slashes '/' ++ ['/'].intercalate comps
  if text = [] then ['.'] else text

/-- `_ALLOWED_OUTPUT_ROOTS`. -/
def allowedOutputRoots : List (List Char) := ["/output/".toList, "/workspace/outputs/".toList]

/-- `validate_output_path`. -/
def validateOutputPath (value : String) : Txn String := do
  let path := value.toList
  raiseIf (path = [] ∨ 1024 < path.length ∨ Char.ofNat 0 ∈ path ∨ '\\' ∈ path)
    (.valueError "artifact output path is invalid")
  -- an absolute path has a slash, so what follows the last one is its basename
  raiseIf (normpath path ≠ path ∨ (∀ root ∈ allowedOutputRoots, ¬ root <+: path)
      ∨ path.getLast? = some '/'
      ∨ (path.reverse.takeWhile (· ≠ '/')).reverse ∈ [[], ['.'], ['.', '.']])
    (.valueError
      "artifact output path must be a normalized file below /output or /workspace/outputs")
  pure value

/-- `_safe_input_filename`. -/
def safeInputFilename (value : String) : List Char :=
  let sanitized := ((pyStrip value).toList.map (fun c => if isNameChar c then c else '_')).take 128
  if sanitized.head?.any isAsciiAlnum then sanitized
  else "artifact-".toList ++ sanitized.dropWhile (fun c => c = '.' || c = '_' || c = '-')

/-! ## Task bindings -/

def ArtifactDirection.value : ArtifactDirection → String
  | input => "input"
  | output => "output"

structure OutputArtifactSpec where
  name : String
  path : String
  required : Bool := true

/-- `SELECT ... WHERE id IN (...) AND project_id = ... ORDER BY id FOR UPDATE`. -/
def projectArtifacts (db : Db) (projectId : Uuid) (ids : List Uuid) : List (Uuid × Artifact) :=
  orderBy Prod.fst (db.library.artifacts.select (fun x artifact =>
    x ∈ ids ∧ artifact.projectId = projectId))

/-- What `create_bindings` reads: the input artifacts, all ready. -/
def lockInputs (task : Task) (projectId : Uuid) (inputIds : List Uuid)
    (outputs : List OutputArtifactSpec) : Txn (List (Uuid × Artifact)) := do
  raiseIf (task.projectId ≠ projectId)
    (.taskArtifactNotFound "task does not belong to artifact project")
  raiseIf (100 < inputIds.length ∨ 100 < outputs.length)
    (.valueError "a task may declare at most 100 input and 100 output artifacts")
  raiseIf (¬ inputIds.Nodup) (.valueError "task input artifacts must be unique")
  let db ← get
  let artifacts := projectArtifacts db projectId inputIds
  raiseIf (∃ x ∈ inputIds, x ∉ artifacts.map Prod.fst)
    (.taskArtifactNotFound "input artifact does not exist in the project")
  raiseIf (∃ row ∈ artifacts, row.2.state ≠ .ready ∨ row.2.deletedAt ≠ none)
    (.taskArtifactConflict "input artifacts must be ready")
  pure artifacts

def validateOutput (output : OutputArtifactSpec) : Txn OutputArtifactSpec := do
  let name ← validateArtifactName output.name
  let path ← validateOutputPath output.path
  pure ⟨name, path, output.required⟩

/-- `[OutputArtifactSpec(...) for item in outputs]`. -/
def validateOutputs : List OutputArtifactSpec → Txn (List OutputArtifactSpec)
  | [] => pure []
  | output :: rest => do
      let spec ← validateOutput output
      let specs ← validateOutputs rest
      pure (spec :: specs)

/-- The binding of the input at an index. -/
def inputBinding (now : Time) (taskId : Uuid) (artifactId : Uuid) (artifact : Artifact)
    (index : ℕ) : TaskArtifact where
  taskId := taskId
  artifactId := some artifactId
  direction := .input
  name := "input-" ++ String.ofList (paddedIndex index) ++ "-" ++ String.ofList (uuidHex artifactId)
  mountPath := "/workspace/inputs/" ++ String.ofList (paddedIndex index) ++ "-"
    ++ String.ofList ((uuidHex artifactId).take 12) ++ "-"
    ++ String.ofList (safeInputFilename artifact.name)
  required := true
  createdAt := now

/-- The declaration of an output. -/
def outputBinding (now : Time) (taskId : Uuid) (output : OutputArtifactSpec) : TaskArtifact where
  taskId := taskId
  artifactId := none
  direction := .output
  name := output.name
  mountPath := output.path
  required := output.required
  createdAt := now

def Db.withTaskArtifacts (db : Db) (bindings : Table Uuid TaskArtifact) : Db :=
  { db with library := { db.library with taskArtifacts := bindings } }

/-- The insert of a binding, with the constraints of its table. -/
def insertBinding (bindingId : Uuid) (binding : TaskArtifact) : Txn Unit := do
  let db ← get
  raiseIf (db.library.taskArtifacts.get? bindingId ≠ none) (.integrityError "pk_task_artifacts")
  raiseIf (∃ row ∈ db.library.taskArtifacts.rows, row.2.taskId = binding.taskId
      ∧ row.2.direction = binding.direction ∧ row.2.name = binding.name)
    (.integrityError "uq_task_artifacts_task_direction_name")
  raiseIf (∃ row ∈ db.library.taskArtifacts.rows, row.2.taskId = binding.taskId
      ∧ row.2.direction = binding.direction ∧ row.2.mountPath = binding.mountPath)
    (.integrityError "uq_task_artifacts_task_direction_path")
  modify fun db => db.withTaskArtifacts (db.library.taskArtifacts.insert bindingId binding)

def insertBindings : List (Uuid × TaskArtifact) → Txn Unit
  | [] => pure ()
  | (bindingId, binding) :: rest => do
      insertBinding bindingId binding
      insertBindings rest

/-- What `create_bindings` writes; `mint` gives the ids of the bindings. -/
def writeBindings (now : Time) (taskId : Uuid) (inputIds : List Uuid)
    (artifacts : List (Uuid × Artifact)) (outputs : List OutputArtifactSpec)
    (mint : ℕ → Uuid) : Txn (List TaskArtifact) := do
  let specs ← validateOutputs outputs
  raiseIf (¬ (specs.map OutputArtifactSpec.name).Nodup)
    (.valueError "task output artifact names must be unique")
  raiseIf (¬ (specs.map OutputArtifactSpec.path).Nodup)
    (.valueError "task output artifact paths must be unique")
  let inputs := inputIds.zipIdx.filterMap (fun entry =>
    (artifacts.lookup entry.1).map (fun artifact =>
      inputBinding now taskId entry.1 artifact entry.2))
  let bindings := inputs ++ specs.map (outputBinding now taskId)
  insertBindings (bindings.zipIdx.map (fun entry => (mint entry.2, entry.1)))
  pure bindings

/-- `TaskArtifactRepository.create_bindings`. -/
def createBindings (now : Time) (taskId : Uuid) (task : Task) (projectId : Uuid)
    (inputIds : List Uuid) (outputs : List OutputArtifactSpec) (mint : ℕ → Uuid) :
    Txn (List TaskArtifact) := do
  let artifacts ← lockInputs task projectId inputIds outputs
  writeBindings now taskId inputIds artifacts outputs mint

/-- What `bind_output` reads: the declaration, and the ready artifact where it is still
    unbound. -/
def lockOutput (bindingId taskId projectId artifactId : Uuid) :
    Txn (TaskArtifact × Option Artifact) := do
  let db ← get
  raiseIf ((db.tasks.get? taskId).all (fun task => task.projectId ≠ projectId) = true)
    (.taskArtifactNotFound "task does not exist in the project")
  let binding ← expect ((db.library.taskArtifacts.get? bindingId).filter (fun binding =>
      binding.taskId = taskId ∧ binding.direction = .output))
    (.taskArtifactNotFound "output declaration does not exist")
  match binding.artifactId with
  | some bound => do
      raiseIf (bound ≠ artifactId) (.taskArtifactConflict "output declaration is already bound")
      pure (binding, none)
  | none => do
      let artifact ← expect ((db.library.artifacts.get? artifactId).filter (fun artifact =>
          artifact.projectId = projectId ∧ artifact.state = .ready ∧ artifact.deletedAt = none))
        (.taskArtifactConflict "output artifact must be ready in the task project")
      pure (binding, some artifact)

/-- What `bind_output` writes. -/
def writeOutput (bindingId : Uuid) (binding : TaskArtifact) (artifactId : Uuid) :
    Txn TaskArtifact := do
  modify fun db => db.withTaskArtifacts (db.library.taskArtifacts.set bindingId
    { binding with artifactId := some artifactId })
  pure { binding with artifactId := some artifactId }

/-- `TaskArtifactRepository.bind_output`. -/
def bindOutput (bindingId taskId projectId artifactId : Uuid) : Txn TaskArtifact := do
  let (binding, found) ← lockOutput bindingId taskId projectId artifactId
  match found with
  | none => pure binding
  | some _ => writeOutput bindingId binding artifactId

/-- The execution a worker acts for. -/
structure ExecutionOwner where
  taskId : Uuid
  projectId : Uuid
  workerId : WorkerId
  executionId : Uuid
  workerSessionId : Option Uuid

/-- The task still runs this execution on this worker. -/
def ExecutionOwner.RunsTask (owner : ExecutionOwner) (task : Task) : Prop :=
  task.projectId = owner.projectId ∧ task.workerId = some owner.workerId
    ∧ task.executionId = some owner.executionId ∧ task.status ∈ activeTaskStatuses
  deriving Decidable

/-- The worker still has the session, and the session the reservation. -/
def ExecutionOwner.HoldsSession (owner : ExecutionOwner) (db : Db) (session : Uuid) : Prop :=
  (∃ worker ∈ db.workers.get? owner.workerId, worker.workerSessionId = session)
    ∧ ∃ reservation ∈ db.reservations.get? owner.executionId,
        reservation.workerId = owner.workerId ∧ reservation.workerSessionId = session
          ∧ reservation.releasedAt = none
  deriving Decidable

/-- `TaskArtifactRepository.list_for_execution`. -/
def listForExecution (owner : ExecutionOwner) : Txn (List (Uuid × TaskArtifact)) := do
  let db ← get
  raiseIf (¬ ((∃ task ∈ db.tasks.get? owner.taskId, owner.RunsTask task)
      ∧ ∀ session ∈ owner.workerSessionId, owner.HoldsSession db session))
    (.taskArtifactConflict "task artifact execution ownership is stale")
  pure (orderBy (fun row => toLex (row.2.direction.value, toLex (row.2.createdAt, row.1)))
    (db.library.taskArtifacts.select (fun _ binding => binding.taskId = owner.taskId)))

/-! ## Datasets -/

/-- `_lock_active_project`. -/
def lockDatasetProject (projectId : Uuid) : Txn Unit := do
  let db ← get
  raiseIf (db.projects.get? projectId ≠ some .active)
    (.datasetNotFound "active project does not exist")

/-- `_lock_ready_artifact`. -/
def lockReadyArtifact (projectId artifactId : Uuid) : Txn Artifact := do
  let db ← get
  let artifact ← expect (getArtifact db projectId artifactId true)
    (.datasetNotFound "artifact does not exist in the project")
  raiseIf (artifact.state ≠ .ready ∨ artifact.deletedAt ≠ none)
    (.datasetConflict "dataset versions require a ready artifact")
  pure artifact

/-- The arguments of `DatasetRepository.create`. -/
structure NewDataset where
  datasetId : Uuid
  projectId : Uuid
  name : String
  description : Option String
  artifactId : Uuid
  metadata : List (String × String)

/-- What `DatasetRepository.create` reads. -/
def lockNewDataset (request : NewDataset) : Txn Artifact := do
  lockDatasetProject request.projectId
  let db ← get
  raiseIf (∃ row ∈ db.library.datasets.rows, row.2.projectId = request.projectId
      ∧ row.2.name.map Char.toLower = (pyStrip request.name).map Char.toLower)
    (.datasetConflict "dataset name already exists in the project")
  lockReadyArtifact request.projectId request.artifactId

/-- The insert of a version, with its primary key. -/
def insertVersion (datasetId : Uuid) (version : ℤ) (row : DatasetVersion) : Txn Unit := do
  let db ← get
  raiseIf (db.library.datasetVersions.get? (datasetId, version) ≠ none)
    (.integrityError "pk_dataset_versions")
  modify fun db => { db with library := { db.library with
    datasetVersions := db.library.datasetVersions.insert (datasetId, version) row } }

/-- What `DatasetRepository.create` writes. -/
def writeDataset (now : Time) (request : NewDataset) : Txn DatasetVersion := do
  let db ← get
  raiseIf (db.library.datasets.get? request.datasetId ≠ none) (.integrityError "pk_datasets")
  raiseIf (∃ row ∈ db.library.datasets.rows, row.2.projectId = request.projectId
      ∧ row.2.name = pyStrip request.name) (.integrityError "uq_datasets_project_name")
  modify fun db => { db with library := { db.library with
    datasets := db.library.datasets.insert request.datasetId {
      projectId := request.projectId
      name := pyStrip request.name
      description := request.description
      currentVersion := 1
      createdAt := now } } }
  let version : DatasetVersion := ⟨request.artifactId, request.metadata, now⟩
  insertVersion request.datasetId 1 version
  pure version

/-- `DatasetRepository.create`. -/
def createDataset (now : Time) (request : NewDataset) : Txn DatasetVersion := do
  let _ ← lockNewDataset request
  writeDataset now request

/-- The arguments of `DatasetRepository.add_version`. -/
structure NewVersion where
  projectId : Uuid
  datasetId : Uuid
  artifactId : Uuid
  metadata : List (String × String)

/-- What `DatasetRepository.add_version` reads. -/
def lockNewVersion (request : NewVersion) : Txn Dataset := do
  lockDatasetProject request.projectId
  let db ← get
  let dataset ← expect ((db.library.datasets.get? request.datasetId).filter (fun dataset =>
      dataset.projectId = request.projectId))
    (.datasetNotFound "dataset does not exist in the project")
  let _ ← lockReadyArtifact request.projectId request.artifactId
  pure dataset

/-- What `DatasetRepository.add_version` writes. -/
def writeVersion (now : Time) (request : NewVersion) (dataset : Dataset) :
    Txn DatasetVersion := do
  let version : DatasetVersion := ⟨request.artifactId, request.metadata, now⟩
  insertVersion request.datasetId (dataset.currentVersion + 1) version
  modify fun db => { db with library := { db.library with
    datasets := db.library.datasets.set request.datasetId
      { dataset with currentVersion := dataset.currentVersion + 1 } } }
  pure version

/-- `DatasetRepository.add_version`. -/
def addVersion (now : Time) (request : NewVersion) : Txn DatasetVersion := do
  let dataset ← lockNewVersion request
  writeVersion now request dataset

end MiniAiCloud
