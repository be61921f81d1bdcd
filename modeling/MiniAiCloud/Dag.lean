import MiniAiCloud.Tasks
import MiniAiCloud.Digraph

/-! # The DAG repository

    A job group is a set of dependency edges between tasks of one project that
    already exist.  Edges are added under a lock of the project and the group;
    the cycle check looks at the edges of the group alone. -/

namespace MiniAiCloud

open Transaction

/-- `DependencySpec`. -/
structure DependencySpec where
  taskId : Uuid
  dependsOnTaskId : Uuid
  failurePolicy : DependencyFailurePolicy := .cancel

def DependencySpec.key (d : DependencySpec) : Uuid × Uuid :=
  (d.taskId, d.dependsOnTaskId)

/-- `_lock_active_project`. -/
def lockActiveProject (projectId : Uuid) : Txn Unit := do
  let db ← get
  raiseIf (db.projects.get? projectId ≠ some .active)
    (.dagNotFound "active project does not exist")

/-- `str.isspace` for one character. -/
def isPySpace (c : Char) : Bool :=
  let n := c.toNat
  9 ≤ n && n ≤ 13 || 28 ≤ n && n ≤ 32 || n = 133 || n = 160 || n = 5760
    || 8192 ≤ n && n ≤ 8202 || n = 8232 || n = 8233 || n = 8239 || n = 8287
    || n = 12288

/-- `str.strip`. -/
def pyStrip (text : String) : String :=
  String.ofList
    (((text.toList.dropWhile isPySpace).reverse.dropWhile isPySpace).reverse)

def isAsciiAlnum (c : Char) : Bool :=
  'a' ≤ c && c ≤ 'z' || 'A' ≤ c && c ≤ 'Z' || '0' ≤ c && c ≤ '9'

/-- `_GROUP_NAME`: `[A-Za-z0-9][A-Za-z0-9_. -]{0,254}`. -/
def isGroupName (text : String) : Bool :=
  match text.toList with
  | [] => false
  | first :: rest => isAsciiAlnum first && rest.length ≤ 254
      && rest.all (fun c => isAsciiAlnum c || c = '_' || c = '.' || c = ' ' || c = '-')

/-- `_validate_retry_policy` on the encoded JSON text. -/
def validateRetryPolicy (encoded : String) : Txn Unit :=
  raiseIf (16384 < encoded.utf8ByteSize)
    (.valueError "retry_policy must be at most 16384 encoded bytes")

/-- `_contains_cycle`. -/
def containsCycle (edges : List (Uuid × Uuid)) : Bool := Digraph.hasCycle edges

/-- The edges of a group. -/
def groupEdges (db : Db) (groupId : Uuid) : List (Uuid × Uuid) :=
  (db.taskDependencies.select
    (fun _ edge => edge.jobGroupId = some groupId)).map Prod.fst

/-- The edges that touch one of the tasks. -/
def membershipEdges (db : Db) (taskIds : List Uuid) :
    List ((Uuid × Uuid) × TaskDependency) :=
  db.taskDependencies.select (fun key _ => key.1 ∈ taskIds ∨ key.2 ∈ taskIds)

/-- The statuses of a task to which an edge may still be attached. -/
def unstartedStatuses : List TaskStatus := [.pending, .queued, .retrying]

/-- One iteration of the loop of `_add_dependencies_locked`, where `combined`
    are the edges of the group so far.  Returns them with the new edge. -/
def addDependencyLocked (groupId : Uuid) (combined : List (Uuid × Uuid))
    (d : DependencySpec) : Txn (List (Uuid × Uuid)) := do
  let db ← get
  match (db.taskDependencies.get? d.key).filter
      (fun edge => edge.jobGroupId = some groupId) with
  | some existing => do
      raiseIf (existing.failurePolicy ≠ d.failurePolicy)
        (.dagConflict "dependency already exists with another failure policy")
      pure combined
  | none => do
      let candidate := d.key :: combined
      raiseIf (containsCycle candidate = true)
        (.dagCycle "dependency would create a cycle")
      raiseIf (¬ ∃ task ∈ db.tasks.get? d.taskId, task.status ∈ unstartedStatuses)
        (.dagConflict
          "dependencies may only be attached before the dependant task starts")
      raiseIf (db.taskDependencies.get? d.key ≠ none)
        (.integrityError "pk_task_dependencies")
      modify fun db => { db with
        taskDependencies := db.taskDependencies.insert d.key
          { jobGroupId := some groupId, failurePolicy := d.failurePolicy } }
      pure candidate

/-- The loop of `_add_dependencies_locked`. -/
def addEachDependency (groupId : Uuid) :
    List (Uuid × Uuid) → List DependencySpec → Txn Unit
  | _, [] => pure ()
  | combined, d :: rest => do
      let combined ← addDependencyLocked groupId combined d
      addEachDependency groupId combined rest

/-- The tasks a request names, each once. -/
def requestedTaskIds (dependencies : List DependencySpec) : List Uuid :=
  (dependencies.flatMap (fun d => [d.taskId, d.dependsOnTaskId])).dedup

/-- `_add_dependencies_locked`. -/
def addDependenciesLocked (groupId projectId : Uuid)
    (dependencies : List DependencySpec) : Txn Unit := do
  let db ← get
  raiseIf (1000 < dependencies.length)
    (.valueError "at most 1000 dependencies may be added at once")
  raiseIf (∃ d ∈ dependencies, d.taskId = d.dependsOnTaskId)
    (.dagCycle "a task cannot depend on itself")
  let taskIds := requestedTaskIds dependencies
  let tasks := db.tasks.select
    (fun id task => task.projectId = projectId ∧ id ∈ taskIds)
  raiseIf (tasks.length ≠ taskIds.length)
    (.dagNotFound "all dependency tasks must exist in the job group's project")
  raiseIf (∃ edge ∈ membershipEdges db taskIds, edge.2.jobGroupId ≠ some groupId)
    (.dagConflict "a task cannot belong to multiple job groups")
  addEachDependency groupId (groupEdges db groupId) dependencies

/-- `DAGRepository.create_group`; `groupId` is the minted primary key. -/
def createGroup (now : Time) (groupId projectId : Uuid) (name : String)
    (retryPolicy : String) (dependencies : List DependencySpec) : Txn Unit := do
  lockActiveProject projectId
  let normalizedName := pyStrip name
  raiseIf (isGroupName normalizedName = false)
    (.valueError "job group name contains unsupported characters")
  validateRetryPolicy retryPolicy
  let db ← get
  raiseIf (db.jobGroups.get? groupId ≠ none) (.integrityError "pk_job_groups")
  modify fun db => { db with
    jobGroups := db.jobGroups.insert groupId
      { projectId := projectId, name := normalizedName, createdAt := now } }
  if dependencies ≠ [] then addDependenciesLocked groupId projectId dependencies
  else pure ()

/-- `DAGRepository.add_dependency`. -/
def addDependency (projectId groupId : Uuid) (d : DependencySpec) : Txn Unit := do
  lockActiveProject projectId
  let db ← get
  let group ← expect ((db.jobGroups.get? groupId).filter
      (fun group => group.projectId = projectId))
    (.dagNotFound "job group does not exist in the project")
  addDependenciesLocked groupId group.projectId [d]

/-! ## The view of a group -/

/-- `DependencyState`. -/
inductive DependencyState where
  | ready | waiting | blocked | cancelled
  deriving DecidableEq

/-- `DependencyResolution`. -/
structure DependencyResolution where
  taskId : Uuid
  taskStatus : TaskStatus
  state : DependencyState
  dependencyIds : List Uuid
  waitingOnTaskIds : List Uuid
  failedDependencyIds : List Uuid

/-- `_resolve_task`; `none` where a status is missing and it raises
    `DAGInvariantViolation`. -/
def Dag.resolveTask (taskId : Uuid) (statuses : Uuid → Option TaskStatus)
    (edges : List ((Uuid × Uuid) × TaskDependency)) : Option DependencyResolution := do
  let incoming := edges.filter (fun edge => edge.1.1 = taskId)
  let found ← incoming.mapM
    (fun edge => (statuses edge.1.2).map (fun status => (edge, status)))
  let failed := found.filter (fun row => Unsuccessful row.2)
  let waiting := found.filter (fun row => row.2 ∉ finalTaskStatuses)
  let taskStatus ← statuses taskId
  let sorted := fun rows : List (((Uuid × Uuid) × TaskDependency) × TaskStatus) =>
    (rows.map (fun row => row.1.1.2)).insertionSort (· ≤ ·)
  pure {
    taskId := taskId
    taskStatus := taskStatus
    state :=
      if ∃ row ∈ failed, row.1.2.failurePolicy = .cancel then .cancelled
      else if failed ≠ [] then .blocked
      else if waiting ≠ [] then .waiting
      else .ready
    dependencyIds := sorted found
    waitingOnTaskIds := sorted waiting
    failedDependencyIds := sorted failed }

/-- `_resolve_task` on the edges of a group and the statuses of the tasks. -/
def groupTaskView (db : Db) (groupId taskId : Uuid) : Option DependencyResolution :=
  Dag.resolveTask taskId (fun id => (db.tasks.get? id).map (fun task => task.status))
    (db.taskDependencies.select (fun _ edge => edge.jobGroupId = some groupId))

end MiniAiCloud
