import Mathlib.Data.Prod.Lex
import MiniAiCloud.OrderedQuery
import MiniAiCloud.Tasks

/-! # The candidates of the scheduler

    `choose_candidates` reads three bounded lanes of the queue, by effective
    priority, by raw priority and the head of each project by fair share, and sorts
    what it found once more in memory.  The lanes are SQL and compute priority and
    share with expressions of their own; the last sort uses the functions of the
    policy. -/

namespace MiniAiCloud

open OrderedQuery

/-! ## The queue -/

/-- `_candidate_conditions`. -/
def CandidateConditions (db : Db) (excluded : List Uuid) (taskId : Uuid) (task : Task) :
    Prop :=
  task.status = .queued ∧ task.cancelRequested = false
    ∧ ¬ UnsatisfiedDependencies db taskId ∧ taskId ∉ excluded
  deriving Decidable

/-- The rows every lane selects from. -/
def eligible (db : Db) (excluded : List Uuid) : List (Uuid × Task) :=
  db.tasks.select (fun taskId task => CandidateConditions db excluded taskId task)

/-! ## Priority -/

/-- `_effective_priority_expression`. -/
def effectivePriorityExpression (now : Time) (agingIntervalSeconds : ℤ) (task : Task) : ℤ :=
  let nonnegativeElapsed : ℚ := match task.queuedAt with
    | none => 0
    | some queuedAt => if 0 < now - queuedAt then now - queuedAt else 0
  let uncappedPriority := task.priority + ⌊nonnegativeElapsed / agingIntervalSeconds⌋
  if 100 ≤ uncappedPriority then 100 else uncappedPriority

/-- `effective_priority`; the cap does not apply to a task without a queue time. -/
def effectivePriority (now : Time) (agingIntervalSeconds : ℤ) (task : Task) : ℤ :=
  match task.queuedAt with
  | none => task.priority
  | some queuedAt =>
    min 100 (task.priority + ⌊max 0 (now - queuedAt) / agingIntervalSeconds⌋)

/-! ## Fair share -/

/-- What the workers offer together. -/
structure ClusterSize where
  cpuMillicores : ℤ
  memoryMb : ℤ
  gpus : ℤ

/-- The totals over the workers that are online. -/
def clusterSize (db : Db) : ClusterSize where
  cpuMillicores := db.workers.sum (fun _ worker =>
    if worker.status = .online then worker.cpuAllocatableMillicores else 0)
  memoryMb := db.workers.sum (fun _ worker =>
    if worker.status = .online then worker.memoryAllocatableMb else 0)
  gpus := db.workers.sum (fun _ worker =>
    if worker.status = .online then worker.gpuCount else 0)

/-- The dominant share in `project_fair_candidate_query`; a project without a quota
    row has nothing reserved. -/
def dominantShareExpression (size : ClusterSize) (state : Option ProjectQuotaState) : ℚ :=
  let reservedGpus := (state.map (fun s => s.reservedGpus)).getD 0
  let cpuShare : ℚ := (state.map (fun s => s.reservedCpuMillicores)).getD 0
    / (max 1 size.cpuMillicores : ℤ)
  let memoryShare : ℚ := (state.map (fun s => s.reservedMemoryMb)).getD 0
    / (max 1 size.memoryMb : ℤ)
  let gpuShare : ℚ := if size.gpus ≠ 0 then reservedGpus / size.gpus
    else if 0 < reservedGpus then 1 else 0
  let cpuOrMemoryShare := if memoryShare ≤ cpuShare then cpuShare else memoryShare
  if gpuShare ≤ cpuOrMemoryShare then cpuOrMemoryShare else gpuShare

/-- `dominant_share`. -/
def dominantShare (cpuMillicores memoryMb gpus : ℤ) (size : ClusterSize) : ℚ :=
  max (max ((cpuMillicores : ℚ) / (max 1 size.cpuMillicores : ℤ))
      ((memoryMb : ℚ) / (max 1 size.memoryMb : ℤ)))
    (if size.gpus ≠ 0 then (gpus : ℚ) / (max 1 size.gpus : ℤ)
      else if gpus ≠ 0 then 1 else 0)

/-- The share `choose_candidates` computes for a project. -/
def projectDominantShare (size : ClusterSize) (state : Option ProjectQuotaState) : ℚ :=
  match state with
  | none => 0
  | some state =>
    dominantShare state.reservedCpuMillicores state.reservedMemoryMb state.reservedGpus size

/-! ## Keys -/

/-- `ORDER BY unschedulable_reason IS NOT NULL, priority DESC`. -/
abbrev Urgency := Bool ×ₗ ℤ

/-- `ORDER BY queue_order, queued_at, id`; a null time is last. -/
abbrev Arrival := ℤ ×ₗ WithTop ℚ ×ₗ Uuid

def urgency (priority : ℤ) (task : Task) : Urgency :=
  toLex (task.unschedulableReason.isSome, -priority)

def arrival (row : Uuid × Task) : Arrival :=
  toLex (row.2.queueOrder, toLex (match row.2.queuedAt with
    | none => ⊤
    | some queuedAt => (queuedAt : WithTop ℚ), row.1))

section Lanes

variable (db : Db) (now : Time) (agingIntervalSeconds : ℤ)

/-- The order of `candidate_query`, and of each project in the fair lane. -/
def laneKey (row : Uuid × Task) : Urgency ×ₗ Arrival :=
  toLex (urgency (effectivePriorityExpression now agingIntervalSeconds row.2) row.2,
    arrival row)

/-- The order of `priority_candidate_query`. -/
def priorityKey (row : Uuid × Task) : Urgency ×ₗ Arrival :=
  toLex (urgency row.2.priority row.2, arrival row)

/-- The order of `project_fair_candidate_query`. -/
def fairKey (row : Uuid × Task) : Urgency ×ₗ ℚ ×ₗ Arrival :=
  toLex (urgency (effectivePriorityExpression now agingIntervalSeconds row.2) row.2,
    toLex (dominantShareExpression (clusterSize db) (db.quotaStates.get? row.2.projectId),
      arrival row))

/-! ## The lanes -/

def candidateQuery (scanLimit : ℕ) (excluded : List Uuid) : List (Uuid × Task) :=
  (orderBy (laneKey now agingIntervalSeconds) (eligible db excluded)).take scanLimit

def priorityCandidateQuery (scanLimit : ℕ) (excluded : List Uuid) : List (Uuid × Task) :=
  (orderBy priorityKey (eligible db excluded)).take scanLimit

/-- `row_number() OVER (PARTITION BY project_id ORDER BY ..)`. -/
def projectRank (rows : List (Uuid × Task)) (row : Uuid × Task) : ℕ :=
  (rows.filter (fun other => other.2.projectId = row.2.projectId
    ∧ laneKey now agingIntervalSeconds other < laneKey now agingIntervalSeconds row)).length + 1

def projectFairCandidateQuery (scanLimit : ℕ) (excluded : List Uuid) :
    List (Uuid × Task) :=
  let rows := eligible db excluded
  (orderBy (fairKey db now agingIntervalSeconds)
    (rows.filter (fun row => projectRank now agingIntervalSeconds rows row = 1))).take scanLimit

/-- The tasks of all lanes, each once. -/
def scanned (scanLimit : ℕ) (excluded : List Uuid) : List (Uuid × Task) :=
  distinctBy Prod.fst (candidateQuery db now agingIntervalSeconds scanLimit excluded
    ++ priorityCandidateQuery db scanLimit excluded
    ++ projectFairCandidateQuery db now agingIntervalSeconds scanLimit excluded)

end Lanes

/-! ## The choice -/

/-- `SchedulerCandidate`; its snapshot is read off the task. -/
structure SchedulerCandidate where
  taskId : Uuid
  task : Task
  effectivePriority : ℤ
  projectDominantShare : ℚ

/-- The key of the last sort: a queue order, then the id. -/
def SchedulerCandidate.sortKey (c : SchedulerCandidate) : Urgency ×ₗ ℚ ×ₗ ℤ ×ₗ Uuid :=
  toLex (urgency c.effectivePriority c.task,
    toLex (c.projectDominantShare, toLex (c.task.queueOrder, c.taskId)))

/-- What `choose_candidates` makes of a row. -/
def schedulerCandidate (db : Db) (now : Time) (agingIntervalSeconds : ℤ)
    (row : Uuid × Task) : SchedulerCandidate where
  taskId := row.1
  task := row.2
  effectivePriority := effectivePriority now agingIntervalSeconds row.2
  projectDominantShare := projectDominantShare (clusterSize db)
    (db.quotaStates.get? row.2.projectId)

/-- `SchedulingRepository.choose_candidates`. -/
def chooseCandidates (db : Db) (now : Time) (agingIntervalSeconds scanLimit : ℤ)
    (excluded : List Uuid) : Except Err (List SchedulerCandidate) :=
  if scanLimit < 1 then
    .error (.valueError "scan_limit must be at least one")
  else if agingIntervalSeconds < 1 then
    .error (.valueError "aging_interval_seconds must be at least one")
  else
    .ok (orderBy SchedulerCandidate.sortKey
      ((scanned db now agingIntervalSeconds scanLimit.toNat excluded).map
        (schedulerCandidate db now agingIntervalSeconds)))

/-- `SchedulingRepository.choose_next_candidate`. -/
def chooseNextCandidate (db : Db) (now : Time) (agingIntervalSeconds scanLimit : ℤ)
    (excluded : List Uuid) : Except Err (Option SchedulerCandidate) :=
  (chooseCandidates db now agingIntervalSeconds scanLimit excluded).map List.head?

end MiniAiCloud
