import Mathlib.Data.Rat.Floor
import MiniAiCloud.Table
import MiniAiCloud.Transaction
import MiniAiCloud.StateMachine

/-! # The rows of the control-plane database

    One structure for each table the modelled repositories read or write, with
    the columns they use, and the database as the record of those tables.
    Counters are integers, money, CPU amounts and times are exact rationals
    (a float column holds the rational it denotes), an optional column is an
    `Option`.  A group of columns that a CHECK constraint makes null together
    is one optional record. -/

namespace MiniAiCloud

abbrev Uuid := Nat
abbrev WorkerId := String

/-- Seconds on the database clock. -/
abbrev Time := ℚ

/-- Days on the database clock. -/
abbrev Date := ℤ

/-- `now.date()`. -/
def Time.date (t : Time) : Date := ⌊t / 86400⌋

/-- Python's `round`: to the nearest integer, ties to the even one. -/
def pyRound (x : ℚ) : ℤ :=
  let below := ⌊x⌋
  let rest := x - below
  if rest < 1 / 2 then below
  else if 1 / 2 < rest then below + 1
  else if below % 2 = 0 then below
  else below + 1

/-! ## Enumerations -/

inductive AcceleratorVendor where
  | nvidia | huaweiAscend
  deriving DecidableEq, Repr

inductive AcceleratorKind where
  | gpu | npu
  deriving DecidableEq, Repr

inductive AllocationAuthority where
  | controlPlaneExactDevice | kubernetesDevicePlugin
  deriving DecidableEq, Repr

inductive WorkerStatus where
  | online | offline | draining
  deriving DecidableEq, Repr

inductive LogStream where
  | stdout | stderr | system
  deriving DecidableEq, Repr

inductive RuntimeType where
  | docker | kubernetes | fake
  deriving DecidableEq, Repr

inductive RetryBackoff where
  | exponential | linear | fixed
  deriving DecidableEq, Repr

inductive ErrorCategory where
  | userError | infraError | resourceError | timeout | preempted | cancelled
  | internalError
  deriving DecidableEq, Repr

inductive ErrorCode where
  | imagePullFailed | containerStartFailed | oomKilled | gpuUnavailable
  | workerLost | leaseExpired | modelLoadFailed | modelLoadTimeout
  | replicaUnhealthy | noHealthyReplica | upstreamConnectTimeout
  | inferenceRequestTimeout | upstreamDisconnected | gpuAllocationFailed
  | kubernetesArtifactsUnsupported
  deriving DecidableEq, Repr

inductive DependencyFailurePolicy where
  | cancel | block
  deriving DecidableEq, Repr

inductive ProjectStatus where
  | active | suspended | deleted
  deriving DecidableEq, Repr

inductive PlanState where
  | requested | completed
  deriving DecidableEq, Repr

inductive ServiceStatus where
  | pending | deploying | running | degraded | stopping | stopped | failed
  deriving DecidableEq, Repr

inductive ReplicaStatus where
  | pending | starting | loading | running | draining | stopping
  | stopped | failed | lost
  deriving DecidableEq, Repr

inductive ReplicaHealth where
  | unknown | healthy | unhealthy
  deriving DecidableEq, Repr

inductive ServingRuntime where
  | vllm | fake
  deriving DecidableEq, Repr

inductive AcceleratorSelectionPolicy where
  | any | nvidiaOnly | ascendOnly | preferNvidia | preferAscend
  deriving DecidableEq, Repr

inductive ModelAvailabilityStatus where
  | ready | degraded | disabled
  deriving DecidableEq, Repr

inductive GatewayRoutingPolicy where
  | strictNvidia | strictAscend | preferNvidia | preferAscend | balanced
  deriving DecidableEq, Repr

/-- `vendor_circuit_states.state`. -/
inductive CircuitStatus where
  | closed | opened
  deriving DecidableEq, Repr

inductive ArtifactState where
  | pending | ready | failed | deleting | deleted
  deriving DecidableEq, Repr

/-- `task_artifacts.direction`. -/
inductive ArtifactDirection where
  | input | output
  deriving DecidableEq, Repr

def AcceleratorVendor.value : AcceleratorVendor → String
  | nvidia => "nvidia"
  | huaweiAscend => "huawei-ascend"

/-- `AcceleratorVendor(text)`, `none` where it raises. -/
def AcceleratorVendor.ofString? (text : String) : Option AcceleratorVendor :=
  if text = "nvidia" then some nvidia
  else if text = "huawei-ascend" then some huaweiAscend
  else none

/-- `kind_for_vendor`. -/
def kindForVendor : AcceleratorVendor → AcceleratorKind
  | .nvidia => .gpu
  | .huaweiAscend => .npu

def RuntimeType.value : RuntimeType → String
  | docker => "docker"
  | kubernetes => "kubernetes"
  | fake => "fake"

/-! ## Quota rows -/

structure ProjectQuota where
  maxQueuedTasks : Option ℤ := none
  maxRunningTasks : Option ℤ := none
  maxCpuMillicores : Option ℤ := none
  maxMemoryMb : Option ℤ := none
  maxGpus : Option ℤ := none
  maxNvidiaGpus : Option ℤ := none
  maxAscendNpus : Option ℤ := some 0
  maxServices : Option ℤ := none
  maxServiceReplicas : Option ℤ := none
  maxArtifactBytes : Option ℤ := none
  dailyCostLimit : Option ℚ := none
  version : ℤ := 1
  updatedAt : Time

structure ProjectQuotaState where
  queuedTasks : ℤ := 0
  runningTasks : ℤ := 0
  reservedCpuMillicores : ℤ := 0
  reservedMemoryMb : ℤ := 0
  reservedGpus : ℤ := 0
  reservedNvidiaGpus : ℤ := 0
  reservedAscendNpus : ℤ := 0
  serviceCount : ℤ := 0
  serviceReplicas : ℤ := 0
  serviceReservedCpuMillicores : ℤ := 0
  serviceReservedMemoryMb : ℤ := 0
  serviceReservedGpus : ℤ := 0
  serviceReservedNvidiaGpus : ℤ := 0
  serviceReservedAscendNpus : ℤ := 0
  artifactBytes : ℤ := 0
  accountingDate : Date
  dailyReservedCost : ℚ := 0
  dailySettledCost : ℚ := 0
  version : ℤ := 1
  updatedAt : Time

/-! ## Workers and devices -/

/-- A worker taint; a missing dictionary key is `none`. -/
structure Taint where
  key : Option String
  value : Option String
  effect : Option String
  deriving DecidableEq

structure Toleration where
  key : Option String
  value : Option String
  deriving DecidableEq

structure Worker where
  workerSessionId : Uuid
  hostname : String
  nodeName : String
  runtimeTypes : List String
  status : WorkerStatus
  startedAt : Time
  lastHeartbeatAt : Time
  runningTasks : ℤ
  concurrency : ℤ
  reservedCpu : ℚ
  reservedMemoryMb : ℤ
  reservedGpus : ℤ
  cpuCount : ℤ
  cpuTotalMillicores : ℤ
  cpuAllocatableMillicores : ℤ
  memoryTotalMb : ℤ
  memoryAllocatableMb : ℤ
  labels : List (String × String)
  taints : List Taint
  gpuCount : ℤ
  gpuModel : Option String
  gpuMemoryMb : ℤ
  inventoryGeneration : ℤ := 1
  inventoryUpdatedAt : Time
  overcommitted : Bool := false
  drainReason : Option String := none
  version : ℤ := 1

structure GpuDevice where
  workerId : WorkerId
  deviceUuid : String
  deviceIndex : ℤ
  vendor : AcceleratorVendor
  acceleratorKind : AcceleratorKind
  model : String
  memoryTotalMb : ℤ
  memoryFreeMb : ℤ
  runtimeProfileIds : List String
  capabilities : List String := []
  kubernetesResourceName : Option String
  kubernetesNodeName : Option String
  health : String
  inventoryGeneration : ℤ
  lastSeenAt : Time

/-! ## Tasks and executions -/

/-- `accelerator_request_json`, the keys the repositories read. -/
structure AcceleratorRequest where
  allowedVendors : List String
  requiredCapabilities : List String

/-- The columns of a task that its submission fixes. -/
structure TaskSpec where
  projectId : Uuid
  runtimeType : RuntimeType
  timeoutSeconds : ℤ
  maxRetries : ℤ
  retryBackoff : RetryBackoff
  retryBaseSeconds : ℚ
  retryMaxSeconds : ℚ
  retryOnExitCodes : List ℤ
  cpuLimit : ℚ
  cpuMillicores : ℤ
  memoryLimitMb : ℤ
  gpuCount : ℤ
  gpuMemoryMb : ℤ
  gpuModel : Option String
  acceleratorRequest : Option AcceleratorRequest
  labels : List (String × String)
  tolerations : List Toleration
  priority : ℤ
  queueOrder : ℤ := 0
  preemptible : Bool
  createdAt : Time

/-- `runtime_handle`: the persisted observation of the runtime object. -/
structure RuntimeHandle where
  runtimeType : String
  runtimeNamespace : Option String
  runtimeResourceKind : String
  runtimeResourceName : String
  runtimeResourceUid : Option String
  runtimeWorkerSessionId : Option Uuid
  observedPodName : Option String
  observedPodUid : Option String
  runtimeSpecHash : Option String
  runtimeLogCursorBytes : ℤ

/-- An immutable runtime profile: identity, version and semantic digest. -/
structure RuntimeProfile where
  id : String
  version : String
  digest : String
  deriving DecidableEq

/-- The `selected_*` columns, null together. -/
structure SelectedAccelerator where
  vendor : AcceleratorVendor
  kind : AcceleratorKind
  model : String
  profile : RuntimeProfile
  allocationAuthority : AllocationAuthority

structure Task extends TaskSpec where
  status : TaskStatus := .pending
  queuedAt : Option Time := none
  assignedAt : Option Time := none
  startedAt : Option Time := none
  finishedAt : Option Time := none
  workerId : Option WorkerId := none
  executionId : Option Uuid := none
  leaseExpiresAt : Option Time := none
  exitCode : Option ℤ := none
  errorMessage : Option String := none
  retryCount : ℤ := 0
  recoveryCount : ℤ := 0
  nextAttemptAt : Option Time := none
  gpuDeviceIds : List String := []
  kubernetesNodeName : Option String := none
  selected : Option SelectedAccelerator := none
  preemptionCount : ℤ := 0
  requeueOnPreempt : Bool := true
  unschedulableReason : Option String := none
  failureCategory : Option ErrorCategory := none
  errorCategory : Option ErrorCategory := none
  errorCode : Option ErrorCode := none
  runtimeHandle : Option RuntimeHandle := none
  cancelRequested : Bool := false
  durationMs : Option ℤ := none
  cpuSeconds : Option ℚ := none
  gpuSeconds : Option ℚ := none
  wallTimeSeconds : Option ℚ := none
  estimatedCost : Option ℚ := none
  version : ℤ := 1
  logSequence : ℤ := 0

/-- The configured hourly prices; the settings admit no negative price. -/
structure Prices where
  cpuPerHour : ℚ
  memoryPerGbHour : ℚ
  gpuPerHour : ℚ
  cpu_nonneg : 0 ≤ cpuPerHour
  memory_nonneg : 0 ≤ memoryPerGbHour
  gpu_nonneg : 0 ≤ gpuPerHour

/-- What an execution asked of the accelerators. -/
structure RequestedAccelerator where
  allocationAuthority : AllocationAuthority
  requestedVendor : Option AcceleratorVendor
  requestedKind : Option AcceleratorKind
  requestedProfile : Option RuntimeProfile

/-- The `observed_*` columns, null together. -/
structure ObservedAllocation where
  deviceIds : List String
  vendor : AcceleratorVendor
  observedAt : Time

structure TaskExecution extends RequestedAccelerator where
  taskId : Uuid
  projectId : Uuid
  workerId : Option WorkerId
  workerSessionId : Option Uuid
  attempt : ℤ
  status : TaskStatus
  cpuMillicores : ℤ
  memoryMb : ℤ
  gpuCount : ℤ
  gpuModel : Option String
  observed : Option ObservedAllocation
  prices : Prices
  assignedAt : Time
  startedAt : Option Time := none
  finishedAt : Option Time := none
  runtimeType : RuntimeType
  runtimeObjectId : Option String := none
  runtimeNamespace : Option String := none
  runtimeResourceKind : Option String := none
  runtimeResourceName : Option String := none
  runtimeResourceUid : Option String := none
  runtimeWorkerSessionId : Option Uuid := none
  observedPodName : Option String := none
  observedPodUid : Option String := none
  runtimeSpecHash : Option String := none
  errorCategory : Option ErrorCategory := none
  errorCode : Option ErrorCode := none
  errorMessage : Option String := none

/-- A reservation; the table is keyed by its unique `execution_id`. -/
structure ResourceReservation extends RequestedAccelerator where
  projectId : Uuid
  taskId : Uuid
  workerId : WorkerId
  workerSessionId : Uuid
  cpuMillicores : ℤ
  memoryMb : ℤ
  gpuCount : ℤ
  observed : Option ObservedAllocation
  legacyUnbound : Bool := false
  createdAt : Time
  releasedAt : Option Time := none
  releaseReason : Option String := none
  version : ℤ := 1

/-- A device bound to a reservation; keyed by execution and device. -/
structure ReservationGpuDevice where
  createdAt : Time
  releasedAt : Option Time := none

/-- A settled execution; keyed by its unique `execution_id`. -/
structure UsageLedger where
  projectId : Uuid
  taskId : Uuid
  startedAt : Time
  finishedAt : Time
  cpuSeconds : ℚ
  memoryGbSeconds : ℚ
  gpuSeconds : ℚ
  gpuModel : Option String
  cost : ℚ

/-! ## Dependencies, preemption, history -/

structure JobGroup where
  projectId : Uuid
  name : String
  createdAt : Time

/-- An edge; keyed by `(task_id, depends_on_task_id)`. -/
structure TaskDependency where
  jobGroupId : Option Uuid
  failurePolicy : DependencyFailurePolicy

structure PreemptionPlan where
  incomingTaskId : Uuid
  victimTaskId : Uuid
  workerId : WorkerId
  state : PlanState
  createdAt : Time
  completedAt : Option Time := none

structure TaskEvent where
  projectId : Uuid
  taskId : Uuid
  eventType : String
  sequence : ℤ
  fromStatus : Option TaskStatus
  status : TaskStatus
  executionId : Option Uuid := none
  workerId : Option WorkerId := none
  incomingTaskId : Option Uuid := none
  createdAt : Time

structure TaskLog where
  taskId : Uuid
  executionId : Option Uuid
  stream : LogStream
  sequence : ℤ
  content : String
  timestamp : Time

/-! ## Services and their replicas -/

/-- The columns of an admission snapshot, null together. -/
structure ServiceAdmissionSnapshot where
  logicalModelId : Uuid
  modelVariantId : Uuid
  selectedVendor : AcceleratorVendor
  selectedKind : AcceleratorKind
  selectedModel : String
  runtimeProfile : RuntimeProfile
  allocationAuthority : AllocationAuthority
  acceleratorResourceName : Option String
  selectionPolicy : AcceleratorSelectionPolicy
  eligibleNodeNames : List String

structure ModelService where
  projectId : Uuid
  name : String
  model : String
  runtime : ServingRuntime
  runtimeType : RuntimeType
  image : Option String
  modelRevision : Option String
  cpuMillicores : ℤ
  memoryMb : ℤ
  gpuCount : ℤ
  tensorParallelSize : ℤ
  admission : Option ServiceAdmissionSnapshot
  desiredReplicas : ℤ
  autoscalingEnabled : Bool := false
  autoscalingMinReplicas : ℤ := 1
  autoscalingMaxReplicas : ℤ := 4
  autoscalingTargetConcurrency : ℤ := 8
  autoscalingCooldownSeconds : ℤ := 60
  lastScaledAt : Option Time := none
  lastAutoscaleCheckedAt : Option Time := none
  generation : ℤ := 1
  status : ServiceStatus := .pending
  roundRobinCursor : ℤ := 0
  createdAt : Time
  updatedAt : Time
  stoppedAt : Option Time := none
  version : ℤ := 1

structure ServiceReplica where
  serviceId : Uuid
  runtime : ServingRuntime
  generation : ℤ
  ordinal : ℤ
  status : ReplicaStatus := .pending
  health : ReplicaHealth := .unknown
  workerId : Option WorkerId := none
  executionId : Option Uuid := none
  endpointUrl : Option String := none
  leaseExpiresAt : Option Time := none
  lastHealthAt : Option Time := none
  healthProbeToken : Option Uuid := none
  healthProbeExpiresAt : Option Time := none
  healthFailureCount : ℤ := 0
  activeRequests : ℤ := 0
  admission : Option ServiceAdmissionSnapshot
  assignedNodeName : Option String := none
  modelRevision : Option String
  imageDigest : Option String
  errorCode : Option String := none
  errorMessage : Option String := none
  createdAt : Time
  updatedAt : Time
  startedAt : Option Time := none
  containerStartedAt : Option Time := none
  readyAt : Option Time := none
  drainStartedAt : Option Time := none
  drainDeadline : Option Time := none
  stoppedAt : Option Time := none
  version : ℤ := 1

/-! ## Logical models and the circuits of their vendors -/

structure LogicalModel where
  projectId : Uuid
  name : String
  publicName : String
  status : ModelAvailabilityStatus := .disabled
  routingPolicy : GatewayRoutingPolicy := .balanced
  routingCursor : ℤ := 0
  createdAt : Time
  updatedAt : Time
  version : ℤ := 1

structure ModelVariant where
  logicalModelId : Uuid
  name : String
  vendor : AcceleratorVendor
  kind : AcceleratorKind
  status : ModelAvailabilityStatus := .disabled
  version : ℤ := 1

/-- A circuit; keyed by its unique project, logical model and vendor. -/
structure VendorCircuitState where
  state : CircuitStatus := .closed
  failureCount : ℤ
  openedUntil : Option Time
  lastErrorCode : Option String
  version : ℤ
  updatedAt : Time

/-! ## Artifacts, task bindings and datasets -/

/-- The two places of an artifact in the object store. -/
inductive ObjectSlot where
  | staging | content
  deriving DecidableEq, Repr

/-- An object key, by what its text is made of:
    `projects/<project_id.hex>/artifacts/<artifact_id.hex>/<slot>`. -/
structure ObjectKey where
  projectId : Uuid
  artifactId : Uuid
  slot : ObjectSlot
  deriving DecidableEq

structure Artifact where
  projectId : Uuid
  name : String
  state : ArtifactState := .pending
  backend : String
  objectKey : ObjectKey
  contentType : Option String
  sizeBytes : Option ℤ
  sha256 : Option String
  createdByUserId : Option Uuid
  createdAt : Time
  verifiedAt : Option Time := none
  deletedAt : Option Time := none
  failureReason : Option String := none

structure TaskArtifact where
  taskId : Uuid
  artifactId : Option Uuid
  direction : ArtifactDirection
  name : String
  mountPath : String
  required : Bool
  createdAt : Time

structure Dataset where
  projectId : Uuid
  name : String
  description : Option String
  currentVersion : ℤ
  createdAt : Time

/-- A version of a dataset; keyed by dataset and version. -/
structure DatasetVersion where
  artifactId : Uuid
  metadata : List (String × String)
  createdAt : Time

/-! ## Exceptions and the database -/

/-- The exceptions of the repositories, with their texts. -/
inductive Err where
  | quotaNotFound (message : String)
  | quotaInvariantViolation (message : String)
  | quotaExceeded (resource : String) (limit requested : ℚ)
  | resourceInvariantViolation (message : String)
  | invalidTaskTransition (current target : TaskStatus)
  | claimRejected (message : String)
  | staleExecution (message : String)
  | dependencyValidation (message : String)
  | placementConflict (message : String)
  | preemptionContention (message : String)
  | dagNotFound (message : String)
  | dagConflict (message : String)
  | dagCycle (message : String)
  | lookupError (message : String)
  | valueError (message : String)
  | integrityError (constraint : String)
  | gatewayModelNameConflict (name : String)
  | logicalModelConflict (field : String)
  | artifactRecordNotFound (message : String)
  | artifactProjectUnavailable (message : String)
  | artifactStateConflict (message : String)
  | artifactReferenced (message : String)
  | artifactQuotaExceeded (limitBytes usedBytes requestedBytes : ℤ)
  | artifactAccountingInvariant (message : String)
  | taskArtifactNotFound (message : String)
  | taskArtifactConflict (message : String)
  | datasetNotFound (message : String)
  | datasetConflict (message : String)
  | runtimeError (message : String)
  deriving DecidableEq

/-- `except QuotaNotFoundError`. -/
def Err.isQuotaNotFound : Err → Bool
  | .quotaNotFound _ => true
  | _ => false

/-- `except QuotaExceededError`. -/
def Err.isQuotaExceeded : Err → Bool
  | .quotaExceeded _ _ _ => true
  | _ => false

/-- The tables the gateway routes by. -/
structure Catalog where
  logicalModels : Table Uuid LogicalModel := .empty
  modelVariants : Table Uuid ModelVariant := .empty
  vendorCircuits : Table (Uuid × Uuid × AcceleratorVendor) VendorCircuitState := .empty

/-- The tables of the artifacts and of what refers to them. -/
structure Library where
  artifacts : Table Uuid Artifact := .empty
  taskArtifacts : Table Uuid TaskArtifact := .empty
  datasets : Table Uuid Dataset := .empty
  datasetVersions : Table (Uuid × ℤ) DatasetVersion := .empty

structure Db where
  projects : Table Uuid ProjectStatus
  quotas : Table Uuid ProjectQuota
  quotaStates : Table Uuid ProjectQuotaState
  workers : Table WorkerId Worker
  gpuDevices : Table Uuid GpuDevice
  tasks : Table Uuid Task
  executions : Table Uuid TaskExecution
  reservations : Table Uuid ResourceReservation
  reservationGpuDevices : Table (Uuid × Uuid) ReservationGpuDevice
  usageLedger : Table Uuid UsageLedger
  jobGroups : Table Uuid JobGroup
  taskDependencies : Table (Uuid × Uuid) TaskDependency
  preemptionPlans : List PreemptionPlan
  taskEvents : List TaskEvent
  taskLogs : List TaskLog
  modelServices : Table Uuid ModelService := .empty
  serviceReplicas : Table Uuid ServiceReplica := .empty
  catalog : Catalog := {}
  library : Library := {}

/-- A database that knows its projects and nothing else. -/
def Db.ofProjects (projects : Table Uuid ProjectStatus) : Db where
  projects := projects
  quotas := .empty
  quotaStates := .empty
  workers := .empty
  gpuDevices := .empty
  tasks := .empty
  executions := .empty
  reservations := .empty
  reservationGpuDevices := .empty
  usageLedger := .empty
  jobGroups := .empty
  taskDependencies := .empty
  preemptionPlans := []
  taskEvents := []
  taskLogs := []

/-- A repository call inside the caller's transaction. -/
abbrev Txn := EStateM Err Db

end MiniAiCloud
