import MiniAiCloud.Schema

/-! # The quota repository

    Limits and usage counters of a project, and the calls that move them inside
    the caller's transaction.  Each call first takes the quota row
    (`getLocked`, which also rolls the daily counters over), then checks every
    limit, and only then writes. -/

namespace MiniAiCloud

open Transaction

structure QuotaSnapshot where
  quota : ProjectQuota
  state : ProjectQuotaState

/-! ## Checks -/

/-- `_check_limit` on a count. -/
def checkLimit (resource : String) (limit : Option ℤ) (requested : ℤ) :
    Txn Unit :=
  match limit with
  | none => pure ()
  | some bound => raiseIf (bound < requested) (.quotaExceeded resource bound requested)

/-- `_check_limit` on an amount of money. -/
def checkCostLimit (limit : Option ℚ) (requested : ℚ) : Txn Unit :=
  match limit with
  | none => pure ()
  | some bound => raiseIf (bound < requested) (.quotaExceeded "daily_cost" bound requested)

/-- A sequence of `_check_limit` calls: resource, limit, requested. -/
def checkLimits : List (String × Option ℤ × ℤ) → Txn Unit
  | [] => pure ()
  | (resource, limit, requested) :: rest => do
      checkLimit resource limit requested
      checkLimits rest

/-- `_validate_reservation`. -/
def validateReservation (cpuMillicores memoryMb gpuCount : ℤ) (cost : ℚ) :
    Txn Unit :=
  raiseIf (cpuMillicores < 0 ∨ memoryMb < 0 ∨ gpuCount < 0 ∨ cost < 0)
    (.valueError "reservation resources and cost must be non-negative")

/-- The counters `_assert_state_nonnegative` looks at, by name. -/
def numericValues (state : ProjectQuotaState) : List (String × ℚ) :=
  [("queued_tasks", state.queuedTasks),
   ("running_tasks", state.runningTasks),
   ("reserved_cpu_millicores", state.reservedCpuMillicores),
   ("reserved_memory_mb", state.reservedMemoryMb),
   ("reserved_gpus", state.reservedGpus),
   ("reserved_nvidia_gpus", state.reservedNvidiaGpus),
   ("reserved_ascend_npus", state.reservedAscendNpus),
   ("service_count", state.serviceCount),
   ("service_replicas", state.serviceReplicas),
   ("service_reserved_cpu_millicores", state.serviceReservedCpuMillicores),
   ("service_reserved_memory_mb", state.serviceReservedMemoryMb),
   ("service_reserved_gpus", state.serviceReservedGpus),
   ("service_reserved_nvidia_gpus", state.serviceReservedNvidiaGpus),
   ("service_reserved_ascend_npus", state.serviceReservedAscendNpus),
   ("artifact_bytes", state.artifactBytes),
   ("daily_reserved_cost", state.dailyReservedCost),
   ("daily_settled_cost", state.dailySettledCost)]

/-- `_assert_state_nonnegative`. -/
def assertStateNonnegative (state : ProjectQuotaState) : Txn Unit := do
  let invalid := ((numericValues state).filter (fun entry => entry.2 < 0)).map
    Prod.fst
  raiseIf (invalid ≠ []) (.quotaInvariantViolation
    ("project quota state has negative counters: " ++ ", ".intercalate invalid))
  raiseIf (state.reservedGpus ≠ state.reservedNvidiaGpus + state.reservedAscendNpus)
    (.quotaInvariantViolation
      "task accelerator aggregate does not match typed counters")
  raiseIf (state.serviceReservedGpus
      ≠ state.serviceReservedNvidiaGpus + state.serviceReservedAscendNpus)
    (.quotaInvariantViolation
      "service accelerator aggregate does not match typed counters")

/-- The vendor a text names; no text means NVIDIA. -/
def vendorOf : Option String → Option AcceleratorVendor
  | none => some .nvidia
  | some text => AcceleratorVendor.ofString? text

/-- `_normalize_accelerator_vendor`. -/
def normalizeAcceleratorVendor (value : Option String) (gpuCount : ℤ) :
    Txn (Option AcceleratorVendor) :=
  if gpuCount = 0 then pure none
  else do
    let vendor ← expect (vendorOf value)
      (.valueError ("unsupported accelerator vendor: " ++ value.getD "None"))
    pure (some vendor)

/-- `_validate_service_commitment`. -/
def validateServiceCommitment
    (currentReplicas desiredReplicas cpuMillicores memoryMb gpuCount : ℤ) :
    Txn Unit :=
  raiseIf (currentReplicas < 0 ∨ desiredReplicas < 0 ∨ cpuMillicores < 0
      ∨ memoryMb < 0 ∨ gpuCount < 0)
    (.valueError "service replicas and resources must be non-negative")

/-! ## Rows -/

/-- `_roll_daily_state`, with the `updated_at` its caller then sets. -/
def rollDailyState (state : ProjectQuotaState) (now : Time) :
    ProjectQuotaState :=
  if state.accountingDate ≠ now.date then
    { state with
      accountingDate := now.date
      dailyReservedCost := 0
      dailySettledCost := 0
      version := state.version + 1
      updatedAt := now }
  else state

/-- Write the quota state row of a project. -/
def writeState (projectId : Uuid) (state : ProjectQuotaState) : Txn Unit :=
  modify fun db => { db with quotaStates := db.quotaStates.set projectId state }

/-- `_touch_state`: the mutated row is in the session before the assertion. -/
def touchState (now : Time) (projectId : Uuid) (state : ProjectQuotaState) :
    Txn ProjectQuotaState := do
  writeState projectId state
  assertStateNonnegative state
  let touched := { state with version := state.version + 1, updatedAt := now }
  writeState projectId touched
  pure touched

/-- `QuotaRepository.initialize`. -/
def initializeQuota (now : Time) (projectId : Uuid) : Txn QuotaSnapshot := do
  let db ← get
  raiseIf (db.projects.get? projectId ≠ some .active)
    (.quotaNotFound "active project does not exist")
  let quota := (db.quotas.get? projectId).getD { updatedAt := now }
  let state := (db.quotaStates.get? projectId).getD
    { accountingDate := now.date, updatedAt := now }
  modify fun db => { db with
    quotas := db.quotas.insert projectId quota
    quotaStates := db.quotaStates.insert projectId state }
  assertStateNonnegative state
  pure ⟨quota, state⟩

/-- `QuotaRepository.get_locked`. -/
def getLocked (now : Time) (projectId : Uuid) : Txn QuotaSnapshot := do
  let db ← get
  let quota ← expect (db.quotas.get? projectId)
    (.quotaNotFound "project quota state does not exist")
  let state ← expect (db.quotaStates.get? projectId)
    (.quotaNotFound "project quota state does not exist")
  assertStateNonnegative state
  writeState projectId (rollDailyState state now)
  pure ⟨quota, rollDailyState state now⟩

/-! ## Calls -/

/-- The limits a caller of `replace` supplies. -/
structure QuotaLimits where
  maxQueuedTasks : Option ℤ
  maxRunningTasks : Option ℤ
  maxCpuMillicores : Option ℤ
  maxMemoryMb : Option ℤ
  maxGpus : Option ℤ
  maxNvidiaGpus : Option ℤ
  maxAscendNpus : Option ℤ
  maxServices : Option ℤ
  maxServiceReplicas : Option ℤ
  maxArtifactBytes : Option ℤ
  dailyCostLimit : Option ℚ

/-- The `values` dictionary of `replace`. -/
def QuotaLimits.values (limits : QuotaLimits) : List (String × Option ℚ) :=
  let count (limit : Option ℤ) : Option ℚ := limit.map (fun n => (n : ℚ))
  [("max_queued_tasks", count limits.maxQueuedTasks),
   ("max_running_tasks", count limits.maxRunningTasks),
   ("max_cpu_millicores", count limits.maxCpuMillicores),
   ("max_memory_mb", count limits.maxMemoryMb),
   ("max_gpus", count limits.maxGpus),
   ("max_nvidia_gpus", count limits.maxNvidiaGpus),
   ("max_ascend_npus", count limits.maxAscendNpus),
   ("max_services", count limits.maxServices),
   ("max_service_replicas", count limits.maxServiceReplicas),
   ("max_artifact_bytes", count limits.maxArtifactBytes),
   ("daily_cost_limit", limits.dailyCostLimit)]

/-- The loop of `replace` that refuses negative limits. -/
def refuseNegative : List (String × Option ℚ) → Txn Unit
  | [] => pure ()
  | (field, value) :: rest => do
      raiseIf (∃ x ∈ value, x < 0) (.valueError (field ++ " must be non-negative"))
      refuseNegative rest

/-- The checks of `replace` and the quota row it is about to write. -/
def replaceQuotaProspect (now : Time) (projectId : Uuid) (limits : QuotaLimits) :
    Txn QuotaSnapshot := do
  refuseNegative limits.values
  let snapshot ← getLocked now projectId
  let state := snapshot.state
  checkLimits [
    ("queued_tasks", limits.maxQueuedTasks, state.queuedTasks),
    ("running_tasks", limits.maxRunningTasks,
      state.runningTasks + state.serviceReplicas),
    ("cpu_millicores", limits.maxCpuMillicores,
      state.reservedCpuMillicores + state.serviceReservedCpuMillicores),
    ("memory_mb", limits.maxMemoryMb,
      state.reservedMemoryMb + state.serviceReservedMemoryMb),
    ("gpus", limits.maxGpus, state.reservedGpus + state.serviceReservedGpus),
    ("nvidia_gpus", limits.maxNvidiaGpus,
      state.reservedNvidiaGpus + state.serviceReservedNvidiaGpus),
    ("ascend_npus", limits.maxAscendNpus,
      state.reservedAscendNpus + state.serviceReservedAscendNpus),
    ("services", limits.maxServices, state.serviceCount),
    ("service_replicas", limits.maxServiceReplicas, state.serviceReplicas),
    ("artifact_bytes", limits.maxArtifactBytes, state.artifactBytes)]
  checkCostLimit limits.dailyCostLimit
    (state.dailyReservedCost + state.dailySettledCost)
  pure ⟨{
    maxQueuedTasks := limits.maxQueuedTasks
    maxRunningTasks := limits.maxRunningTasks
    maxCpuMillicores := limits.maxCpuMillicores
    maxMemoryMb := limits.maxMemoryMb
    maxGpus := limits.maxGpus
    maxNvidiaGpus := limits.maxNvidiaGpus
    maxAscendNpus := limits.maxAscendNpus
    maxServices := limits.maxServices
    maxServiceReplicas := limits.maxServiceReplicas
    maxArtifactBytes := limits.maxArtifactBytes
    dailyCostLimit := limits.dailyCostLimit
    version := snapshot.quota.version + 1
    updatedAt := now }, state⟩

/-- `QuotaRepository.replace`. -/
def replaceQuota (now : Time) (projectId : Uuid) (limits : QuotaLimits) :
    Txn QuotaSnapshot := do
  let snapshot ← replaceQuotaProspect now projectId limits
  modify fun db => { db with quotas := db.quotas.set projectId snapshot.quota }
  pure snapshot

/-- The checks of `admit_queued` and the row it is about to write. -/
def admitQueuedProspect (now : Time) (projectId : Uuid) :
    Txn ProjectQuotaState := do
  let snapshot ← getLocked now projectId
  let prospective := snapshot.state.queuedTasks + 1
  checkLimit "queued_tasks" snapshot.quota.maxQueuedTasks prospective
  pure { snapshot.state with queuedTasks := prospective }

/-- `QuotaRepository.admit_queued`. -/
def admitQueued (now : Time) (projectId : Uuid) : Txn ProjectQuotaState :=
  admitQueuedProspect now projectId >>= touchState now projectId

/-- The check of `release_queued` and the row it is about to write. -/
def releaseQueuedProspect (now : Time) (projectId : Uuid) :
    Txn ProjectQuotaState := do
  let snapshot ← getLocked now projectId
  raiseIf (snapshot.state.queuedTasks < 1)
    (.quotaInvariantViolation "queued task count would become negative")
  pure { snapshot.state with queuedTasks := snapshot.state.queuedTasks - 1 }

/-- `QuotaRepository.release_queued`. -/
def releaseQueued (now : Time) (projectId : Uuid) : Txn ProjectQuotaState :=
  releaseQueuedProspect now projectId >>= touchState now projectId

/-- The `accelerator_vendors` branch of `ensure_task_can_fit`. -/
def normalizeVendors (gpuCount : ℤ) :
    List String → Txn (List (Option AcceleratorVendor))
  | [] => pure []
  | value :: rest => do
      let vendor ← normalizeAcceleratorVendor (some value) gpuCount
      let vendors ← normalizeVendors gpuCount rest
      pure (vendor :: vendors)

/-- The limit on the accelerators of one vendor. -/
def vendorLimit (quota : ProjectQuota) : AcceleratorVendor → Option ℤ
  | .nvidia => quota.maxNvidiaGpus
  | .huaweiAscend => quota.maxAscendNpus

/-- `QuotaRepository.ensure_task_can_fit`. -/
def ensureTaskCanFit (quota : ProjectQuota)
    (cpuMillicores memoryMb gpuCount : ℤ) (acceleratorVendor : Option String)
    (acceleratorVendors : Option (List String)) : Txn Unit := do
  validateReservation cpuMillicores memoryMb gpuCount 0
  checkLimits [
    ("running_tasks", quota.maxRunningTasks, 1),
    ("cpu_millicores", quota.maxCpuMillicores, cpuMillicores),
    ("memory_mb", quota.maxMemoryMb, memoryMb),
    ("gpus", quota.maxGpus, gpuCount)]
  match acceleratorVendors with
  | some values =>
    raiseIf (acceleratorVendor ≠ none)
      (.valueError "pass accelerator_vendor or accelerator_vendors, not both")
    let vendors ← normalizeVendors gpuCount values
    raiseIf (vendors = [] ∨ none ∈ vendors)
      (.valueError "accelerator_vendors must contain supported vendors")
    let candidateLimits := (vendors.filterMap id).map (vendorLimit quota)
    raiseIf (¬ ∃ limit ∈ candidateLimits, ∀ bound ∈ limit, gpuCount ≤ bound)
      (.quotaExceeded "vendor_accelerators"
        ((candidateLimits.map (fun limit => limit.getD 0)).foldl max 0)
        gpuCount)
  | none =>
    let vendor ← normalizeAcceleratorVendor acceleratorVendor gpuCount
    match vendor with
    | some .nvidia => checkLimit "nvidia_gpus" quota.maxNvidiaGpus gpuCount
    | some .huaweiAscend =>
      checkLimit "ascend_npus" quota.maxAscendNpus gpuCount
    | none => pure ()

/-- What one execution takes from its project. -/
structure ResourceDemand where
  cpuMillicores : ℤ
  memoryMb : ℤ
  gpuCount : ℤ
  acceleratorVendor : Option String

/-- `gpu_count if vendor == v else 0`. -/
def vendorShare (vendor : Option AcceleratorVendor) (v : AcceleratorVendor)
    (count : ℤ) : ℤ :=
  if vendor = some v then count else 0

/-- The row after one admitted task of `vendor` moves from queued to running. -/
def reservedRow (state : ProjectQuotaState) (vendor : Option AcceleratorVendor)
    (demand : ResourceDemand) (estimatedCost : ℚ) : ProjectQuotaState :=
  let nvidia :=
    state.reservedNvidiaGpus + vendorShare vendor .nvidia demand.gpuCount
  let ascend :=
    state.reservedAscendNpus + vendorShare vendor .huaweiAscend demand.gpuCount
  { state with
    queuedTasks := state.queuedTasks - 1
    runningTasks := state.runningTasks + 1
    reservedCpuMillicores := state.reservedCpuMillicores + demand.cpuMillicores
    reservedMemoryMb := state.reservedMemoryMb + demand.memoryMb
    reservedNvidiaGpus := nvidia
    reservedAscendNpus := ascend
    reservedGpus := nvidia + ascend
    dailyReservedCost := state.dailyReservedCost + estimatedCost }

/-- The checks of `reserve_execution` and the row it is about to write. -/
def reserveExecutionProspect (now : Time) (projectId : Uuid) (demand : ResourceDemand)
    (estimatedCost : ℚ) : Txn ProjectQuotaState := do
  validateReservation demand.cpuMillicores demand.memoryMb demand.gpuCount
    estimatedCost
  let snapshot ← getLocked now projectId
  let quota := snapshot.quota
  let state := snapshot.state
  let vendor ← normalizeAcceleratorVendor demand.acceleratorVendor demand.gpuCount
  raiseIf (state.queuedTasks < 1)
    (.quotaInvariantViolation "cannot reserve an execution without a queued task")
  let next := reservedRow state vendor demand estimatedCost
  checkLimits [
    ("running_tasks", quota.maxRunningTasks,
      state.runningTasks + state.serviceReplicas + 1),
    ("cpu_millicores", quota.maxCpuMillicores,
      state.reservedCpuMillicores + state.serviceReservedCpuMillicores
        + demand.cpuMillicores),
    ("memory_mb", quota.maxMemoryMb,
      state.reservedMemoryMb + state.serviceReservedMemoryMb + demand.memoryMb),
    ("gpus", quota.maxGpus,
      state.reservedGpus + state.serviceReservedGpus + demand.gpuCount),
    ("nvidia_gpus", quota.maxNvidiaGpus,
      next.reservedNvidiaGpus + state.serviceReservedNvidiaGpus),
    ("ascend_npus", quota.maxAscendNpus,
      next.reservedAscendNpus + state.serviceReservedAscendNpus)]
  checkCostLimit quota.dailyCostLimit
    (state.dailySettledCost + state.dailyReservedCost + estimatedCost)
  pure next

/-- `QuotaRepository.reserve_execution`. -/
def reserveExecution (now : Time) (projectId : Uuid) (demand : ResourceDemand)
    (estimatedCost : ℚ) : Txn ProjectQuotaState :=
  reserveExecutionProspect now projectId demand estimatedCost
    >>= touchState now projectId

/-- `int(replicas > 0)`. -/
def present (replicas : ℤ) : ℤ := if 0 < replicas then 1 else 0

/-- `get_locked`, or `initialize` where the quota rows do not exist yet. -/
def lockOrInitialize (now : Time) (projectId : Uuid) : Txn QuotaSnapshot :=
  catching Err.isQuotaNotFound (getLocked now projectId)
    (initializeQuota now projectId)

/-- The service counters after one service goes from `current` to `desired`. -/
def serviceRow (state : ProjectQuotaState)
    (vendor : Option AcceleratorVendor)
    (current desired cpuMillicores memoryMb gpuCount : ℤ) : ProjectQuotaState :=
  let replicaDelta := desired - current
  let nvidia := state.serviceReservedNvidiaGpus
    + vendorShare vendor .nvidia (gpuCount * replicaDelta)
  let ascend := state.serviceReservedAscendNpus
    + vendorShare vendor .huaweiAscend (gpuCount * replicaDelta)
  { state with
    serviceCount := state.serviceCount + (present desired - present current)
    serviceReplicas := state.serviceReplicas + replicaDelta
    serviceReservedCpuMillicores :=
      state.serviceReservedCpuMillicores + cpuMillicores * replicaDelta
    serviceReservedMemoryMb :=
      state.serviceReservedMemoryMb + memoryMb * replicaDelta
    serviceReservedGpus := nvidia + ascend
    serviceReservedNvidiaGpus := nvidia
    serviceReservedAscendNpus := ascend }

/-- The checks of `replace_service_commitment`: the row as it is and the row
    it is about to write. -/
def serviceCommitmentProspect (now : Time) (projectId : Uuid)
    (currentReplicas desiredReplicas : ℤ) (demand : ResourceDemand) :
    Txn (ProjectQuotaState × ProjectQuotaState) := do
  validateServiceCommitment currentReplicas desiredReplicas
    demand.cpuMillicores demand.memoryMb demand.gpuCount
  let snapshot ← lockOrInitialize now projectId
  let quota := snapshot.quota
  let state := snapshot.state
  let vendor ← normalizeAcceleratorVendor demand.acceleratorVendor demand.gpuCount
  let next := serviceRow state vendor currentReplicas desiredReplicas
    demand.cpuMillicores demand.memoryMb demand.gpuCount
  raiseIf (next.serviceCount < 0 ∨ next.serviceReplicas < 0
      ∨ next.serviceReservedCpuMillicores < 0
      ∨ next.serviceReservedMemoryMb < 0 ∨ next.serviceReservedGpus < 0
      ∨ next.serviceReservedNvidiaGpus < 0 ∨ next.serviceReservedAscendNpus < 0)
    (.quotaInvariantViolation
      "service quota state is below the current desired commitment")
  checkLimits [
    ("services", quota.maxServices, next.serviceCount),
    ("service_replicas", quota.maxServiceReplicas, next.serviceReplicas),
    ("running_tasks", quota.maxRunningTasks,
      state.runningTasks + next.serviceReplicas),
    ("cpu_millicores", quota.maxCpuMillicores,
      state.reservedCpuMillicores + next.serviceReservedCpuMillicores),
    ("memory_mb", quota.maxMemoryMb,
      state.reservedMemoryMb + next.serviceReservedMemoryMb),
    ("gpus", quota.maxGpus, state.reservedGpus + next.serviceReservedGpus),
    ("nvidia_gpus", quota.maxNvidiaGpus,
      state.reservedNvidiaGpus + next.serviceReservedNvidiaGpus),
    ("ascend_npus", quota.maxAscendNpus,
      state.reservedAscendNpus + next.serviceReservedAscendNpus)]
  pure (state, next)

/-- `QuotaRepository.replace_service_commitment`. -/
def replaceServiceCommitment (now : Time) (projectId : Uuid)
    (currentReplicas desiredReplicas : ℤ) (demand : ResourceDemand) :
    Txn ProjectQuotaState := do
  let (state, next) ← serviceCommitmentProspect now projectId currentReplicas
    desiredReplicas demand
  if desiredReplicas - currentReplicas = 0 then pure state
  else touchState now projectId next

/-- The counters of the accelerators a vendor's demand is typed by. -/
def typedReserved (state : ProjectQuotaState) : Option AcceleratorVendor → ℤ
  | some .nvidia => state.reservedNvidiaGpus
  | some .huaweiAscend => state.reservedAscendNpus
  | none => 0

/-- The row after one execution of `vendor` gives its resources back. -/
def releasedRow (state : ProjectQuotaState) (vendor : Option AcceleratorVendor)
    (demand : ResourceDemand) (dailyReservedCost settledCost : ℚ) :
    ProjectQuotaState :=
  let nvidia :=
    state.reservedNvidiaGpus - vendorShare vendor .nvidia demand.gpuCount
  let ascend :=
    state.reservedAscendNpus - vendorShare vendor .huaweiAscend demand.gpuCount
  { state with
    runningTasks := state.runningTasks - 1
    reservedCpuMillicores := state.reservedCpuMillicores - demand.cpuMillicores
    reservedMemoryMb := state.reservedMemoryMb - demand.memoryMb
    reservedNvidiaGpus := nvidia
    reservedAscendNpus := ascend
    reservedGpus := nvidia + ascend
    dailyReservedCost := dailyReservedCost
    dailySettledCost := state.dailySettledCost + settledCost }

/-- The checks of `release` and the row it is about to write. -/
def releaseQuotaProspect (now : Time) (projectId : Uuid) (demand : ResourceDemand)
    (reservedCost settledCost : ℚ) (reservationAccountingDate : Option Date) :
    Txn ProjectQuotaState := do
  validateReservation demand.cpuMillicores demand.memoryMb demand.gpuCount
    reservedCost
  raiseIf (settledCost < 0) (.valueError "settled_cost must be non-negative")
  let snapshot ← getLocked now projectId
  let state := snapshot.state
  let vendor ← normalizeAcceleratorVendor demand.acceleratorVendor demand.gpuCount
  raiseIf (state.runningTasks < 1
      ∨ state.reservedCpuMillicores < demand.cpuMillicores
      ∨ state.reservedMemoryMb < demand.memoryMb
      ∨ state.reservedGpus < demand.gpuCount
      ∨ typedReserved state vendor < demand.gpuCount)
    (.quotaInvariantViolation
      "project quota state is below the execution reservation")
  let releaseCostToday := reservationAccountingDate = none
    ∨ reservationAccountingDate = some state.accountingDate
  raiseIf (releaseCostToday ∧ state.dailyReservedCost < reservedCost)
    (.quotaInvariantViolation "daily reserved cost would become negative")
  pure (releasedRow state vendor demand
    (if releaseCostToday then state.dailyReservedCost - reservedCost
      else state.dailyReservedCost) settledCost)

/-- `QuotaRepository.release`. -/
def releaseQuota (now : Time) (projectId : Uuid) (demand : ResourceDemand)
    (reservedCost settledCost : ℚ) (reservationAccountingDate : Option Date) :
    Txn ProjectQuotaState :=
  releaseQuotaProspect now projectId demand reservedCost settledCost
      reservationAccountingDate
    >>= touchState now projectId

end MiniAiCloud
