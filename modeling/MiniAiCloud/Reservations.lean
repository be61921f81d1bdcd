import MiniAiCloud.Quotas

/-! # The reservation repository

    A reservation is the truth about what an execution holds: CPU, memory and
    accelerators of one worker, and the quota of one project.  It is released
    exactly once, together with the worker's aggregate counters, its device
    links and the project's quota, and leaves one ledger entry behind. -/

namespace MiniAiCloud

open Transaction

/-- `get_active_for_execution`. -/
def activeReservation (db : Db) (executionId : Uuid) :
    Option ResourceReservation :=
  (db.reservations.get? executionId).filter (fun r => r.releasedAt.isNone)

/-- The devices actively bound to a reservation. -/
def boundDevices (db : Db) (executionId : Uuid) : List GpuDevice :=
  (db.reservationGpuDevices.select
    (fun key link => key.1 = executionId ∧ link.releasedAt = none)).filterMap
      (fun row => db.gpuDevices.get? row.1.2)

/-- `assert_exact_device_binding`; comparing two sorted lists is comparing the
    lists up to order. -/
def assertExactDeviceBinding (executionId : Uuid)
    (reservation : ResourceReservation) : Txn Unit := do
  let db ← get
  if reservation.gpuCount = 0 ∨ reservation.legacyUnbound
      ∨ reservation.allocationAuthority ≠ .controlPlaneExactDevice then pure ()
  else
    let devices := boundDevices db executionId
    raiseIf ((devices.length : ℤ) ≠ reservation.gpuCount)
      (.resourceInvariantViolation ("exact-device reservation "
        ++ toString executionId ++ " has " ++ toString devices.length
        ++ " active bindings; expected " ++ toString reservation.gpuCount))
    raiseIf (devices = [] ∨ ∃ device ∈ devices,
        some device.vendor ≠ reservation.requestedVendor)
      (.resourceInvariantViolation ("exact-device reservation "
        ++ toString executionId ++ " binding vendor does not match request"))
    raiseIf (¬ ((reservation.observed.map (fun o => o.deviceIds)).getD []).Perm
        (devices.map (fun device => device.deviceUuid)))
      (.resourceInvariantViolation ("exact-device reservation "
        ++ toString executionId ++ " observation does not match bindings"))

/-! ## Releasing -/

/-- The worker counters after a reservation is given back. -/
def Worker.without (worker : Worker) (reservation : ResourceReservation) :
    Worker :=
  { worker with
    runningTasks := worker.runningTasks - 1
    reservedCpu := worker.reservedCpu - reservation.cpuMillicores / 1000
    reservedMemoryMb := worker.reservedMemoryMb - reservation.memoryMb
    reservedGpus := worker.reservedGpus - reservation.gpuCount
    version := worker.version + 1 }

/-- The tolerance of the CPU comparison. -/
def cpuTolerance : ℚ := 1 / 1000000000

/-- The guard of `release_and_settle`: the aggregate covers the reservation. -/
def Worker.Below (worker : Worker) (reservation : ResourceReservation) : Prop :=
  worker.runningTasks < 1
    ∨ worker.reservedCpu + cpuTolerance < reservation.cpuMillicores / 1000
    ∨ worker.reservedMemoryMb < reservation.memoryMb
    ∨ worker.reservedGpus < reservation.gpuCount
  deriving Decidable

/-- The worker step of `release_and_settle`. -/
def releaseWorker (reservation : ResourceReservation) : Txn Unit := do
  let db ← get
  match db.workers.get? reservation.workerId with
  | none => pure ()
  | some worker => do
      raiseIf (worker.Below reservation) (.resourceInvariantViolation
        ("worker " ++ reservation.workerId
          ++ " aggregate capacity is below active reservation"))
      modify fun db => { db with
        workers := db.workers.set reservation.workerId
          (worker.without reservation) }

/-- Give the links and the reservation a release time. -/
def releaseRows (now : Time) (executionId : Uuid)
    (reservation : ResourceReservation) (releaseReason : String) : Txn Unit :=
  modify fun db => { db with
    reservationGpuDevices := db.reservationGpuDevices.mapRows
      (fun key link =>
        if key.1 = executionId ∧ link.releasedAt = none
        then { link with releasedAt := some now } else link)
    reservations := db.reservations.set executionId { reservation with
      releasedAt := some now
      releaseReason := some releaseReason
      version := reservation.version + 1 } }

/-- The demand a reservation gives back to its project. -/
def ResourceReservation.demand (reservation : ResourceReservation) :
    ResourceDemand where
  cpuMillicores := reservation.cpuMillicores
  memoryMb := reservation.memoryMb
  gpuCount := reservation.gpuCount
  acceleratorVendor := reservation.requestedVendor.map AcceleratorVendor.value

/-- The ledger entry of an execution that ran from `startedAt` to `now`. -/
def ledgerEntry (taskId : Uuid) (reservation : ResourceReservation)
    (execution : TaskExecution) (startedAt now : Time) : UsageLedger :=
  let duration := max 0 (now - startedAt)
  let cpuSeconds := duration * execution.cpuMillicores / 1000
  let memoryGbSeconds := duration * execution.memoryMb / 1024
  let gpuSeconds := duration * execution.gpuCount
  { projectId := reservation.projectId
    taskId := taskId
    startedAt := startedAt
    finishedAt := now
    cpuSeconds := cpuSeconds
    memoryGbSeconds := memoryGbSeconds
    gpuSeconds := gpuSeconds
    gpuModel := execution.gpuModel
    cost := cpuSeconds * execution.prices.cpuPerHour / 3600
      + memoryGbSeconds * execution.prices.memoryPerGbHour / 3600
      + gpuSeconds * execution.prices.gpuPerHour / 3600 }

/-- The ledger step: `none` where nothing is settled, else the cost. -/
def settleLedger (now : Time) (taskId : Uuid) (executionId : Uuid)
    (reservation : ResourceReservation) (execution : TaskExecution)
    (startedAt : Option Time) : Txn (Option ℚ) := do
  let db ← get
  match startedAt with
  | none => pure none
  | some startedAt =>
    if (db.usageLedger.get? executionId).isSome then pure none
    else do
      let entry := ledgerEntry taskId reservation execution startedAt now
      raiseIf (now < startedAt) (.integrityError "period")
      modify fun db => { db with
        usageLedger := db.usageLedger.insert executionId entry }
      pure (some entry.cost)

/-- `release_and_settle`.  Returns whether there was something to release, and
    the task with the cost the release settled. -/
def releaseAndSettle (now : Time) (taskId : Uuid) (task : Task)
    (executionId : Uuid) (finalStatus : TaskStatus) (releaseReason : String) :
    Txn (Bool × Task) := do
  let db ← get
  match activeReservation db executionId with
  | none => pure (false, task)
  | some reservation => do
      let _ ← getLocked now reservation.projectId
      releaseWorker reservation
      releaseRows now executionId reservation releaseReason
      let execution ← expect (db.executions.get? executionId)
        (.resourceInvariantViolation ("execution " ++ toString executionId
          ++ " is missing for active reservation"))
      modify fun db => { db with
        executions := db.executions.set executionId { execution with
          status := finalStatus
          finishedAt := some now
          startedAt := if task.startedAt.isSome then task.startedAt
            else execution.startedAt } }
      let settled ← settleLedger now taskId executionId reservation execution
        task.startedAt
      let _ ← releaseQuota now reservation.projectId reservation.demand 0
        (settled.getD 0) (some reservation.createdAt.date)
      pure (true, { task with
        estimatedCost := if settled.isSome then settled else task.estimatedCost })

end MiniAiCloud
