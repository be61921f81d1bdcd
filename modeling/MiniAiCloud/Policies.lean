import Mathlib.Data.List.Sort
import MiniAiCloud.Schema

/-! # Scheduling policies

    Whether a worker can take a task, decided on immutable snapshots of both.
    The scheduler uses it to choose a placement and `place` repeats it on the
    locked rows. -/

namespace MiniAiCloud

/-- `RejectionReason`, the reasons `evaluate_snapshot` gives. -/
inductive RejectionReason where
  | workerNotOnline | workerOvercommitted | workerAtCapacity | runtimeMismatch
  | insufficientCpu | insufficientMemory | labelMismatch | taintNotTolerated
  | gpuModelMismatch | insufficientGpuMemory | insufficientGpu
  deriving DecidableEq, Repr

def RejectionReason.value : RejectionReason → String
  | workerNotOnline => "worker_not_online"
  | workerOvercommitted => "worker_overcommitted"
  | workerAtCapacity => "worker_at_capacity"
  | runtimeMismatch => "runtime_mismatch"
  | insufficientCpu => "insufficient_cpu"
  | insufficientMemory => "insufficient_memory"
  | labelMismatch => "label_mismatch"
  | taintNotTolerated => "taint_not_tolerated"
  | gpuModelMismatch => "gpu_model_mismatch"
  | insufficientGpuMemory => "insufficient_gpu_memory"
  | insufficientGpu => "insufficient_gpu"

structure GpuDeviceSnapshot where
  id : Uuid
  uuid : String
  model : String
  memoryTotalMb : ℤ
  memoryFreeMb : Option ℤ := none
  healthy : Bool := true
  allocated : Bool := false

structure WorkerSnapshot where
  id : WorkerId
  status : WorkerStatus
  runtimeTypes : List String
  runningTasks : ℤ
  concurrency : ℤ
  cpuAllocatableMillicores : ℤ
  reservedCpuMillicores : ℤ
  memoryAllocatableMb : ℤ
  reservedMemoryMb : ℤ
  labels : List (String × String) := []
  taints : List Taint := []
  gpuDevices : List GpuDeviceSnapshot := []
  overcommitted : Bool := false

/-- A task snapshot, the fields `evaluate_snapshot` reads. -/
structure TaskSnapshot where
  runtimeType : String
  cpuMillicores : ℤ
  memoryMb : ℤ
  gpuCount : ℤ
  gpuMemoryMb : ℤ := 0
  gpuModel : Option String := none
  labels : List (String × String) := []
  tolerations : List Toleration := []

/-- `labels_match`. -/
def LabelsMatch (required offered : List (String × String)) : Prop :=
  ∀ label ∈ required, offered.lookup label.1 = some label.2
  deriving Decidable

/-- A toleration without a value tolerates every value of the key. -/
def Toleration.Tolerates (toleration : Toleration) (taint : Taint) : Prop :=
  toleration.key = taint.key
    ∧ (toleration.value = none ∨ toleration.value = taint.value)
  deriving Decidable

/-- `_taints_tolerated`; a taint without an effect is `NoSchedule`. -/
def TaintsTolerated (taints : List Taint) (tolerations : List Toleration) :
    Prop :=
  ∀ taint ∈ taints, taint.effect.getD "NoSchedule" = "NoSchedule" →
    ∃ toleration ∈ tolerations, toleration.Tolerates taint
  deriving Decidable

/-- `_available_gpu_memory_mb`. -/
def GpuDeviceSnapshot.availableMemoryMb (device : GpuDeviceSnapshot) : ℤ :=
  device.memoryFreeMb.getD device.memoryTotalMb

/-- Best fit first: by free memory, total memory and device UUID. -/
def GpuDeviceSnapshot.FitsBefore (a b : GpuDeviceSnapshot) : Prop :=
  a.availableMemoryMb < b.availableMemoryMb
    ∨ a.availableMemoryMb = b.availableMemoryMb
      ∧ (a.memoryTotalMb < b.memoryTotalMb
        ∨ a.memoryTotalMb = b.memoryTotalMb ∧ a.uuid ≤ b.uuid)
  deriving Decidable

/-- `items[:n]`; a negative `n` counts from the end. -/
def firstOf {α : Type} (items : List α) (n : ℤ) : List α :=
  items.take (if 0 ≤ n then n.toNat else items.length - n.natAbs)

/-- The device part of `evaluate_snapshot`. -/
def evaluateDevices (devices : List GpuDeviceSnapshot) (task : TaskSnapshot) :
    Except RejectionReason (List Uuid) := do
  let available := devices.filter (fun d => d.healthy && !d.allocated)
  let wantsModel := task.gpuModel ≠ none ∧ task.gpuModel ≠ some ""
  let modelDevices := available.filter (fun d => some d.model = task.gpuModel)
  if wantsModel ∧ (modelDevices.length : ℤ) < task.gpuCount then
    throw .gpuModelMismatch
  let available := if wantsModel then modelDevices else available
  let memoryDevices := available.filter
    (fun d => task.gpuMemoryMb ≤ d.availableMemoryMb)
  if task.gpuMemoryMb ≠ 0 ∧ (memoryDevices.length : ℤ) < task.gpuCount then
    throw .insufficientGpuMemory
  let available := if task.gpuMemoryMb ≠ 0 then memoryDevices else available
  if (available.length : ℤ) < task.gpuCount then throw .insufficientGpu
  let ordered := available.insertionSort GpuDeviceSnapshot.FitsBefore
  pure ((firstOf ordered task.gpuCount).map (fun d => d.id))

/-- `evaluate_snapshot`: the devices to bind, or why the worker is refused. -/
def evaluateSnapshot (worker : WorkerSnapshot) (task : TaskSnapshot) :
    Except RejectionReason (List Uuid) := do
  if worker.status ≠ .online then throw .workerNotOnline
  if worker.overcommitted then throw .workerOvercommitted
  if worker.concurrency ≤ worker.runningTasks then throw .workerAtCapacity
  if task.runtimeType ∉ worker.runtimeTypes then throw .runtimeMismatch
  if worker.cpuAllocatableMillicores
      < worker.reservedCpuMillicores + task.cpuMillicores then
    throw .insufficientCpu
  if worker.memoryAllocatableMb < worker.reservedMemoryMb + task.memoryMb then
    throw .insufficientMemory
  if ¬ LabelsMatch task.labels worker.labels then throw .labelMismatch
  if ¬ TaintsTolerated worker.taints task.tolerations then
    throw .taintNotTolerated
  evaluateDevices worker.gpuDevices task

/-- `task_snapshot`. -/
def taskSnapshot (task : Task) : TaskSnapshot where
  runtimeType := task.runtimeType.value
  cpuMillicores := task.cpuMillicores
  memoryMb := task.memoryLimitMb
  gpuCount := task.gpuCount
  gpuMemoryMb := task.gpuMemoryMb
  gpuModel := task.gpuModel
  labels := task.labels
  tolerations := task.tolerations

/-- `worker_snapshot`. -/
def workerSnapshot (workerId : WorkerId) (worker : Worker)
    (devices : List GpuDeviceSnapshot) : WorkerSnapshot where
  id := workerId
  status := worker.status
  runtimeTypes := worker.runtimeTypes
  runningTasks := worker.runningTasks
  concurrency := worker.concurrency
  cpuAllocatableMillicores := worker.cpuAllocatableMillicores
  reservedCpuMillicores := pyRound (worker.reservedCpu * 1000)
  memoryAllocatableMb := worker.memoryAllocatableMb
  reservedMemoryMb := worker.reservedMemoryMb
  labels := worker.labels
  taints := worker.taints
  gpuDevices := devices
  overcommitted := worker.overcommitted

end MiniAiCloud
