import MiniAiCloud.Reachability
import MiniAiCloud.Placement
import MiniAiCloud.Settlement
import MiniAiCloud.Workers

/-! # The control plane as a transition system

    The API, the schedulers, the reapers and the workers only meet in the
    database.  Each call is one transaction: it commits, or it raises and leaves
    nothing behind.  A run is any interleaving of such calls. -/

namespace MiniAiCloud

open Transaction Reachability

/-- A call of some process, with the values that process supplies.  Minted keys
    (`uuid4()`) and the rows locked by other transactions are among them. -/
inductive Op where
  -- workers and their controllers
  | register (workerId : WorkerId) (r : WorkerRegistration) (fresh : Uuid)
  | heartbeat (workerId : WorkerId) (session : Option Uuid)
  | drain (workerId : WorkerId) (reason : String)
  | setStatus (workerId : WorkerId) (status : WorkerStatus) (session : Option Uuid)
  | markStaleOffline (timeoutSeconds : ℚ) (limit : Option ℤ)
      (locked : List WorkerId)
  | replaceGpuInventory (workerId : WorkerId) (session : Uuid)
      (items : List InventoryItem)
  | transferExecutions (workerId : WorkerId) (newSession : Uuid)
      (leaseSeconds cleanupGraceSeconds : ℚ) (observations : List JobObservation)
  -- projects
  | initializeQuota (projectId : Uuid)
  | replaceQuota (projectId : Uuid) (limits : QuotaLimits)
  | replaceServiceCommitment (projectId : Uuid) (current desired : ℤ)
      (demand : ResourceDemand)
  -- users
  | createQueued (taskId : Uuid) (s : TaskSubmission)
  | createGroup (groupId projectId : Uuid) (name retryPolicy : String)
      (dependencies : List DependencySpec)
  | addDependency (projectId groupId : Uuid) (d : DependencySpec)
  | cancel (taskId : Uuid)
  -- schedulers
  | resolveDependencyReadiness (locked : List Uuid) (limit : ℕ)
  | claim (taskId : Uuid) (workerId : WorkerId) (executionId : Uuid)
      (leaseSeconds : ℚ) (session : Option Uuid) (prices : Prices)
      (locked : List Uuid)
  | place (taskId : Uuid) (workerId : WorkerId) (executionId : Uuid)
      (request : PlacementRequest)
  | markUnschedulable (taskId : Uuid) (reason : String)
  | requestPreemption (incomingTaskId : Uuid) (workers : List WorkerSnapshot)
      (effectivePriority minPriorityDelta : ℤ) (locked : List Uuid)
  | takeGlobalAssignment (workerId : WorkerId) (session : Uuid)
      (leaseSeconds : ℚ) (locked : List Uuid)
  -- executions
  | markPulling (c : Caller) (leaseSeconds cleanupGraceSeconds : ℚ)
  | markStarting (c : Caller) (leaseSeconds cleanupGraceSeconds : ℚ)
  | markRunning (c : Caller) (leaseSeconds cleanupGraceSeconds : ℚ)
  | recordRuntimeHandle (c : Caller) (o : RuntimeObservation)
      (cleanupGraceSeconds : ℚ)
  | advanceRuntimeLogCursor (c : Caller) (cursorBytes : ℤ)
      (resourceName resourceUid specHash : String)
  | appendLog (taskId : Uuid) (executionId : Option Uuid) (stream : LogStream)
      (content : String) (workerId : Option WorkerId) (session : Option Uuid)
  | renewLease (c : Caller) (leaseSeconds cleanupGraceSeconds : ℚ)
  | preserveKubernetesHandoffLease (c : Caller) (cleanupGraceSeconds : ℤ)
  | finishExecution (c : Caller) (report : Report)
  -- reapers
  | releaseDueRetries (locked : List Uuid) (limit : ℕ)
  | recoverExpired (locked : List Uuid) (limit : ℕ) (maxRecoveryAttempts : ℤ)
      (cleanupGraceSeconds : ℚ)

/-- The body of a call. -/
def Op.run (now : Time) : Op → Txn Unit
  | .register w r fresh => MiniAiCloud.register now w r fresh
  | .heartbeat w session => void (MiniAiCloud.heartbeat now w session)
  | .drain w reason => void (MiniAiCloud.drain w reason)
  | .setStatus w status session =>
    void (MiniAiCloud.setStatus now w status session)
  | .markStaleOffline timeout limit locked =>
    void (MiniAiCloud.markStaleOffline now timeout limit locked)
  | .replaceGpuInventory w session items =>
    void (MiniAiCloud.replaceGpuInventory now w session items)
  | .transferExecutions w session lease grace observations =>
    void (transferRecoverableKubernetesExecutions now w session lease grace
      observations)
  | .initializeQuota p => void (MiniAiCloud.initializeQuota now p)
  | .replaceQuota p limits => void (MiniAiCloud.replaceQuota now p limits)
  | .replaceServiceCommitment p current desired demand =>
    void (MiniAiCloud.replaceServiceCommitment now p current desired demand)
  | .createQueued t s => void (MiniAiCloud.createQueued now t s)
  | .createGroup g p name policy dependencies =>
    MiniAiCloud.createGroup now g p name policy dependencies
  | .addDependency p g d => MiniAiCloud.addDependency p g d
  | .cancel t => void (MiniAiCloud.cancel now t)
  | .resolveDependencyReadiness locked limit =>
    void (MiniAiCloud.resolveDependencyReadiness now locked limit)
  | .claim t w x lease session prices locked =>
    void (MiniAiCloud.claim now t w x lease session prices locked)
  | .place t w x request => void (MiniAiCloud.place now t w x request)
  | .markUnschedulable t reason => void (MiniAiCloud.markUnschedulable t reason)
  | .requestPreemption t workers priority delta locked =>
    void (MiniAiCloud.requestPreemption now t workers priority delta locked)
  | .takeGlobalAssignment w session lease locked =>
    void (MiniAiCloud.takeGlobalAssignment now w session lease locked)
  | .markPulling c lease grace => void (MiniAiCloud.markPulling now c lease grace)
  | .markStarting c lease grace =>
    void (MiniAiCloud.markStarting now c lease grace)
  | .markRunning c lease grace => void (MiniAiCloud.markRunning now c lease grace)
  | .recordRuntimeHandle c o grace =>
    void (MiniAiCloud.recordRuntimeHandle now c o grace)
  | .advanceRuntimeLogCursor c cursor name uid hash =>
    void (MiniAiCloud.advanceRuntimeLogCursor c cursor name uid hash)
  | .appendLog t x stream content w session =>
    void (MiniAiCloud.appendLog now t x stream content w session)
  | .renewLease c lease grace => void (MiniAiCloud.renewLease now c lease grace)
  | .preserveKubernetesHandoffLease c grace =>
    void (MiniAiCloud.preserveKubernetesHandoffLease now c grace)
  | .finishExecution c report => void (MiniAiCloud.finishExecution now c report)
  | .releaseDueRetries locked limit =>
    void (MiniAiCloud.releaseDueRetries now locked limit)
  | .recoverExpired locked limit attempts grace =>
    void (MiniAiCloud.recoverExpired now locked limit attempts grace)

/-- One call at one moment of the database clock. -/
structure Call where
  now : Time
  op : Op

/-- **THE CONTROL PLANE**: it starts from a database that knows its projects
    and nothing else, and every step is one transaction. -/
def controlPlane : System Db Call where
  init db := ∃ projects, db = Db.ofProjects projects
  step i db := commit (i.op.run i.now) db

end MiniAiCloud
