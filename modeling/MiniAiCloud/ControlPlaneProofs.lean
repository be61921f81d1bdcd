import MiniAiCloud.ControlPlane
import MiniAiCloud.PlacementRefinement
import MiniAiCloud.RecoveryRefinement
import MiniAiCloud.RegistryRefinement

/-! # Every run of the control plane follows the cluster

    The refinement theorem over all calls (`Op.follows`), and from it the two
    rules the results about runs are proved with: what the steps of the cluster
    keep holds in every reachable state (`reach_keeps`) and survives every
    continuation (`Steps.follows`). -/

namespace MiniAiCloud

open Transaction Reachability Cluster

/-! ## The rules a call keeps to -/

/-- What a call has to promise so that it follows the cluster under these
    rules; only three kinds of calls have to promise something. -/
def Op.Keeps (R : Rules) (db : Db) : Op → Prop
  | .register w _ _ => db.workers.get? w ≠ none → R.rejoin w
  | .claim t _ _ _ _ _ _ => ∀ task, db.tasks.get? t = some task →
      R.charge task.cpuMillicores task.cpuLimit
  | .finishExecution c report => ∀ task, currentTask db c = some task →
      R.target (task.outcome report).target
  | _ => True

/-- The calls that keep to the rules, as the label condition of a run. -/
def keepsTo (R : Rules) (i : Call) (db : Db) : Prop := i.op.Keeps R db

/-- **REFINEMENT OF EVERY CALL**: a call that commits follows the cluster. -/
theorem Op.follows {R : Rules} {now : Time} {op : Op} {db db' : Db} {u : Unit}
    (hlife : Lifecycle db.cluster) (hkeeps : op.Keeps R db)
    (h : op.run now db = .ok u db') : Follows R db db' := by
  cases op with
  | register => exact register_follows hkeeps h
  | heartbeat w session => exact void_elim h fun _ => heartbeat_follows
  | drain w reason => exact void_elim h fun _ => drain_follows
  | setStatus w status session => exact void_elim h fun _ => setStatus_follows
  | markStaleOffline timeout limit locked => exact void_elim h fun _ => markStaleOffline_follows
  | replaceGpuInventory w session items => exact void_elim h fun _ => replaceGpuInventory_follows
  | transferExecutions =>
    exact void_elim h fun _ => transferRecoverableKubernetesExecutions_follows
  | initializeQuota p => exact void_elim h fun _ => initializeQuota_follows
  | replaceQuota p limits => exact void_elim h fun _ => replaceQuota_follows
  | replaceServiceCommitment =>
    exact void_elim h fun _ => replaceServiceCommitment_follows
  | createQueued t s => exact void_elim h fun _ => createQueued_follows
  | createGroup => exact createGroup_follows h
  | addDependency => exact addDependency_follows h
  | cancel t => exact void_elim h fun _ => cancel_follows hlife
  | resolveDependencyReadiness =>
    exact void_elim h fun _ => resolveDependencyReadiness_follows
  | claim =>
    exact void_elim h fun _ => claim_follows hlife hkeeps
  | place t w x request => exact void_elim h fun _ => place_follows hlife
  | markUnschedulable t reason => exact void_elim h fun _ => markUnschedulable_follows
  | requestPreemption =>
    exact void_elim h fun _ => requestPreemption_follows
  | takeGlobalAssignment =>
    exact void_elim h fun _ => takeGlobalAssignment_follows
  | markPulling c lease grace => exact void_elim h fun _ => markPulling_follows
  | markStarting c lease grace => exact void_elim h fun _ => markStarting_follows
  | markRunning c lease grace => exact void_elim h fun _ => markRunning_follows
  | recordRuntimeHandle c o grace => exact void_elim h fun _ => recordRuntimeHandle_follows
  | advanceRuntimeLogCursor =>
    exact void_elim h fun _ => advanceRuntimeLogCursor_follows
  | appendLog t x stream content w session => exact void_elim h fun _ => appendLog_follows
  | renewLease c lease grace => exact void_elim h fun _ => renewLease_follows
  | preserveKubernetesHandoffLease =>
    exact void_elim h fun _ => preserveKubernetesHandoffLease_follows
  | finishExecution c report => exact void_elim h fun _ => finishExecution_follows hlife hkeeps
  | releaseDueRetries locked limit => exact void_elim h fun _ => releaseDueRetries_follows hlife
  | recoverExpired =>
    exact void_elim h fun _ => recoverExpired_follows hlife

/-- A step of the control plane: a call that raises leaves nothing behind. -/
theorem step_follows {R : Rules} {i : Call} {db : Db} (hlife : Lifecycle db.cluster)
    (hkeeps : keepsTo R i db) : Follows R db (controlPlane.step i db) := by
  show Follows R db (commit (i.op.run i.now) db)
  rw [commit]
  cases hrun : i.op.run i.now db with
  | ok => exact Op.follows hlife hkeeps hrun
  | error => exact .refl db

/-! ## Runs -/

/-- The cluster of a database that knows only its projects. -/
def Cluster.empty : Cluster := ⟨.empty, .empty, .empty, .empty, .empty, .empty, .empty⟩

theorem Cluster.Lifecycle.empty : Lifecycle Cluster.empty := by
  refine ⟨?_, ?_, ?_⟩
  · intro _ _ h
    cases h
  · intro _ _ h
    cases h
  · intro t d g h
    cases h

/-- **RUNS**: what holds in the empty cluster and survives every step holds in
    every reachable state. -/
theorem reach_keeps {R : Rules} {I : Cluster → Prop} {ok : Call → Db → Prop}
    (hok : ∀ i db, ok i db → keepsTo R i db) (hinit : I Cluster.empty)
    (hstep : ∀ a b, Lifecycle a → I a → Step R a b → I b) {db : Db}
    (h : Reach controlPlane ok db) : Lifecycle db.cluster ∧ I db.cluster := by
  refine h.invariant (I := fun s => Lifecycle s.cluster ∧ I s.cluster) ?_ ?_
  · rintro _ ⟨_, rfl⟩
    exact ⟨Lifecycle.empty, hinit⟩
  · intro i s hs hi
    have hboth : ∀ a b, Lifecycle a ∧ I a → Step R a b → Lifecycle b ∧ I b :=
      fun a b ha hab => ⟨ha.1.step hab, hstep a b ha.1 ha.2 hab⟩
    exact (step_follows hs.1 (hok i s hi)).keeps hboth hs

/-- **CONTINUATIONS** follow the cluster. -/
theorem steps_follow {R : Rules} {ok : Call → Db → Prop}
    (hok : ∀ i db, ok i db → keepsTo R i db) {db db' : Db}
    (hlife : Lifecycle db.cluster) (h : Reachability.Steps controlPlane ok db db') :
    Follows R db db' := by
  induction h with
  | refl => exact .refl db
  | step i _ hi ih => exact ih.trans (step_follows (ih.lifecycle hlife) (hok i _ hi))

/-! ## The rules the results are about -/

/-- Nothing is promised: any report, any charge, any worker again. -/
def anyRules : Rules where
  target _ := True
  charge _ _ := True
  rejoin _ := True
  final_target _ _ := trivial
  whole_charge _ := trivial

/-- Reports are final; `rejoin` says which workers may register again. -/
def reportedRules (rejoin : WorkerId → Prop) : Rules where
  target s := s ∈ finalTaskStatuses
  charge _ _ := True
  rejoin := rejoin
  final_target _ h := h
  whole_charge _ := trivial

/-- Reports are final and a claim charges whole millicores. -/
def wholeRules : Rules where
  target s := s ∈ finalTaskStatuses
  charge m c := c = m / 1000
  rejoin _ := True
  final_target _ h := h
  whole_charge _ := rfl

/-- The status a worker reports. -/
def Op.reported : Op → Option TaskStatus
  | .finishExecution _ report => some report.target
  | _ => none

/-- A worker reports nothing but final statuses. -/
def Op.ReportsFinal (op : Op) : Prop := ∀ s ∈ op.reported, s ∈ finalTaskStatuses
  deriving Decidable

/-- The task a worker claims. -/
def Op.claimed : Op → Option Uuid
  | .claim t _ _ _ _ _ _ => some t
  | _ => none

/-- A worker claims a task whose CPU limit is a whole number of millicores. -/
def Op.ClaimsWhole (db : Db) (op : Op) : Prop :=
  ∀ t ∈ op.claimed, ∀ task ∈ db.tasks.get? t, task.cpuLimit = task.cpuMillicores / 1000
  deriving Decidable

theorem anyRules_keeps (i : Call) (db : Db) : keepsTo anyRules i db := by
  show i.op.Keeps anyRules db
  cases i.op with
  | register w r fresh => exact fun _ => trivial
  | claim t w x lease session prices locked | finishExecution c report => exact fun _ _ => trivial
  | _ => trivial

/-- What a report comes to is final where the report is. -/
theorem Task.outcome_final {task : Task} {report : Report} (h : report.target ∈ finalTaskStatuses) :
    (task.outcome report).target ∈ finalTaskStatuses := by
  rw [Task.outcome]
  by_cases hcncl : task.CancellationRequested
  · rw [if_pos hcncl]
    show TaskStatus.cancelled ∈ finalTaskStatuses
    decide
  rw [if_neg hcncl]
  by_cases hpre : task.status = .preempting
  · rw [if_pos hpre]
    show TaskStatus.preempted ∈ finalTaskStatuses
    decide
  rw [if_neg hpre]
  by_cases hcat : report.errorCategory = none
  · rw [if_pos hcat]
    exact h
  · rw [if_neg hcat]
    exact h

theorem reportedRules_keeps {i : Call} {db : Db} (h : i.op.ReportsFinal) :
    keepsTo (reportedRules (fun _ => True)) i db := by
  revert h
  show i.op.ReportsFinal → i.op.Keeps (reportedRules (fun _ => True)) db
  cases i.op with
  | register w r fresh => exact fun _ _ => trivial
  | claim t w x lease session prices locked => exact fun _ _ _ => trivial
  | finishExecution c report => exact fun h task _ => Task.outcome_final (h _ rfl)
  | _ => exact fun _ => trivial

theorem wholeRules_keeps {i : Call} {db : Db} (h : i.op.ReportsFinal)
    (hwhole : i.op.ClaimsWhole db) : keepsTo wholeRules i db := by
  revert h hwhole
  show i.op.ReportsFinal → i.op.ClaimsWhole db → i.op.Keeps wholeRules db
  cases i.op with
  | register w r fresh => exact fun _ _ _ => trivial
  | claim t w x lease session prices locked => exact fun _ h => h t rfl
  | finishExecution c report => exact fun h _ task _ => Task.outcome_final (h _ rfl)
  | _ => exact fun _ _ => trivial

end MiniAiCloud
