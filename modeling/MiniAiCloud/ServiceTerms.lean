import MiniAiCloud.ReplicaProofs

/-! # The terms of a service

    What a service takes from its project is fixed by a few of its columns: the
    contract it was created under and the replicas it desires.  The calls of the
    reconciler, the controllers, the health checkers, the reaper and the gateway write
    rows of services all the time, but always the row they have just locked with its
    terms as they were (`ServiceOp.tends`); and they write no table besides services
    and replicas.

    Most of these calls save a row they read a few steps before.  So the rules below
    speak of the table `T` of terms, which does not change in between. -/

namespace MiniAiCloud

open Transaction Table

variable {now : Time} {service : ModelService} {serviceId x : Uuid} {timeout : ℚ}

/-! ## Terms -/

/-- What is agreed about a service when it is created; no vendor counts as NVIDIA. -/
structure ServiceContract where
  projectId : Uuid
  name : String
  cpuMillicores : ℤ
  memoryMb : ℤ
  gpuCount : ℤ
  vendor : AcceleratorVendor
  deriving DecidableEq

def ModelService.vendor (service : ModelService) : AcceleratorVendor :=
  (service.admission.map (·.selectedVendor)).getD .nvidia

def ModelService.contract (service : ModelService) : ServiceContract where
  projectId := service.projectId
  name := service.name
  cpuMillicores := service.cpuMillicores
  memoryMb := service.memoryMb
  gpuCount := service.gpuCount
  vendor := service.vendor

def ModelService.terms (service : ModelService) : ServiceContract × ℤ :=
  (service.contract, service.desiredReplicas)

def Db.terms (db : Db) : Table Uuid (ServiceContract × ℤ) :=
  db.modelServices.map ModelService.terms

/-- Everything but the services and their replicas. -/
def Db.backdrop (db : Db) : Db :=
  { db with modelServices := .empty, serviceReplicas := .empty }

theorem Db.terms_of_get? {db : Db} (h : db.modelServices.get? x = some service) :
    db.terms.get? x = some service.terms :=
  get?_map_of_some h ModelService.terms

/-! ## Calls that leave the terms alone -/

/-- Where the terms are `T`, the call leaves them so and writes no other table. -/
def Tends {α : Type} (T : Table Uuid (ServiceContract × ℤ)) (m : Txn α) : Prop :=
  ∀ db a db', m db = .ok a db' → db.terms = T → db'.terms = T ∧ db'.backdrop = db.backdrop

section Rules

variable {α β : Type} {T : Table Uuid (ServiceContract × ℤ)}

theorem Tends.bind {x : Txn α} {f : α → Txn β} (hx : Tends T x) (hf : ∀ a, Tends T (f a)) :
    Tends T (x >>= f) := by
  intro db b db' h hT
  obtain ⟨a, mid, hfirst, hr⟩ := bind_ok.mp h
  obtain ⟨hmid, hback⟩ := hx db a mid hfirst hT
  obtain ⟨hlast, hback'⟩ := hf a mid b db' hr hmid
  exact ⟨hlast, hback'.trans hback⟩

theorem Tends.of_reads {m : Txn α} (h : Reads m) : Tends T m := by
  intro _ _ _ hm hT
  rw [h.of_ok hm]
  exact ⟨hT, rfl⟩

/-- What is read has the terms `T`. -/
theorem Tends.get {f : Db → Txn β} (hf : ∀ db, db.terms = T → Tends T (f db)) :
    Tends T (MonadState.get >>= f) := by
  intro db b db' h hT
  rw [bind_get] at h
  exact hf db hT db b db' h hT

theorem Tends.ite {c : Prop} [Decidable c] {x y : Txn α} (hx : Tends T x) (hy : Tends T y) :
    Tends T (if c then x else y) := by
  split_ifs with hc
  · exact hx
  · exact hy

theorem Tends.void {m : Txn α} (h : Tends T m) : Tends T (void m) :=
  h.bind fun _ => .of_reads (.pure _)

/-- A write of the replicas alone. -/
theorem Tends.replicas (f : Db → Table Uuid ServiceReplica) :
    Tends T (modify fun db => { db with serviceReplicas := f db } : Txn Unit) := by
  intro _ _ _ h hT
  rw [modify_ok] at h
  subst h
  exact ⟨hT, rfl⟩

/-- The row of a service is saved with the terms it has. -/
theorem Tends.saveService (hterms : T.get? x = some service.terms) :
    Tends T (saveService x service) := by
  intro _ _ _ h hT
  rw [MiniAiCloud.saveService, modify_ok] at h
  subst h
  refine ⟨?_, rfl⟩
  rw [← hT] at hterms
  obtain ⟨_, hold, heq⟩ := get?_map_eq_some.mp hterms
  exact (map_set_eq hold heq.symm).trans hT

theorem Tends.refresh (hterms : T.get? x = some service.terms) :
    Tends T (refreshServiceStatus now x service) :=
  .get fun _ _ => .ite (.of_reads (.pure _)) (.saveService hterms)

theorem workerSessionMatches_reads (workerId : Option WorkerId) (session : Option Uuid) :
    Reads (workerSessionMatches workerId session) := by
  cases session with
  | none => exact .pure _
  | some session => exact .bind (.expect _ _) fun _ => .bind .get fun _ => .pure _

theorem Tends.sessionFenced {workerId : Option WorkerId} {session : Option Uuid}
    {body : Txn Bool} (h : Tends T body) : Tends T (sessionFenced workerId session body) :=
  .bind (.of_reads (workerSessionMatches_reads _ _)) fun _ => .ite h (.of_reads (.pure _))

theorem Tends.onReplica {replicaId : Uuid}
    {condition : ModelService → ServiceReplica → Bool}
    {body : ModelService → ServiceReplica → Txn Unit}
    (h : ∀ service replica, T.get? replica.serviceId = some service.terms →
      Tends T (body service replica)) : Tends T (onReplica replicaId condition body) := by
  refine .get fun db hT => ?_
  cases hrep : db.serviceReplicas.get? replicaId with
  | none =>
    simp only [lockServiceAndReplica, hrep]
    exact .of_reads (.pure _)
  | some replica =>
    cases hsvc : db.modelServices.get? replica.serviceId with
    | none =>
      simp only [lockServiceAndReplica, hrep, hsvc]
      exact .of_reads (.pure _)
    | some service =>
      simp only [lockServiceAndReplica, hrep, hsvc]
      have hterms : T.get? replica.serviceId = some service.terms := by
        rw [← hT]
        exact Db.terms_of_get? hsvc
      exact .ite ((h service replica hterms).bind fun _ => .of_reads (.pure _))
        (.of_reads (.pure _))

theorem validateEndpointUrl_reads (url : String) : Reads (validateEndpointUrl url) :=
  .check (.raiseIf _ _)

/-! ## The loops -/

theorem Tends.stopReplicas {reason : String} :
    ∀ rows, Tends T (stopReplicas now reason timeout rows)
  | [] => .of_reads (.pure _)
  | _ :: rest => (Tends.replicas _).bind fun _ =>
    (Tends.stopReplicas rest).bind fun _ => .of_reads (.pure _)

theorem Tends.createReplicas : ∀ rows, Tends T (createReplicas now serviceId service rows)
  | [] => .of_reads (.pure _)
  | _ :: rest => by
      refine Tends.bind ?_ fun _ => .createReplicas rest
      exact .get fun _ _ => .bind (.of_reads (.raiseIf _ _)) fun _ =>
        .bind (.of_reads (.raiseIf _ _)) fun _ => .bind (.of_reads (.raiseIf _ _)) fun _ =>
        .bind (.of_reads (.raiseIf _ _)) fun _ => .replicas _

theorem Tends.expireReplicas : ∀ rows, Tends T (expireReplicas now rows)
  | [] => .of_reads (.pure _)
  | _ :: rest => (Tends.replicas _).bind fun _ => Tends.expireReplicas rest

theorem Tends.recoverServices : ∀ services : List (Uuid × ModelService),
    (∀ row ∈ services, T.get? row.1 = some row.2.terms) → Tends T (recoverServices now services)
  | [], _ => .of_reads (.pure _)
  | row :: rest, hterms => .get fun _ _ => (Tends.expireReplicas _).bind fun _ =>
    .bind (.ite (.refresh (hterms row List.mem_cons_self)) (.of_reads (.pure _))) fun _ =>
    .bind (.recoverServices rest fun r hr => hterms r (List.mem_cons_of_mem _ hr))
      fun _ => .of_reads (.pure _)

/-! ## The calls -/

theorem Tends.reconcileLocked {mint : ℕ → Uuid} (hterms : T.get? serviceId = some service.terms) :
    Tends T (reconcileLocked now timeout serviceId service mint) :=
  .bind (.of_reads (.raiseIf _ _)) fun _ => .get fun _ _ => (Tends.stopReplicas _).bind fun _ =>
    .get fun _ _ => (Tends.stopReplicas _).bind fun _ => .get fun _ _ =>
    (Tends.stopReplicas _).bind fun _ => .get fun _ _ => (Tends.createReplicas _).bind fun _ =>
    .get fun _ _ => .bind (.ite (.saveService hterms) (.of_reads (.pure _))) fun _ =>
    .of_reads (.pure _)

theorem Tends.reconcileService {mint : ℕ → Uuid} :
    Tends T (reconcileService now timeout serviceId mint) := by
  refine .get fun db hT => ?_
  cases hsvc : db.modelServices.get? serviceId with
  | none => exact .of_reads (.pure _)
  | some service =>
    have hterms : T.get? serviceId = some service.terms := by
      rw [← hT]
      exact Db.terms_of_get? hsvc
    exact (Tends.reconcileLocked hterms).bind fun _ => .of_reads (.pure _)

theorem Tends.recoverExpiredLeases {limit : ℕ} {locked : List Uuid} :
    Tends T (recoverExpiredLeases now limit locked) := by
  refine .get fun db hT => (Tends.recoverServices _ fun row hrow => ?_).bind fun _ =>
    .of_reads (.pure _)
  have hsel := OrderedQuery.mem_of_mem_take hrow
  rw [← hT]
  exact Db.terms_of_get? (mem_select.mp hsel).1

theorem Tends.chooseHealthyEndpoint {projectId : Uuid} :
    Tends T (chooseHealthyEndpoint now serviceId projectId) := by
  refine .get fun db hT => ?_
  cases hsvc : (db.modelServices.get? serviceId).filter (fun service =>
      service.projectId = projectId ∧ service.desiredReplicas ≠ 0) with
  | none => exact .of_reads (.pure _)
  | some service =>
    have hget := (Option.filter_eq_some_iff.mp hsvc).1
    have hterms : T.get? serviceId = some service.terms := by
      rw [← hT]
      exact Db.terms_of_get? hget
    dsimp only
    cases roundRobin service.roundRobinCursor (healthyEndpoints db serviceId service) with
    | none => exact .of_reads (.pure _)
    | some =>
      exact (Tends.replicas _).bind fun _ => .bind (.saveService hterms) fun _ =>
        .of_reads (.pure _)

theorem Tends.releaseEndpointRequest {replicaId executionId : Uuid} {generation : ℤ} :
    Tends T (releaseEndpointRequest now replicaId generation executionId) := by
  refine .get fun db _ => ?_
  cases (lockServiceAndReplica db replicaId).2 with
  | none => exact .of_reads (.pure _)
  | some =>
    exact .ite ((Tends.replicas _).bind fun _ => .of_reads (.pure _)) (.of_reads (.pure _))

/-- A replica is written and the status of its service refreshed. -/
theorem Tends.saveRefresh {k : Uuid} {new : ServiceReplica}
    (hterms : T.get? x = some service.terms) :
    Tends T (do
      saveReplica k new
      refreshServiceStatus now x service : Txn Unit) :=
  (Tends.replicas _).bind fun _ => .refresh hterms

/-- **THE FRAME**: no call on replicas changes the terms of a service. -/
theorem ServiceOp.tends (now : Time) (op : ServiceOp) : Tends T (op.txn now) := by
  cases op with
  | reconcileLocked => exact .reconcileService
  | bindReplicaExecution =>
    exact .void <| .sessionFenced <| .onReplica fun _ _ _ =>
      .bind (.of_reads (.bind .get fun _ => .raiseIf _ _)) fun _ => .replicas _
  | renewReplicaLease =>
    exact .void <| .sessionFenced <| .onReplica fun _ _ _ => .replicas _
  | recordReplicaAssignment =>
    refine .void <| .bind (.of_reads (.bind (.raiseIf _ _) fun _ => .pure _)) fun _ =>
      .sessionFenced <| .onReplica fun _ replica _ => .bind (.of_reads (.raiseIf _ _)) fun _ => ?_
    cases replica.assignedNodeName with
    | none => exact .replicas _
    | some => exact .of_reads (.raiseIf _ _)
  | quarantineReplicaRuntime =>
    exact .void <| .sessionFenced <| .onReplica fun _ _ hterms => .saveRefresh hterms
  | markReplicaLoading _ url =>
    exact .void <| .sessionFenced <| .onReplica fun _ _ hterms =>
      .bind (.of_reads (validateEndpointUrl_reads url)) fun _ => .saveRefresh hterms
  | markReplicaRunning _ url =>
    exact .void <| .sessionFenced <| .onReplica fun _ _ hterms =>
      .bind (.of_reads (validateEndpointUrl_reads url)) fun _ =>
      .bind (.of_reads (.raiseIf _ _)) fun _ => .saveRefresh hterms
  | recordReplicaHealth =>
    exact .void <| .sessionFenced <| .onReplica fun _ _ hterms =>
      .bind (.of_reads (.raiseIf _ _)) fun _ => .bind (.of_reads (.raiseIf _ _)) fun _ =>
      .saveRefresh hterms
  | markReplicaTerminal =>
    exact .void <| .bind (.of_reads (.raiseIf _ _)) fun _ => .sessionFenced <|
      .onReplica fun _ _ hterms => .saveRefresh hterms
  | recoverExpiredLeases => exact .void .recoverExpiredLeases
  | chooseHealthyEndpoint => exact .void .chooseHealthyEndpoint
  | releaseEndpointRequest => exact .void .releaseEndpointRequest

/-- What a committed call leaves. -/
theorem Tends.commit {db : Db} {m : Txn α} (h : Tends db.terms m) :
    (commit m db).terms = db.terms ∧ (commit m db).backdrop = db.backdrop := by
  cases hm : m db with
  | ok a after =>
    rw [commit_of_ok hm]
    exact h db a after hm rfl
  | error =>
    rw [commit_of_error hm]
    exact ⟨rfl, rfl⟩

end Rules

end MiniAiCloud
