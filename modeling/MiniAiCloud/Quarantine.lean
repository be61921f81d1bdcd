import MiniAiCloud.ReplicaProofs

/-! # Health probes and quarantined replicas

    A drifted execution is quarantined: its replica is marked unhealthy with an error code
    and without an endpoint, and stays nonterminal, since it may still own its accelerators.
    The mark has no column of its own.  A prober claims a running replica by a token, asks
    its endpoint and reports later, so a report may be older than the quarantine.

    A stopped, failed or lost replica and an expired one lose the token together with the
    endpoint; a quarantined one loses the endpoint only.  Where no token was out, nothing but
    the controller itself can erase the mark: the other calls find the wrong status, a token
    that does not match, or no endpoint to probe. -/

namespace MiniAiCloud

open Transaction OrderedQuery Reachability Table Option

variable {now : Time} {k serviceId : Uuid} {fence : ReplicaFence}
  {new old : ServiceReplica} {rows : List (Uuid × ServiceReplica)} {service : ModelService}
  {timeout : ℚ}

/-! ## The prober -/

/-- The settings of `ServiceHealthChecker` that a claim reads. -/
structure ProbeSettings where
  intervalSeconds : ℚ
  claimSeconds : ℚ
  batchSize : ℕ

structure HealthProbe where
  replicaId : Uuid
  generation : ℤ
  executionId : Uuid
  endpointUrl : String
  token : Uuid

/-- The replica is due for a probe, and no other probe of it is out. -/
def ServiceReplica.ProbeDue (replica : ServiceReplica) (now : Time) (settings : ProbeSettings)
    (service : ModelService) : Prop :=
  replica.generation = service.generation ∧ replica.status = .running
    ∧ replica.executionId ≠ none ∧ replica.endpointUrl ≠ none ∧ replica.endpointUrl ≠ some ""
    ∧ 0 < service.desiredReplicas
    ∧ (∀ last ∈ replica.lastHealthAt, last ≤ now - settings.intervalSeconds)
    ∧ (∀ expiry ∈ replica.healthProbeExpiresAt, expiry < now)
  deriving Decidable

/-- The query of `_claim_probes`: never probed replicas first, then by the last probe and
    the id; rows locked by others are skipped. -/
def dueProbes (db : Db) (now : Time) (settings : ProbeSettings) (locked : List Uuid) :
    List (Uuid × ServiceReplica) :=
  (orderBy (fun row : Uuid × ServiceReplica =>
      toLex (row.2.lastHealthAt.isSome, toLex (row.2.lastHealthAt.getD 0, row.1)))
    (db.serviceReplicas.select (fun replicaId replica => replicaId ∉ locked
      ∧ ∃ service ∈ db.modelServices.get? replica.serviceId,
          replica.ProbeDue now settings service))).take settings.batchSize

/-- The loop of `_claim_probes`; `mint` gives the tokens. -/
def claimEach (now : Time) (settings : ProbeSettings) (mint : Uuid → Uuid) :
    List (Uuid × ServiceReplica) → Txn (List HealthProbe)
  | [] => pure []
  | (replicaId, replica) :: rest => do
      saveReplica replicaId { replica with
        healthProbeToken := some (mint replicaId)
        healthProbeExpiresAt := some (now + settings.claimSeconds) }
      let probes ← claimEach now settings mint rest
      match replica.executionId, replica.endpointUrl with
      | some executionId, some url =>
        pure (⟨replicaId, replica.generation, executionId, url, mint replicaId⟩ :: probes)
      | _, _ => pure probes

/-- `ServiceHealthChecker._claim_probes`. -/
def claimProbes (now : Time) (settings : ProbeSettings) (locked : List Uuid)
    (mint : Uuid → Uuid) : Txn (List HealthProbe) := do
  let db ← get
  claimEach now settings mint (dueProbes db now settings locked)

/-- A call of the serving plane, a claim of the prober, or what the rest of the platform does
    to the services and the workers. -/
inductive MonitorCall where
  | call (now : Time) (op : ServiceOp)
  | claimProbes (now : Time) (settings : ProbeSettings) (locked : List Uuid)
      (mint : Uuid → Uuid)
  | elsewhere (services : Table Uuid ModelService) (workers : Table WorkerId Worker)

/-- The serving plane with its prober. -/
def monitored : System Db MonitorCall where
  init db := db.serviceReplicas = .empty
  step
    | .call now op, db => commit (op.txn now) db
    | .claimProbes now settings locked mint, db =>
      commit (MiniAiCloud.claimProbes now settings locked mint) db
    | .elsewhere services workers, db =>
      { db with modelServices := services, workers := workers }

/-! ## What a call does to one row -/

/-- The row of a replica has a property. -/
def RowIs (P : ServiceReplica → Prop) (x : Uuid) (db : Db) : Prop :=
  ∃ replica, db.serviceReplicas.get? x = some replica ∧ P replica

section Rows

variable {P : ServiceReplica → Prop} {x : Uuid} {db db' : Db}

theorem RowIs.of_same (h : RowIs P x db) (heq : db'.serviceReplicas = db.serviceReplicas) :
    RowIs P x db' := by
  obtain ⟨replica, hget, hP⟩ := h
  exact ⟨replica, by rw [heq]; exact hget, hP⟩

/-- A property that survives each write survives the call. -/
theorem RowWrites.rowIs {W : Uuid → ServiceReplica → ServiceReplica → Prop}
    {t t' : Table Uuid ServiceReplica} (h : RowWrites W t t')
    (hkeeps : ∀ old new, W x old new → P old → P new) :
    ∀ {db db' : Db}, db.serviceReplicas = t → db'.serviceReplicas = t' → RowIs P x db →
      RowIs P x db' := by
  induction h with
  | done h =>
    rintro db db' rfl rfl ⟨replica, hget, hP⟩
    exact ⟨replica, h.old x replica hget, hP⟩
  | @set t _ k old new hold hwr _ ih =>
    rintro db db' rfl hdb' ⟨replica, hget, hP⟩
    have hmid : RowIs P x { db with serviceReplicas := db.serviceReplicas.set k new } := by
      by_cases hx : x = k
      · subst hx
        obtain rfl := mem_unique hold hget
        exact ⟨new, get?_set_self hget new, hkeeps old new hwr hP⟩
      · exact ⟨replica, (get?_set_ne _ _ hx).trans hget, hP⟩
    exact ih rfl hdb' hmid

theorem RowIs.commit {α : Type} {m : Txn α} (h : RowIs P x db)
    (hreturns : ∀ a db', m db = .ok a db' → RowIs P x db') : RowIs P x (commit m db) := by
  cases hm : m db with
  | ok a after =>
    rw [commit_of_ok hm]
    exact hreturns a after hm
  | error =>
    rw [commit_of_error hm]
    exact h

end Rows

/-! ## Quarantine -/

/-- The mark of a quarantine, on a replica that no probe is out for; the lease is a part of
    the mark where the controller does not renew it. -/
def Quarantined (renews : Bool) (replica : ServiceReplica) : Prop :=
  replica.health = .unhealthy ∧ replica.errorCode ≠ none ∧ replica.endpointUrl = none
    ∧ replica.executionId ≠ none ∧ replica.healthProbeToken = none
    ∧ (renews = false → replica.leaseExpiresAt = none)

/-- The replica has ended, or is quarantined. -/
def Withdrawn (renews : Bool) (replica : ServiceReplica) : Prop :=
  replica.status ∉ nonterminalReplicaStatuses ∨ Quarantined renews replica

/-- `_is_persistently_quarantined`: how a controller recognises a quarantine. -/
def IsPersistentlyQuarantined (replica : ServiceReplica) : Prop :=
  replica.executionId ≠ none ∧ replica.leaseExpiresAt = none ∧ replica.health = .unhealthy
    ∧ replica.endpointUrl = none ∧ replica.errorCode ≠ none

/-- The calls by which the controller of a replica lifts its quarantine: to bind it again, to
    report it loading or running, to report it healthy on its own account and, where that
    counts, to renew its lease. -/
def ServiceOp.readmits (renews : Bool) (x : Uuid) : ServiceOp → Bool
  | renewReplicaLease fence _ => fence.replicaId = x && renews = false
  | bindReplicaExecution replicaId _ _ _ _ _ => replicaId = x
  | markReplicaLoading fence _ => fence.replicaId = x
  | markReplicaRunning fence _ _ _ => fence.replicaId = x
  | recordReplicaHealth fence health _ _ token =>
    fence.replicaId = x && health = .healthy && token = none
  | _ => false

/-- A step does not readmit the replica: it makes none of these calls, or the fences refuse
    it. -/
def LeavesOut (renews : Bool) (x : Uuid) (i : MonitorCall) (db : Db) : Prop :=
  match i with
  | .call now op => op.readmits renews x = true → commit (op.txn now) db = db
  | _ => True

section Withdrawal

variable {renews : Bool} {x : Uuid} {db db' : Db} {replica : ServiceReplica}

theorem Withdrawn.stop (h : Withdrawn renews replica) (now : Time) (reason : String) (timeout : ℚ)
    (hst : replica.status ∈ nonterminalReplicaStatuses) :
    Withdrawn renews (requestReplicaStop now reason timeout replica).1 := by
  obtain hended | ⟨hhl, hcode, hurl, hexec, htoken, hlease⟩ := h
  · exact absurd hst hended
  rw [requestReplicaStop]
  by_cases hdrn : replica.status ∈ [ReplicaStatus.draining, .stopping]
  · rw [if_pos hdrn]
    exact .inr ⟨hhl, hcode, hurl, hexec, htoken, hlease⟩
  rw [if_neg hdrn, if_neg (fun hpend => hexec hpend.2)]
  split_ifs with hrng
  · exact .inr ⟨hhl, hcode, hurl, hexec, htoken, hlease⟩
  · exact .inr ⟨rfl, hcode, rfl, hexec, htoken, hlease⟩

theorem withdrawn_expired (now : Time) : Withdrawn renews (replica.expired now) := by
  refine .inl ?_
  show (if replica.status ∈ [ReplicaStatus.draining, .stopping] then ReplicaStatus.stopped
    else .lost) ∉ nonterminalReplicaStatuses
  split_ifs
  · decide
  · decide

/-- A probe that was claimed before does not match, and the controller does not report the
    replica healthy: what is left is a report that it is not. -/
theorem Withdrawn.checked {health : ReplicaHealth} {message : Option String} {threshold : ℤ}
    {token : Option Uuid} (h : Withdrawn renews replica) (hst : replica.status = .running)
    (hunhealthy : health ≠ .healthy) :
    Withdrawn renews (replica.checked now health message threshold token) := by
  obtain hended | ⟨hhl, hcode, hurl, hexec, htoken, hlease⟩ := h
  · rw [hst] at hended
    exact absurd (by decide) hended
  refine .inr ?_
  simp only [ServiceReplica.checked, if_neg hunhealthy]
  split_ifs
  · exact ⟨rfl, some_ne_none _, hurl, hexec, rfl, hlease⟩
  · exact ⟨hhl, hcode, hurl, hexec, rfl, hlease⟩
  · exact ⟨rfl, some_ne_none _, hurl, hexec, htoken, hlease⟩
  · exact ⟨hhl, hcode, hurl, hexec, htoken, hlease⟩

/-- What a call writes that does not readmit the replica. -/
theorem ServiceOp.Writes.withdrawn {op : ServiceOp} (hwr : op.Writes now x old new)
    (hread : ¬ op.readmits renews x = true) (h : Withdrawn renews old) :
    Withdrawn renews new := by
  cases op with
  | reconcileLocked =>
    obtain ⟨hst, reason, rfl⟩ := hwr
    exact h.stop now reason _ hst
  | bindReplicaExecution | markReplicaLoading | markReplicaRunning =>
    exact absurd (decide_eq_true hwr.1) hread
  | renewReplicaLease =>
    obtain ⟨hx, rfl⟩ := hwr
    have hrenews : renews ≠ false := by
      intro hnot
      refine hread ?_
      simp only [ServiceOp.readmits, hx, hnot, decide_true, Bool.and_self]
    obtain hended | ⟨hhl, hcode, hurl, hexec, htoken, _⟩ := h
    · exact .inl hended
    · exact .inr ⟨hhl, hcode, hurl, hexec, htoken, fun hnot => absurd hnot hrenews⟩
  | recordReplicaAssignment | chooseHealthyEndpoint | releaseEndpointRequest =>
    obtain rfl := hwr
    exact h
  | quarantineReplicaRuntime =>
    -- a quarantine puts the mark on, or finds it
    obtain rfl := hwr
    obtain hended | ⟨_, _, _, hexec, htoken, _⟩ := h
    · exact .inl hended
    · exact .inr ⟨rfl, some_ne_none _, rfl, hexec, htoken, fun _ => rfl⟩
  | recordReplicaHealth _ health _ _ token =>
    obtain ⟨hx, hrng, htokens, rfl⟩ := hwr
    by_cases hhealthy : health = .healthy
    · -- a healthy report carries a token, and the replica has none
      have htoken : token ≠ none := by
        intro hn
        refine hread ?_
        simp only [ServiceOp.readmits, hx, hhealthy, hn, decide_true, Bool.and_self]
      obtain hended | hquar := h
      · rw [hrng] at hended
        exact absurd (by decide) hended
      · obtain hn | hmatches := htokens
        · exact absurd hn htoken
        · exact absurd (hmatches.symm.trans hquar.2.2.2.2.1) htoken
    · exact h.checked hrng hhealthy
  | markReplicaTerminal =>
    obtain ⟨hended, -, hst, -⟩ := hwr
    exact .inl (by rw [hst]; exact hended)
  | recoverExpiredLeases =>
    obtain ⟨-, rfl⟩ := hwr
    exact withdrawn_expired now

/-- A claim writes a token on rows that have an endpoint. -/
theorem claimEach_rewrites {settings : ProbeSettings} {mint : Uuid → Uuid}
    {probes : List HealthProbe} (hrows : RowsOf db rows)
    (hdue : ∀ r ∈ rows, r.2.endpointUrl ≠ none)
    (hcall : claimEach now settings mint rows db = .ok probes db') :
    RowWrites (fun k old new => old.endpointUrl ≠ none ∧ new = { old with
        healthProbeToken := some (mint k)
        healthProbeExpiresAt := some (now + settings.claimSeconds) })
      db.serviceReplicas db'.serviceReplicas := by
  induction rows generalizing db probes with
  | nil => exact .of_same (pure_ok.mp hcall).2.symm
  | cons first _ ih =>
    obtain ⟨_, found⟩ := first
    have hurl : found.endpointUrl ≠ none := hdue _ List.mem_cons_self
    obtain ⟨_, _, hsave, hoths⟩ := bind_ok.mp hcall
    obtain ⟨_, last, hrest, hdone⟩ := bind_ok.mp hoths
    have hlast : last = db' := by
      cases hexec : found.executionId with
      | none =>
        simp only [hexec] at hdone
        exact (pure_ok.mp hdone).2
      | some =>
        cases hend : found.endpointUrl with
        | none => exact absurd hend hurl
        | some =>
          simp only [hexec, hend] at hdone
          exact (pure_ok.mp hdone).2
    rw [hlast] at hrest
    rw [saveReplica, modify_ok] at hsave
    subst hsave
    refine .set (hrows.row _ List.mem_cons_self) ⟨hurl, rfl⟩ ?_
    exact ih hrows.tail (fun r hr => hdue r (List.mem_cons_of_mem _ hr)) hrest

/-- A replica without an endpoint is not probed. -/
theorem claimProbes_withdrawn {settings : ProbeSettings} {locked : List Uuid}
    {mint : Uuid → Uuid} {probes : List HealthProbe} (h : RowIs (Withdrawn renews) x db)
    (hcall : claimProbes now settings locked mint db = .ok probes db') :
    RowIs (Withdrawn renews) x db' := by
  rw [claimProbes, bind_get] at hcall
  have hrows : RowsOf db (dueProbes db now settings locked) :=
    ((RowsOf.select db _).orderBy _).sublist (List.take_sublist _ _)
  refine (claimEach_rewrites hrows (fun r hr => ?_) hcall).rowIs ?_ rfl rfl h
  · obtain ⟨_, _, _, hdue⟩ := of_decide_eq_true (mem_select.mp (mem_of_mem_take hr)).2
    exact hdue.2.2.2.1
  · rintro old new ⟨hurl, rfl⟩ (hended | hquar)
    · exact .inl hended
    · exact absurd hquar.2.2.1 hurl

/-- **ONE STEP** that does not readmit the replica leaves it withdrawn. -/
theorem monitored_withdrawn (i : MonitorCall) (h : RowIs (Withdrawn renews) x db)
    (hok : LeavesOut renews x i db) : RowIs (Withdrawn renews) x (monitored.step i db) := by
  cases i with
  | elsewhere => exact h.of_same rfl
  | claimProbes =>
    exact h.commit (fun _ _ hcall => claimProbes_withdrawn h hcall)
  | call now op =>
    by_cases hread : op.readmits renews x = true
    · exact h.of_same (congrArg Db.serviceReplicas (hok hread))
    · refine h.commit (fun _ _ hcall => ?_)
      exact (rewrites_of_txn hcall).rowIs (fun _ _ hwr => hwr.withdrawn hread) rfl rfl h

/-- A withdrawn replica is not routed to. -/
theorem RowIs.unrouted (h : RowIs (Withdrawn renews) x db) {projectId : Uuid}
    {selection : EndpointSelection}
    (hcall : chooseHealthyEndpoint now serviceId projectId db = .ok (some selection) db') :
    selection.replicaId ≠ x := by
  rintro rfl
  obtain ⟨_, hrep, hwd⟩ := h
  obtain ⟨_, _, hmem, _⟩ := chooseHealthyEndpoint_some hcall
  obtain ⟨_, hf, hend⟩ := mem_healthyEndpoints hmem
  obtain rfl := mem_unique hrep hf
  obtain ⟨-, hrng, -⟩ := endpoint?_eq_some hend
  obtain hended | hquar := hwd
  · rw [hrng] at hended
    exact hended (by decide)
  · simp only [ServiceReplica.endpoint?, hquar.2.2.1] at hend
    cases hend

end Withdrawal

/-- **QUARANTINE STICKS WHERE NO PROBE IS OUT**: if the replica has no probe token when it is
    quarantined, then along every run in which its controller does not readmit it, it is
    unhealthy with an error code until it is stopped, failed or lost, and is never routed
    to; a controller that does not renew its lease goes on to recognise it. -/
theorem quarantine_sticks (renews : Bool) {now : Time} {fence : ReplicaFence} {workerId : WorkerId}
    {errorCode errorMessage : String} {db db₁ db₂ : Db} {replica : ServiceReplica}
    (hquar : quarantineReplicaRuntime now fence workerId errorCode errorMessage db
      = .ok true db₁)
    (hrep : db.serviceReplicas.get? fence.replicaId = some replica)
    (hprobe : replica.healthProbeToken = none)
    (hruns : Steps monitored (LeavesOut renews fence.replicaId) db₁ db₂) :
    (∃ found, db₂.serviceReplicas.get? fence.replicaId = some found
      ∧ (found.status ∈ [.stopped, .failed, .lost]
        ∨ found.health = .unhealthy ∧ found.errorCode ≠ none
          ∧ (renews = false → IsPersistentlyQuarantined found)))
    ∧ ∀ now serviceId projectId selection db₃,
        chooseHealthyEndpoint now serviceId projectId db₂ = .ok (some selection) db₃ →
        selection.replicaId ≠ fence.replicaId := by
  have hmark : RowIs (Withdrawn renews) fence.replicaId db₁ := by
    rcases sessionFenced_ok hquar with ⟨hfalse, _⟩ | ⟨-, hcall⟩
    · cases hfalse
    rcases onReplica_ok hcall with ⟨hfalse, _⟩ | ⟨service, found, hf, hcond, hbody⟩
    · cases hfalse
    obtain rfl := mem_unique hrep hf
    obtain ⟨⟨_, hexec⟩, _⟩ := of_decide_eq_true hcond
    obtain ⟨_, _, hsave, href⟩ := bind_ok.mp hbody
    rw [saveReplica, modify_ok] at hsave
    subst hsave
    have hbound : replica.executionId ≠ none := by
      rw [hexec]
      exact some_ne_none _
    refine RowIs.of_same ?_ ((refreshServiceStatus_keeps _ _ _).of_ok href)
    exact ⟨_, get?_set_self hrep _, Or.inr ⟨rfl, some_ne_none _, rfl, hbound, hprobe, fun _ => rfl⟩⟩
  have hwd : RowIs (Withdrawn renews) fence.replicaId db₂ :=
    hruns.preserves (fun i db h hok => monitored_withdrawn i h hok) hmark
  refine ⟨?_, fun _ _ _ _ _ hcall => hwd.unrouted hcall⟩
  obtain ⟨found, hf, hended | ⟨hhl, hcode, hurl, hexec, _, hlease⟩⟩ := hwd
  · refine ⟨found, hf, .inl ?_⟩
    revert hended
    cases found.status <;> decide
  · exact ⟨found, hf, .inr ⟨hhl, hcode,
      fun hnot => ⟨hexec, hlease hnot, hhl, hurl, hcode⟩⟩⟩

/-! ### A probe and a quarantine -/

/-- The replica runs and is healthy. -/
def healthyCalls : List MonitorCall :=
  [.elsewhere (Table.empty.insert 3 smallService) .empty,
   .call 1 (.reconcileLocked 30 3 (fun k => 50 + k)),
   .call 2 (.bindReplicaExecution 50 1 "worker" none 60 100),
   .call 3 (.markReplicaRunning smallFence "http://replica:8000" none none),
   .call 4 (.recordReplicaHealth smallFence .healthy none 1 none)]

def healthyDb : Db := monitored.run healthyCalls emptyFloor.db

def slowProbes : ProbeSettings := ⟨10, 10, 5⟩

/-- A prober claims the replica. -/
def probedDb : Db := monitored.run [.claimProbes 20 slowProbes [] (fun _ => 70)] healthyDb

/-- A late probe, a claim and a reconciliation. -/
def laterCalls : List MonitorCall :=
  [.call 22 (.recordReplicaHealth smallFence .healthy none 1 (some 70)),
   .claimProbes 40 slowProbes [] (fun _ => 71),
   .call 41 (.reconcileLocked 30 3 (fun k => 80 + k))]

/-- What a quarantine of the replica leaves. -/
def quarantinedDb (db : Db) : Db :=
  commit (quarantineReplicaRuntime 21 smallFence "worker" "DRIFT" "drifted") db

theorem quarantinedDb_ok {db : Db}
    (h : returned (quarantineReplicaRuntime 21 smallFence "worker" "DRIFT" "drifted") db
      = some true) :
    quarantineReplicaRuntime 21 smallFence "worker" "DRIFT" "drifted" db
      = .ok true (quarantinedDb db) := by
  obtain ⟨_, hcall⟩ := returned_eq_some.mp h
  rw [quarantinedDb, commit_of_ok hcall]
  exact hcall

theorem quarantine_sticks_unprobed :
    ∃ found, (monitored.run laterCalls (quarantinedDb healthyDb)).serviceReplicas.get? 50
        = some found
      ∧ found.status = .draining ∧ found.health = .unhealthy ∧ found.errorCode ≠ none := by
  have hruns : returned (quarantineReplicaRuntime 21 smallFence "worker" "DRIFT" "drifted")
        healthyDb = some true
      ∧ (healthyDb.serviceReplicas.get? 50).map ServiceReplica.healthProbeToken = some none
      ∧ ((monitored.run laterCalls (quarantinedDb healthyDb)).serviceReplicas.get? 50).map
        ServiceReplica.status = some .draining := by
    decide +kernel
  obtain ⟨hquar, hprobe, hlater⟩ := hruns
  obtain ⟨_, hrep, htoken⟩ := map_eq_some_iff.mp hprobe
  have halw : Allowed monitored (LeavesOut false 50) laterCalls (quarantinedDb healthyDb) :=
    ⟨fun h => (nomatch h), trivial, fun h => (nomatch h), trivial⟩
  obtain ⟨⟨found, hf, hmark⟩, _⟩ := quarantine_sticks false (quarantinedDb_ok hquar)
    hrep htoken (Steps.run laterCalls .refl halw)
  obtain ⟨_, hf', hst⟩ := map_eq_some_iff.mp hlater
  obtain rfl := mem_unique hf hf'
  rcases hmark with hended | ⟨hhl, hcode, _⟩
  · rw [hst] at hended
    exact absurd hended (by decide)
  · exact ⟨found, hf, hst, hhl, hcode⟩

/-- A probe that was claimed before the quarantine reports after it. -/
theorem quarantine_lifted_by_probe : ∃ db, Reach monitored (fun _ _ => True) db
      ∧ returned (quarantineReplicaRuntime 21 smallFence "worker" "DRIFT" "drifted") db
        = some true
      ∧ ∃ found, (monitored.step (.call 22 (.recordReplicaHealth smallFence .healthy none 1
          (some 70))) (quarantinedDb db)).serviceReplicas.get? 50 = some found
        ∧ found.status = .running ∧ found.health = .healthy ∧ found.errorCode = none := by
  have hruns : returned (quarantineReplicaRuntime 21 smallFence "worker" "DRIFT" "drifted")
        probedDb = some true
      ∧ ((monitored.step (.call 22 (.recordReplicaHealth smallFence .healthy none 1 (some 70)))
          (quarantinedDb probedDb)).serviceReplicas.get? 50).map (fun found =>
            (found.status, found.health, found.errorCode)) = some (.running, .healthy, none) := by
    decide +kernel
  obtain ⟨hquar, hrow⟩ := hruns
  obtain ⟨found, hf, hcols⟩ := map_eq_some_iff.mp hrow
  obtain ⟨hst, hcols⟩ := Prod.mk.inj hcols
  obtain ⟨hhl, hcode⟩ := Prod.mk.inj hcols
  have hreach : Reach monitored (fun _ _ => True) probedDb :=
    ((Reach.init rfl).run healthyCalls (allowed_of_forall _ (fun _ _ _ => trivial) _)).run _
      (allowed_of_forall _ (fun _ _ _ => trivial) _)
  exact ⟨probedDb, hreach, hquar, found, hf, hst, hhl, hcode⟩

end MiniAiCloud
