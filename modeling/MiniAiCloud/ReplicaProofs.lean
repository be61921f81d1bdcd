import MiniAiCloud.Occupancy
import MiniAiCloud.Services

/-! # The life of a replica

    Each replica row is a seat: the reconciler, the controllers and the reaper manage
    it, and the requests of the gateway are holds on it.  Every call of the managers is
    a move of the seats, a selection is a new hold, a release gives a hold back, and a
    call whose fence does not fit leaves the database as it was. -/

namespace MiniAiCloud

open Transaction Reachability Occupancy Table List Option ServiceReplica ReplicaStatus

variable {db db' : Db} {now : Time} {b : Bool} {replicaId serviceId projectId : Uuid}
  {replica replica' : ServiceReplica} {f g : Floor} {fence : ReplicaFence}
  {selection : EndpointSelection} {status : ReplicaStatus} {u : Unit} {α : Type}
  {body : ModelService → ServiceReplica → Txn Unit}
  {condition : ModelService → ServiceReplica → Bool} {generation : ℤ} {op : ServiceOp}
  {service : ModelService} {timeout : ℚ} {workerId : Option WorkerId}
  {workerSessionId : Option Uuid}

/-! ## Replicas as seats -/

/-- Where a replica of this status is in its life. -/
def ReplicaStatus.phase : ReplicaStatus → Phase ReplicaStatus
  | pending | starting | loading => .opening
  | running | draining | stopping => .serving
  | stopped => .closed stopped
  | failed => .closed failed
  | lost => .closed lost

/-- The seat of a replica: its owner is its execution. -/
def ServiceReplica.seat (replica : ServiceReplica) : Seat (ℤ × Uuid) ReplicaStatus where
  owner := replica.executionId.map (fun e => (replica.generation, e))
  phase := replica.status.phase
  count := replica.activeRequests

def Db.seats (db : Db) (replicaId : Uuid) : Option (Seat (ℤ × Uuid) ReplicaStatus) :=
  (db.serviceReplicas.get? replicaId).map seat

theorem Db.seats_of_get? (h : db.serviceReplicas.get? replicaId = some replica) :
    db.seats replicaId = some replica.seat := by
  rw [Db.seats, h, map_some]

theorem ReplicaStatus.phase_closed :
    status ∉ nonterminalReplicaStatuses ↔ status.phase = .closed status := by
  cases status <;> decide

theorem ReplicaStatus.phase_ne_closed (h : status ∈ nonterminalReplicaStatuses)
    (outcome : ReplicaStatus) :
    status.phase ≠ .closed outcome := by
  revert h
  cases status <;> cases outcome <;> decide

/-- A replica that is neither terminal nor serving is opening. -/
theorem ReplicaStatus.phase_opening (h : status ∈ [pending, starting, loading]) :
    status.phase = .opening := by
  revert h
  cases status <;> decide

/-! ## Writing rows -/

/-- Rows are added for replicas that were just created. -/
structure Grows (t t' : Table Uuid ServiceReplica) : Prop where
  old : ∀ k r, t.get? k = some r → t'.get? k = some r
  new : ∀ k r, t.get? k = none → t'.get? k = some r → r.seat = .fresh

/-- Rows are written one after the other as `W` allows, and then some are added. -/
inductive RowWrites (W : Uuid → ServiceReplica → ServiceReplica → Prop) :
    Table Uuid ServiceReplica → Table Uuid ServiceReplica → Prop where
  | done {t t' : Table Uuid ServiceReplica} (h : Grows t t') : RowWrites W t t'
  | set {t t' : Table Uuid ServiceReplica} {k : Uuid} {old new : ServiceReplica}
      (hold : t.get? k = some old) (hwrites : W k old new) (h : RowWrites W (t.set k new) t') :
      RowWrites W t t'

section Rewriting

variable {t t' t'' : Table Uuid ServiceReplica} {W : Uuid → ServiceReplica → ServiceReplica → Prop}

theorem Grows.refl (t : Table Uuid ServiceReplica) : Grows t t where
  old := fun _ _ h => h
  new := fun k r hn hsome => by rw [hn] at hsome; cases hsome

theorem Grows.trans (h : Grows t t') (h' : Grows t' t'') : Grows t t'' where
  old := fun k r hr => h'.old k r (h.old k r hr)
  new := by
    intro k r hn hsome
    cases hmid : t'.get? k with
    | none => exact h'.new k r hmid hsome
    | some =>
      rw [h'.old k _ hmid] at hsome
      cases hsome
      exact h.new k r hn hmid

theorem RowWrites.refl (t : Table Uuid ServiceReplica) : RowWrites W t t := .done (.refl t)

theorem RowWrites.of_same (h : db' = db) : RowWrites W db.serviceReplicas db'.serviceReplicas := by
  rw [h]
  exact .refl _

theorem saveService_keeps (serviceId : Uuid) (service : ModelService) :
    Keeps Db.serviceReplicas (saveService serviceId service) :=
  .modify fun _ => rfl

theorem refreshServiceStatus_keeps (now : Time) (serviceId : Uuid) (service : ModelService) :
    Keeps Db.serviceReplicas (refreshServiceStatus now serviceId service) :=
  Keeps.bind (.of_reads .get) fun _ =>
    Keeps.ite (.of_reads (.pure _)) (saveService_keeps _ _)

theorem saveReplica_rewrites (h : saveReplica replicaId replica' db = .ok u db')
    (hrep : db.serviceReplicas.get? replicaId = some replica)
    (hwr : W replicaId replica replica') :
    RowWrites W db.serviceReplicas db'.serviceReplicas := by
  rw [saveReplica, modify_ok] at h
  subst h
  exact .set hrep hwr (.refl _)

/-- A row is written and the status of its service refreshed. -/
theorem saveRefresh_rewrites (h : (do
      saveReplica replicaId replica'
      refreshServiceStatus now replica.serviceId service : Txn Unit) db = .ok u db')
    (hrep : db.serviceReplicas.get? replicaId = some replica)
    (hwr : W replicaId replica replica') :
    RowWrites W db.serviceReplicas db'.serviceReplicas := by
  obtain ⟨_, _, hsave, href⟩ := bind_ok.mp h
  rw [(refreshServiceStatus_keeps _ _ _).of_ok href]
  exact saveReplica_rewrites hsave hrep hwr

/-! ## Fences -/

/-- The session belongs to a worker that has another one by now, or to none. -/
def StaleSession (db : Db) (workerId : Option WorkerId) (workerSessionId : Option Uuid) :
    Prop :=
  ∃ session ∈ workerSessionId, ∀ id ∈ workerId, ∀ worker ∈ db.workers.get? id,
    worker.workerSessionId ≠ session

theorem sessionFenced_ok {body : Txn Bool}
    (h : sessionFenced workerId workerSessionId body db = .ok b db') :
    b = false ∧ db' = db
      ∨ ¬ StaleSession db workerId workerSessionId ∧ body db = .ok b db' := by
  cases workerSessionId with
  | none =>
    refine .inr ⟨?_, h⟩
    rintro ⟨_, hsess, -⟩
    cases hsess
  | some session =>
    simp only [sessionFenced, workerSessionMatches, bind_ok, expect_ok, get_ok, pure_ok] at h
    obtain ⟨_, _, ⟨id, _, ⟨hid, hmid⟩, _, _, ⟨rfl, hmid'⟩, rfl, rfl⟩, h⟩ := h
    rw [hmid', hmid] at h
    split_ifs at h with hcur
    · refine .inr ⟨?_, h⟩
      rintro ⟨_, hoth, hstale⟩
      cases hoth
      rw [Option.any_eq_true] at hcur
      obtain ⟨worker, hwk, heq⟩ := hcur
      exact hstale id hid worker hwk (of_decide_eq_true heq)
    · obtain ⟨hfalse, heq⟩ := pure_ok.mp h
      exact .inl ⟨hfalse.symm, heq.symm⟩

theorem onReplica_ok (h : onReplica replicaId condition body db = .ok b db') : b = false ∧ db' = db
      ∨ ∃ service replica, db.serviceReplicas.get? replicaId = some replica
        ∧ condition service replica = true ∧ body service replica db = .ok () db' := by
  rw [onReplica, bind_get] at h
  cases hrep : db.serviceReplicas.get? replicaId with
  | none =>
    simp only [lockServiceAndReplica, hrep, pure_ok] at h
    exact .inl ⟨h.1.symm, h.2.symm⟩
  | some replica =>
    cases hsvc : db.modelServices.get? replica.serviceId with
    | none =>
      simp only [lockServiceAndReplica, hrep, hsvc, pure_ok] at h
      exact .inl ⟨h.1.symm, h.2.symm⟩
    | some service =>
      simp only [lockServiceAndReplica, hrep, hsvc] at h
      split_ifs at h with hcond
      · simp only [bind_ok, pure_ok] at h
        obtain ⟨_, _, hbody, -, rfl⟩ := h
        exact .inr ⟨service, replica, rfl, hcond, hbody⟩
      · obtain ⟨hfalse, heq⟩ := pure_ok.mp h
        exact .inl ⟨hfalse.symm, heq.symm⟩

/-- What a fenced call writes when it writes something. -/
theorem fenced_rewrites
    (h : sessionFenced workerId workerSessionId (onReplica replicaId condition body) db
      = .ok b db')
    (hbody : ∀ service replica, db.serviceReplicas.get? replicaId = some replica →
      condition service replica = true → body service replica db = .ok () db' →
      RowWrites W db.serviceReplicas db'.serviceReplicas) :
    RowWrites W db.serviceReplicas db'.serviceReplicas := by
  rcases sessionFenced_ok h with ⟨-, heq⟩ | ⟨-, h⟩
  · exact .of_same heq
  rcases onReplica_ok h with ⟨-, heq⟩ | ⟨service, replica, hrep, hcond, h⟩
  · exact .of_same heq
  · exact hbody service replica hrep hcond h

theorem validateEndpointUrl_ok {url : String} (h : validateEndpointUrl url db = .ok u db') :
    db' = db := by
  simp only [validateEndpointUrl, bind_ok, raiseIf_ok] at h
  obtain ⟨_, _, ⟨-, rfl⟩, -, rfl⟩ := h
  rfl

end Rewriting

/-! ## Lists of rows -/

/-- The list holds rows of the table, no row twice. -/
structure RowsOf (db : Db) (rows : List (Uuid × ServiceReplica)) : Prop where
  keys : (rows.map Prod.fst).Nodup
  row : ∀ r ∈ rows, db.serviceReplicas.get? r.1 = some r.2

theorem RowsOf.select (db : Db) (p : Uuid → ServiceReplica → Bool) :
    RowsOf db (db.serviceReplicas.select p) where
  keys := select_keys_nodup _ _
  row := fun _ hr => (mem_select.mp hr).1

theorem RowsOf.sublist {rows rows' : List (Uuid × ServiceReplica)} (h : RowsOf db rows)
    (hsub : rows'.Sublist rows) : RowsOf db rows' where
  keys := h.keys.sublist (hsub.map Prod.fst)
  row := fun r hr => h.row r (hsub.subset hr)

theorem RowsOf.orderBy {κ : Type} [LinearOrder κ] {rows : List (Uuid × ServiceReplica)}
    (h : RowsOf db rows) (key : Uuid × ServiceReplica → κ) :
    RowsOf db (OrderedQuery.orderBy key rows) where
  keys := ((perm_insertionSort _ rows).map Prod.fst).nodup_iff.mpr h.keys
  row := fun r hr => h.row r (OrderedQuery.mem_orderBy.mp hr)

theorem rowsOf_listReplicas (db : Db) (serviceId : Uuid) : RowsOf db (listReplicas db serviceId) :=
  (RowsOf.select db _).orderBy _

theorem rowsOf_currentReplicas (db : Db) (serviceId : Uuid) (service : ModelService) :
    RowsOf db (currentReplicas db serviceId service) :=
  (rowsOf_listReplicas db serviceId).sublist filter_sublist

/-- Writing the first row leaves the others in place. -/
theorem RowsOf.tail {rest : List (Uuid × ServiceReplica)}
    (h : RowsOf db ((replicaId, replica) :: rest)) :
    RowsOf { db with serviceReplicas := db.serviceReplicas.set replicaId replica' } rest where
  keys := (nodup_cons.mp h.keys).2
  row := by
    intro r hr
    have hne : r.1 ≠ replicaId := by
      intro he
      apply (nodup_cons.mp h.keys).1
      rw [show (replicaId, replica).1 = r.1 from he.symm]
      exact mem_map_of_mem hr
    rw [get?_set_ne _ _ hne]
    exact h.row r (mem_cons_of_mem _ hr)

/-! ## What a call writes -/

/-- What a call may write over the row of a replica. -/
def ServiceOp.Writes (now : Time) (op : ServiceOp) (k : Uuid) (old new : ServiceReplica) :
    Prop :=
  match op with
  | reconcileLocked timeout _ _ => old.status ∈ nonterminalReplicaStatuses
    ∧ ∃ reason, new = (requestReplicaStop now reason timeout old).1
  | bindReplicaExecution replicaId _ workerId _ executionId lease => replicaId = k
    ∧ old.status ∈ [.pending, .starting]
    ∧ (old.executionId = none ∨ old.executionId = some executionId)
    ∧ new = old.bound now workerId executionId lease
  | renewReplicaLease fence lease => fence.replicaId = k
    ∧ new = { old with
        leaseExpiresAt := some lease, updatedAt := now, version := old.version + 1 }
  | recordReplicaAssignment _ _ nodeName => new = { old with
      assignedNodeName := some nodeName, updatedAt := now, version := old.version + 1 }
  | quarantineReplicaRuntime _ _ errorCode errorMessage => new = { old with
      health := .unhealthy
      healthFailureCount := old.healthFailureCount + 1
      endpointUrl := none
      leaseExpiresAt := none
      errorCode := some errorCode
      errorMessage := some errorMessage
      updatedAt := now
      version := old.version + 1 }
  | markReplicaLoading fence _ => fence.replicaId = k ∧ old.status = .starting
    ∧ new.seat = { old.seat with phase := .opening }
  | markReplicaRunning fence _ _ _ => fence.replicaId = k ∧ old.status ∈ [.starting, .loading]
    ∧ new.seat = { old.seat with phase := .serving }
  | recordReplicaHealth fence health message threshold token => fence.replicaId = k
    ∧ old.status = .running ∧ (token = none ∨ old.healthProbeToken = token)
    ∧ new = old.checked now health message threshold token
  | markReplicaTerminal _ status _ _ => status ∉ nonterminalReplicaStatuses
    ∧ old.status ∈ nonterminalReplicaStatuses ∧ new.status = status
    ∧ new.seat = { old.seat with phase := .closed status, count := 0 }
  | recoverExpiredLeases _ _ => old.LeaseExpired now ∧ new = old.expired now
  | chooseHealthyEndpoint _ _ => new = { old with
      activeRequests := old.activeRequests + 1, updatedAt := now, version := old.version + 1 }
  | releaseEndpointRequest _ => new = { old with
      activeRequests := old.activeRequests - 1, updatedAt := now, version := old.version + 1 }

/-! ### The reconciler -/

section Loops

variable {t : Table Uuid ServiceReplica} {rows : List (Uuid × ServiceReplica)} {mint : ℕ → Uuid}
  {counts : ℤ × ℤ} {limit : ℕ} {locked : List Uuid}

/-- **THE STOP LOOP** writes the rows it is given. -/
theorem stopReplicas_rewrites {reason : String} (hrows : RowsOf db rows)
    (hst : ∀ r ∈ rows, r.2.status ∈ nonterminalReplicaStatuses)
    (h : stopReplicas now reason timeout rows db = .ok counts db')
    (hnext : RowWrites (ServiceOp.Writes now (.reconcileLocked timeout serviceId mint))
      db'.serviceReplicas t) :
    RowWrites (ServiceOp.Writes now (.reconcileLocked timeout serviceId mint))
      db.serviceReplicas t := by
  induction rows generalizing db counts with
  | nil =>
    rw [(pure_ok.mp h).2]
    exact hnext
  | cons first _ ih =>
    obtain ⟨_, _⟩ := first
    obtain ⟨_, _, hsave, h⟩ := bind_ok.mp h
    obtain ⟨_, _, hrest, h⟩ := bind_ok.mp h
    rw [(pure_ok.mp h).2] at hrest
    rw [saveReplica, modify_ok] at hsave
    subst hsave
    refine .set (hrows.row _ mem_cons_self) ⟨hst _ mem_cons_self, reason, rfl⟩ ?_
    exact ih hrows.tail (fun r hr => hst r (mem_cons_of_mem _ hr)) hrest

theorem insertReplica_grows (h : insertReplica replicaId replica db = .ok u db')
    (hfresh : replica.seat = .fresh) : Grows db.serviceReplicas db'.serviceReplicas := by
  simp only [insertReplica, bind_ok, get_ok, ↓raise_ok, modify_ok, not_not] at h
  obtain ⟨_, _, ⟨rfl, rfl⟩, -, -, _, -, rfl⟩ := h
  refine ⟨fun k r hr => get?_insert_of_some hr replica, fun k r hn hr => ?_⟩
  rcases get?_insert_cases hr with ⟨-, rfl⟩ | hr
  · exact hfresh
  · rw [hn] at hr
    cases hr

/-- **THE CREATE LOOP** adds fresh rows. -/
theorem createReplicas_grows {rows : List (Uuid × ℤ)}
    (h : createReplicas now serviceId service rows db = .ok u db') :
    Grows db.serviceReplicas db'.serviceReplicas := by
  induction rows generalizing db u with
  | nil =>
    rw [(pure_ok.mp h).2]
    exact .refl _
  | cons _ _ ih =>
    obtain ⟨_, _, hins, h⟩ := bind_ok.mp h
    exact (insertReplica_grows hins rfl).trans (ih h)

theorem active_nonterminal (h : status ∈ activeReplicaStatuses) :
    status ∈ nonterminalReplicaStatuses :=
  mem_append_left _ h

theorem reconcileLocked_rewrites {result : ReconcileResult}
    (h : reconcileLocked now timeout serviceId service mint db = .ok result db') :
    RowWrites (ServiceOp.Writes now (.reconcileLocked timeout serviceId mint))
      db.serviceReplicas db'.serviceReplicas := by
  rw [reconcileLocked, bind_ok] at h
  obtain ⟨_, _, hraise, h⟩ := h
  rw [(raiseIf_ok.mp hraise).2, bind_get, bind_ok] at h
  obtain ⟨_, db₁, hfirst, h⟩ := h
  rw [bind_get, bind_ok] at h
  obtain ⟨_, db₂, hsec, h⟩ := h
  rw [bind_get, bind_ok] at h
  obtain ⟨_, db₃, hthird, h⟩ := h
  rw [bind_get, bind_ok] at h
  obtain ⟨_, db₄, hcrt, h⟩ := h
  rw [bind_get, bind_ok] at h
  obtain ⟨_, db₅, hsvc, h⟩ := h
  rw [← (pure_ok.mp h).2]
  have hkept : db₅.serviceReplicas = db₄.serviceReplicas :=
    (Keeps.ite (saveService_keeps _ _) (.of_reads (.pure _))).of_ok hsvc
  rw [hkept]
  -- the rows that are stopped: of old generations, unhealthy, in excess
  refine stopReplicas_rewrites ((rowsOf_listReplicas db serviceId).sublist
    filter_sublist) (fun r hr => ?_) hfirst ?_
  · exact (of_decide_eq_true (mem_filter.mp hr).2).2
  refine stopReplicas_rewrites ((rowsOf_currentReplicas db₁ serviceId service).sublist
    filter_sublist) (fun r hr => ?_) hsec ?_
  · rw [(of_decide_eq_true (mem_filter.mp hr).2).1]
    decide
  refine stopReplicas_rewrites ((((rowsOf_currentReplicas db₂ serviceId service).sublist
    filter_sublist).orderBy _).sublist (take_sublist _ _)) (fun r hr => ?_) hthird
    (.done (createReplicas_grows hcrt))
  have hact := OrderedQuery.mem_of_mem_take hr
  exact active_nonterminal (of_decide_eq_true (mem_filter.mp hact).2)

/-! ### The lease reaper -/

theorem expireReplicas_rewrites (hrows : RowsOf db rows) (hexp : ∀ r ∈ rows, r.2.LeaseExpired now)
    (h : expireReplicas now rows db = .ok u db')
    (hnext : RowWrites (ServiceOp.Writes now (.recoverExpiredLeases limit locked))
      db'.serviceReplicas t) :
    RowWrites (ServiceOp.Writes now (.recoverExpiredLeases limit locked))
      db.serviceReplicas t := by
  induction rows generalizing db u with
  | nil =>
    rw [(pure_ok.mp h).2]
    exact hnext
  | cons first _ ih =>
    obtain ⟨_, _⟩ := first
    obtain ⟨_, _, hsave, h⟩ := bind_ok.mp h
    rw [saveReplica, modify_ok] at hsave
    subst hsave
    refine .set (hrows.row _ mem_cons_self) ⟨hexp _ mem_cons_self, rfl⟩ ?_
    exact ih hrows.tail (fun r hr => hexp r (mem_cons_of_mem _ hr)) h

theorem recoverServices_rewrites {services : List (Uuid × ModelService)}
    (h : recoverServices now services db = .ok counts db') :
    RowWrites (ServiceOp.Writes now (.recoverExpiredLeases limit locked))
      db.serviceReplicas db'.serviceReplicas := by
  induction services generalizing db counts with
  | nil =>
    rw [(pure_ok.mp h).2]
    exact .refl _
  | cons first _ ih =>
    obtain ⟨_, _⟩ := first
    rw [recoverServices, bind_get, bind_ok] at h
    obtain ⟨_, db₁, hexpire, h⟩ := h
    obtain ⟨_, db₂, href, h⟩ := bind_ok.mp h
    obtain ⟨_, _, hrest, h⟩ := bind_ok.mp h
    rw [(pure_ok.mp h).2] at hrest
    have hkept : db₂.serviceReplicas = db₁.serviceReplicas :=
      (Keeps.ite (refreshServiceStatus_keeps _ _ _) (.of_reads (.pure _))).of_ok href
    have hoths := ih hrest
    rw [hkept] at hoths
    refine expireReplicas_rewrites ((RowsOf.select db _).orderBy _) (fun r hr => ?_) hexpire
      hoths
    have hsel := OrderedQuery.mem_orderBy.mp hr
    exact (of_decide_eq_true (mem_select.mp hsel).2).2

end Loops

/-! ## Requests -/

/-- The hold a selection is. -/
def EndpointSelection.hold (selection : EndpointSelection) : Uuid × (ℤ × Uuid) :=
  (selection.replicaId, (selection.generation, selection.executionId))

theorem roundRobin_mem {cursor : ℤ} {replicas : List α} {a : α}
    (h : roundRobin cursor replicas = some a) : a ∈ replicas :=
  mem_of_getElem? h

/-- An endpoint belongs to a replica that serves, and names its execution. -/
theorem endpoint?_eq_some (h : replica.endpoint? serviceId generation replicaId = some selection) :
    selection.replicaId = replicaId ∧ replica.status = .running
      ∧ replica.seat.owner = some (selection.generation, selection.executionId) := by
  rw [endpoint?] at h
  split at h
  · rename_i url executionId hurl hexec
    split_ifs at h with hsrv
    cases h
    exact ⟨rfl, hsrv.2.2.1, by rw [seat, hexec, map_some]⟩
  · cases h

theorem mem_healthyEndpoints (h : selection ∈ healthyEndpoints db serviceId service) :
    ∃ replica, db.serviceReplicas.get? selection.replicaId = some replica
      ∧ replica.endpoint? serviceId service.generation selection.replicaId = some selection := by
  obtain ⟨⟨_, replica⟩, hrow, hend⟩ := mem_filterMap.mp h
  have hrep := mem_rows.mp (OrderedQuery.mem_orderBy.mp hrow)
  obtain ⟨rfl, -⟩ := endpoint?_eq_some hend
  exact ⟨replica, hrep, hend⟩

theorem roundRobin_eq_none {cursor : ℤ} {replicas : List α} :
    roundRobin cursor replicas = none ↔ replicas = [] := by
  rw [roundRobin, getElem?_eq_none_iff]
  constructor
  · intro _
    by_contra hne
    have hpos : (0 : ℤ) < replicas.length := by
      exact_mod_cast length_pos_iff.mpr hne
    have hlt := Int.emod_lt_of_pos cursor hpos
    have hnn := Int.emod_nonneg cursor hpos.ne'
    omega
  · rintro rfl
    exact Nat.zero_le _

/-- The service that a call on a project may select an endpoint of. -/
def selectable (db : Db) (serviceId projectId : Uuid) : Option ModelService :=
  (db.modelServices.get? serviceId).filter (fun service =>
    service.projectId = projectId ∧ service.desiredReplicas ≠ 0)

/-- The database once an endpoint of the service is selected. -/
def Db.selected (db : Db) (now : Time) (serviceId : Uuid) (service : ModelService)
    (selection : EndpointSelection) : Db :=
  { db with
    serviceReplicas := db.serviceReplicas.modify selection.replicaId
      (fun replica => { replica with
        activeRequests := replica.activeRequests + 1
        updatedAt := now
        version := replica.version + 1 })
    modelServices := db.modelServices.set serviceId { service with
      roundRobinCursor := service.roundRobinCursor + 1
      updatedAt := now
      version := service.version + 1 } }

/-- **A SELECTION** finds nothing and writes nothing, or it takes one of the healthy
    endpoints. -/
theorem chooseHealthyEndpoint_cases (now : Time) (serviceId projectId : Uuid) (db : Db) :
    (chooseHealthyEndpoint now serviceId projectId db = .ok none db
        ∧ ∀ service, selectable db serviceId projectId = some service →
          healthyEndpoints db serviceId service = [])
      ∨ ∃ service selection, selectable db serviceId projectId = some service
        ∧ selection ∈ healthyEndpoints db serviceId service
        ∧ chooseHealthyEndpoint now serviceId projectId db
          = .ok (some selection) (db.selected now serviceId service selection) := by
  rw [chooseHealthyEndpoint, bind_get]
  cases hsvc : selectable db serviceId projectId with
  | none =>
    rw [selectable] at hsvc
    refine .inl ⟨?_, fun service h => nomatch h⟩
    simp only [hsvc]
    rfl
  | some service =>
    rw [selectable] at hsvc
    cases hcho : roundRobin service.roundRobinCursor
        (healthyEndpoints db serviceId service) with
    | none =>
      refine .inl ⟨?_, fun service' h => ?_⟩
      · simp only [hsvc, hcho]
        rfl
      · cases h
        exact roundRobin_eq_none.mp hcho
    | some selection =>
      refine .inr ⟨service, selection, rfl, roundRobin_mem hcho, ?_⟩
      simp only [hsvc, hcho]
      rfl

variable (h : chooseHealthyEndpoint now serviceId projectId db = .ok (some selection) db')

include h

theorem chooseHealthyEndpoint_some : ∃ service, selectable db serviceId projectId = some service
      ∧ selection ∈ healthyEndpoints db serviceId service
      ∧ db' = db.selected now serviceId service selection := by
  rcases chooseHealthyEndpoint_cases now serviceId projectId db with ⟨hn, -⟩ | ⟨service,
    chosen, hsvc, hmem, hcho⟩
  · rw [hn] at h
    cases h
  · rw [hcho] at h
    cases h
    exact ⟨service, hsvc, hmem, rfl⟩

/-- It adds one to the count of a serving seat, for its owner. -/
theorem chooseHealthyEndpoint_recounted :
    ∃ seat, Recounted db.seats db'.seats selection.replicaId seat (seat.count + 1)
      ∧ seat.phase = .serving
      ∧ seat.owner = some (selection.generation, selection.executionId) := by
  obtain ⟨_, -, hmem, rfl⟩ := chooseHealthyEndpoint_some h
  obtain ⟨replica, hrep, hend⟩ := mem_healthyEndpoints hmem
  obtain ⟨-, hrng, hown⟩ := endpoint?_eq_some hend
  refine ⟨replica.seat, ⟨Db.seats_of_get? hrep, ?_, ?_⟩, ?_, hown⟩
  · rw [Db.seats, Db.selected, get?_modify, hrep]
    simp only [if_true, map_some]
    rfl
  · intro j hj
    rw [Db.seats, Db.seats, Db.selected, get?_modify_ne _ _ hj]
  · rw [seat, hrng]
    rfl

omit h

/-- Without a selection nothing is written. -/
theorem chooseHealthyEndpoint_none
    (h : chooseHealthyEndpoint now serviceId projectId db = .ok none db') : db' = db := by
  rcases chooseHealthyEndpoint_cases now serviceId projectId db with ⟨hn, -⟩ | ⟨service,
    chosen, -, -, hcho⟩
  · rw [hn] at h
    cases h
    rfl
  · rw [hcho] at h
    cases h

/-- **A RELEASE** takes one from a count above zero, if the fence fits, and is
    rejected otherwise. -/
theorem releaseEndpointRequest_cases {executionId : Uuid}
    (h : releaseEndpointRequest now replicaId generation executionId db = .ok b db') :
    (∃ replica, db.serviceReplicas.get? replicaId = some replica
      ∧ replica.seat.owner = some (generation, executionId) ∧ 0 < replica.activeRequests
      ∧ Recounted db.seats db'.seats replicaId replica.seat (replica.seat.count - 1))
    ∨ db' = db ∧ ¬ ∃ replica, db.serviceReplicas.get? replicaId = some replica
      ∧ replica.seat.owner = some (generation, executionId)
      ∧ 0 < replica.activeRequests := by
  rw [releaseEndpointRequest, bind_get] at h
  cases hrep : db.serviceReplicas.get? replicaId with
  | none =>
    simp only [lockServiceAndReplica, hrep, pure_ok] at h
    refine .inr ⟨h.2.symm, ?_⟩
    rintro ⟨_, hsome, -⟩
    cases hsome
  | some replica =>
    simp only [lockServiceAndReplica, hrep] at h
    split_ifs at h with hfits
    · simp only [saveReplica, bind_ok, modify_ok, pure_ok] at h
      obtain ⟨_, _, rfl, -, rfl⟩ := h
      refine .inl ⟨replica, rfl, ?_, hfits.2.2, Db.seats_of_get? hrep, ?_, ?_⟩
      · rw [seat, hfits.2.1, map_some, hfits.1]
      · rw [Db.seats, get?_set_self hrep, map_some]
        rfl
      · intro j hj
        rw [Db.seats, Db.seats, get?_set_ne _ _ hj]
    · refine .inr ⟨(pure_ok.mp h).2.symm, ?_⟩
      rintro ⟨_, hoth, hown, hpos⟩
      cases hoth
      rw [seat, map_eq_some_iff] at hown
      obtain ⟨e, he, hpair⟩ := hown
      cases hpair
      exact hfits ⟨rfl, he, hpos⟩

/-! ## Every call -/

/-- **WHAT A CALL WRITES**: every call that returns has written its rows. -/
theorem rewrites_of_txn (h : op.txn now db = .ok u db') :
    RowWrites (op.Writes now) db.serviceReplicas db'.serviceReplicas := by
  cases op with
  | reconcileLocked timeout serviceId =>
    rw [ServiceOp.txn, reconcileService, bind_get] at h
    cases hsvc : db.modelServices.get? serviceId with
    | none =>
      simp only [hsvc] at h
      exact .of_same (pure_ok.mp h).2.symm
    | some =>
      simp only [hsvc, bind_ok, pure_ok] at h
      obtain ⟨_, _, hreconcile, -, rfl⟩ := h
      exact reconcileLocked_rewrites hreconcile
  | bindReplicaExecution =>
    obtain ⟨_, h⟩ := void_ok h
    refine fenced_rewrites h fun service replica hrep hcond hbody => ?_
    obtain ⟨-, -, -, hst, hexec, -⟩ := of_decide_eq_true hcond
    simp only [checkExecutionUnique, bind_ok, ↓bind_get, raiseIf_ok] at hbody
    obtain ⟨_, _, ⟨-, rfl⟩, hbody⟩ := hbody
    exact saveReplica_rewrites hbody hrep ⟨rfl, hst, hexec, rfl⟩
  | renewReplicaLease =>
    obtain ⟨_, h⟩ := void_ok h
    exact fenced_rewrites h fun _ _ hrep _ h => saveReplica_rewrites h hrep ⟨rfl, rfl⟩
  | recordReplicaAssignment =>
    obtain ⟨_, h⟩ := void_ok h
    simp only [recordReplicaAssignment, validateKubernetesDnsSubdomain, bind_ok, raiseIf_ok,
      pure_ok] at h
    obtain ⟨_, _, ⟨_, _, ⟨-, rfl⟩, rfl, rfl⟩, h⟩ := h
    refine fenced_rewrites h fun service replica hrep _ hbody => ?_
    simp only [bind_ok, raiseIf_ok] at hbody
    obtain ⟨_, _, ⟨-, rfl⟩, hbody⟩ := hbody
    cases hasg : replica.assignedNodeName with
    | some =>
      simp only [hasg, raiseIf_ok] at hbody
      exact .of_same hbody.2
    | none =>
      simp only [hasg] at hbody
      exact saveReplica_rewrites hbody hrep rfl
  | quarantineReplicaRuntime =>
    obtain ⟨_, h⟩ := void_ok h
    exact fenced_rewrites h fun _ _ hrep _ h => saveRefresh_rewrites h hrep rfl
  | markReplicaLoading =>
    obtain ⟨_, h⟩ := void_ok h
    refine fenced_rewrites h fun service replica hrep hcond hbody => ?_
    obtain ⟨_, _, hvalid, hbody⟩ := bind_ok.mp hbody
    rw [validateEndpointUrl_ok hvalid] at hbody
    exact saveRefresh_rewrites hbody hrep ⟨rfl, (of_decide_eq_true hcond).2, rfl⟩
  | markReplicaRunning =>
    obtain ⟨_, h⟩ := void_ok h
    refine fenced_rewrites h fun service replica hrep hcond hbody => ?_
    obtain ⟨_, mid, hvalid, hbody⟩ := bind_ok.mp hbody
    rw [validateEndpointUrl_ok hvalid] at hbody
    obtain ⟨hdig, hbody⟩ := raise_ok.mp hbody
    exact saveRefresh_rewrites hbody hrep ⟨rfl, (of_decide_eq_true hcond).2, rfl⟩
  | recordReplicaHealth =>
    obtain ⟨_, h⟩ := void_ok h
    refine fenced_rewrites h fun service replica hrep hcond hbody => ?_
    obtain ⟨-, hrng, htoken⟩ := of_decide_eq_true hcond
    obtain ⟨_, mid, hrptd, hbody⟩ := bind_ok.mp hbody
    rw [(raiseIf_ok.mp hrptd).2] at hbody
    obtain ⟨hthreshold, hbody⟩ := raise_ok.mp hbody
    exact saveRefresh_rewrites hbody hrep ⟨rfl, hrng, htoken, rfl⟩
  | markReplicaTerminal _ status =>
    obtain ⟨_, h⟩ := void_ok h
    obtain ⟨_, _, hst, hfncd⟩ := bind_ok.mp h
    obtain ⟨hterminal, rfl⟩ := raiseIf_ok.mp hst
    have hended : status ∉ nonterminalReplicaStatuses := by
      revert hterminal
      cases status <;> decide
    refine fenced_rewrites hfncd fun service replica hrep hcond hbody => ?_
    refine saveRefresh_rewrites hbody hrep ⟨hended, (of_decide_eq_true hcond).2, rfl, ?_⟩
    rw [← phase_closed.mp hended]
    rfl
  | recoverExpiredLeases =>
    obtain ⟨_, h⟩ := void_ok h
    rw [recoverExpiredLeases, bind_get] at h
    obtain ⟨_, _, hrec, h⟩ := bind_ok.mp h
    rw [(pure_ok.mp h).2] at hrec
    exact recoverServices_rewrites hrec
  | chooseHealthyEndpoint =>
    obtain ⟨selected, h⟩ := void_ok h
    cases selected with
    | none => exact .of_same (chooseHealthyEndpoint_none h)
    | some =>
      obtain ⟨_, -, hmem, rfl⟩ := chooseHealthyEndpoint_some h
      obtain ⟨replica, hrep, -⟩ := mem_healthyEndpoints hmem
      dsimp only [Db.selected]
      rw [modify_eq_set hrep]
      exact .set hrep rfl (.refl _)
  | releaseEndpointRequest selection =>
    obtain ⟨_, h⟩ := void_ok h
    rw [releaseEndpointRequest, bind_get] at h
    cases hrep : db.serviceReplicas.get? selection.replicaId with
    | none =>
      simp only [lockServiceAndReplica, hrep] at h
      exact .of_same (pure_ok.mp h).2.symm
    | some =>
      simp only [lockServiceAndReplica, hrep] at h
      split_ifs at h
      · obtain ⟨_, _, hsave, h⟩ := bind_ok.mp h
        rw [(pure_ok.mp h).2] at hsave
        exact saveReplica_rewrites hsave hrep rfl
      · exact .of_same (pure_ok.mp h).2.symm

/-! ## Calls as moves of the seats -/

theorem turns_requestReplicaStop (h : replica.status ∈ nonterminalReplicaStatuses) (now : Time)
    (reason : String) (timeout : ℚ) :
    replica.seat.Turns (requestReplicaStop now reason timeout replica).1.seat := by
  rw [requestReplicaStop]
  by_cases hdrn : replica.status ∈ [draining, .stopping]
  · rw [if_pos hdrn]
    exact .refl _
  rw [if_neg hdrn]
  by_cases hpend : replica.status = .pending ∧ replica.executionId = none
  · rw [if_pos hpend]
    have hopen : replica.seat.phase = .opening := by
      rw [seat, hpend.1]
      rfl
    exact Seat.turns_of_opening hopen (.closed .stopped)
  rw [if_neg hpend]
  by_cases hrng : replica.status = .running
  · rw [if_pos hrng]
    have hsrvg : replica.seat.phase = .serving := by
      rw [seat, hrng]
      rfl
    exact Seat.turns_in_place hsrvg
  · rw [if_neg hrng]
    have hopen : replica.seat.phase = .opening := by
      refine phase_opening ?_
      revert h hdrn hrng
      cases replica.status <;> decide
    exact Seat.turns_of_opening hopen .serving

theorem turns_expired (h : replica.LeaseExpired now) :
    replica.seat.Turns (replica.expired now).seat := by
  have hnonterminal : replica.status ∈ nonterminalReplicaStatuses := by
    have hst := h.1
    revert hst
    cases replica.status <;> decide
  have hopen : ∀ outcome, replica.seat.phase ≠ .closed outcome := phase_ne_closed hnonterminal
  by_cases hdrn : replica.status ∈ [draining, .stopping]
  · have hseat : (replica.expired now).seat
        = { replica.seat with phase := .closed .stopped, count := 0 } := by
      simp only [expired, seat, if_pos hdrn]
      rfl
    rw [hseat]
    exact Seat.turns_to_closed hopen .stopped
  · have hseat : (replica.expired now).seat
        = { replica.seat with phase := .closed .lost, count := 0 } := by
      simp only [expired, seat, if_neg hdrn]
      rfl
    rw [hseat]
    exact Seat.turns_to_closed hopen .lost

/-- A health report changes neither the owner nor the phase nor the count. -/
theorem ServiceReplica.seat_checked (replica : ServiceReplica) (now : Time)
    (health : ReplicaHealth) (message : Option String) (threshold : ℤ)
    (token : Option Uuid) :
    (replica.checked now health message threshold token).seat = replica.seat := by
  simp only [checked]
  split_ifs <;> rfl

/-- A call of the managers, or a change elsewhere. -/
def ServiceOp.manages : ServiceOp → Bool
  | chooseHealthyEndpoint _ _ => false
  | releaseEndpointRequest _ => false
  | _ => true

theorem ServiceOp.Writes.turns (h : op.Writes now replicaId replica replica')
    (hop : op.manages = true) : replica.seat.Turns replica'.seat := by
  cases op with
  | reconcileLocked =>
    obtain ⟨hst, reason, rfl⟩ := h
    exact turns_requestReplicaStop hst now reason _
  | bindReplicaExecution =>
    obtain ⟨-, hst, hexec, rfl⟩ := h
    have hopen : replica.seat.phase = .opening := phase_opening (by
        simp only [mem_cons, not_mem_nil, or_false] at hst ⊢
        tauto)
    refine Seat.turns_to_owner hopen ?_
    rcases hexec with hn | hsome
    · exact .inl (by rw [seat, hn, map_none])
    · exact .inr (by rw [seat, hsome, map_some]; rfl)
  | renewReplicaLease =>
    obtain ⟨-, rfl⟩ := h
    exact .refl replica.seat
  | recordReplicaAssignment | quarantineReplicaRuntime =>
    obtain rfl := h
    exact .refl replica.seat
  | markReplicaLoading =>
    obtain ⟨-, hst, hseat⟩ := h
    rw [hseat]
    exact Seat.turns_of_opening (by rw [seat, hst]; rfl) .opening
  | markReplicaRunning =>
    obtain ⟨-, hst, hseat⟩ := h
    rw [hseat]
    exact Seat.turns_of_opening (phase_opening (mem_cons_of_mem _ hst)) .serving
  | recordReplicaHealth =>
    obtain ⟨-, -, -, rfl⟩ := h
    rw [seat_checked]
    exact .refl _
  | markReplicaTerminal =>
    obtain ⟨-, hst, -, hseat⟩ := h
    rw [hseat]
    exact Seat.turns_to_closed (phase_ne_closed hst) _
  | recoverExpiredLeases =>
    obtain ⟨hexp, rfl⟩ := h
    exact turns_expired hexp
  | chooseHealthyEndpoint | releaseEndpointRequest => cases hop

theorem moved_set (h : db.serviceReplicas.get? replicaId = some replica)
    (hturn : replica.seat.Turns replica'.seat) :
    Moved db.seats
      { db with serviceReplicas := db.serviceReplicas.set replicaId replica' }.seats := by
  refine ⟨?_, ?_⟩
  · intro k s hs
    by_cases hk : k = replicaId
    · subst hk
      rw [Db.seats_of_get? h] at hs
      cases hs
      exact ⟨_, Db.seats_of_get? (get?_set_self h replica'), hturn⟩
    · refine ⟨s, ?_, .refl s⟩
      rw [← hs, Db.seats, Db.seats]
      rw [get?_set_ne _ _ hk]
  · intro k hk
    rw [Db.seats, map_eq_none_iff] at hk ⊢
    exact get?_set_eq_none.mpr hk

theorem Grows.added (h : Grows db.serviceReplicas db'.serviceReplicas) :
    Added db.seats db'.seats := by
  refine ⟨fun k s hs => ?_, fun k s hk hs => ?_⟩
  · rw [Db.seats, map_eq_some_iff] at hs ⊢
    obtain ⟨r, hr, hseat⟩ := hs
    exact ⟨r, h.old k r hr, hseat⟩
  · rw [Db.seats, map_eq_none_iff] at hk
    rw [Db.seats, map_eq_some_iff] at hs
    obtain ⟨r, hr, rfl⟩ := hs
    exact h.new k r hk hr

theorem RowWrites.turned {W : Uuid → ServiceReplica → ServiceReplica → Prop}
    {t t' : Table Uuid ServiceReplica} (h : RowWrites W t t')
    (hturns : ∀ k old new, W k old new → old.seat.Turns new.seat) :
    ∀ {db db' : Db}, db.serviceReplicas = t → db'.serviceReplicas = t' →
      Turned db.seats db'.seats := by
  induction h with
  | done h =>
    rintro db db' rfl rfl
    exact h.added.turned
  | set hold hwr _ ih =>
    rintro db db' rfl hdb'
    exact (moved_set hold (hturns _ _ _ hwr)).trans (ih rfl hdb')

/-- A call that raises leaves the seats alone, so only a return has to be looked at. -/
theorem ServiceOp.turned (hop : op.manages = true) (now : Time) (db : Db) :
    Turned db.seats (commit (op.txn now) db).seats := by
  cases h : op.txn now db with
  | ok =>
    rw [commit_of_ok h]
    exact (rewrites_of_txn h).turned (fun _ _ _ hwr => hwr.turns hop) rfl rfl
  | error =>
    rw [commit_of_error h]
    exact .refl _

/-! ## Steps of the serving plane -/

/-- The holds of the requests on the floor. -/
def Floor.holds (f : Floor) : List (Uuid × (ℤ × Uuid)) := f.held.map EndpointSelection.hold

/-- What one step does to the seats and the holds. -/
inductive Floor.Goes (f g : Floor) : Prop where
  | manage (hseats : Turned f.db.seats g.db.seats) (hheld : g.held = f.held)
  | acquire (selection : EndpointSelection) (seat : Seat (ℤ × Uuid) ReplicaStatus)
      (hseats : Recounted f.db.seats g.db.seats selection.replicaId seat (seat.count + 1))
      (hserving : seat.phase = .serving)
      (howner : seat.owner = some (selection.generation, selection.executionId))
      (hheld : g.held = selection :: f.held)
  | release (selection : EndpointSelection) (seat : Seat (ℤ × Uuid) ReplicaStatus)
      (hmem : selection ∈ f.held)
      (hseats : Recounted f.db.seats g.db.seats selection.replicaId seat (seat.count - 1))
      (hserving : seat.phase = .serving) (hheld : g.held = f.held.erase selection)
  | late (selection : EndpointSelection) (seat : Seat (ℤ × Uuid) ReplicaStatus)
      (outcome : ReplicaStatus) (hmem : selection ∈ f.held)
      (hseats : g.db.seats = f.db.seats)
      (hhere : f.db.seats selection.replicaId = some seat)
      (hclosed : seat.phase = .closed outcome) (hheld : g.held = f.held.erase selection)

theorem mem_holds (h : selection ∈ f.held) :
    (selection.replicaId, (selection.generation, selection.executionId)) ∈ f.holds :=
  mem_map.mpr ⟨selection, h, rfl⟩

/-- A release of a held selection: the replica serves and gets it back, or it is
    closed by now. -/
theorem goes_of_release (hbal : Balanced f.db.seats f.holds) (hmem : selection ∈ f.held) :
    f.Goes (serving.step (.call now (.releaseEndpointRequest selection)) f) := by
  obtain ⟨seat, hseat, hown⟩ := hbal.owned _ _ (mem_holds hmem)
  have hrep := hseat
  rw [Db.seats, map_eq_some_iff] at hrep
  obtain ⟨replica, hrep, rfl⟩ := hrep
  obtain ⟨b, db', h⟩ : ∃ b db', releaseEndpointRequest now selection.replicaId
      selection.generation selection.executionId f.db = .ok b db' := by
    rw [releaseEndpointRequest, bind_get]
    simp only [lockServiceAndReplica, hrep]
    split_ifs
    · exact ⟨_, _, rfl⟩
    · exact ⟨_, _, rfl⟩
  have hdb : (serving.step (.call now (.releaseEndpointRequest selection)) f).db = db' :=
    (commit_void _ _).trans (commit_of_ok h)
  rcases releaseEndpointRequest_cases h with ⟨r, hr, -, hpos, hseats⟩ | ⟨heq, hrejects⟩
  · rw [hrep] at hr
    cases hr
    refine .release selection replica.seat hmem (by rw [hdb]; exact hseats) ?_ rfl
    cases hphase : replica.seat.phase with
    | serving => rfl
    | opening =>
      exact absurd (mem_holds hmem) ((hbal.opening _ _ hseat hphase).2 _)
    | closed outcome =>
      have hzero : replica.activeRequests = 0 := hbal.closed _ _ outcome hseat hphase
      omega
  · cases hphase : replica.seat.phase with
    | serving =>
      have hpos := hbal.count_pos hseat hphase hown (mem_holds hmem)
      exact absurd ⟨replica, hrep, hown, hpos⟩ hrejects
    | opening =>
      exact absurd (mem_holds hmem) ((hbal.opening _ _ hseat hphase).2 _)
    | closed outcome =>
      exact .late selection replica.seat outcome hmem (by rw [hdb, heq]) hseat hphase rfl

theorem goes_of_choose (f : Floor) (now : Time) (serviceId projectId : Uuid) :
    f.Goes (serving.step (.call now (.chooseHealthyEndpoint serviceId projectId)) f) := by
  -- what the transaction does decides both halves of the new floor
  have hstep : serving.step (.call now (.chooseHealthyEndpoint serviceId projectId)) f
      = ⟨commit (chooseHealthyEndpoint now serviceId projectId) f.db,
          (ServiceOp.chooseHealthyEndpoint serviceId projectId).heldAfter now f⟩ := by
    rw [← commit_void]
    rfl
  rw [hstep]
  cases h : chooseHealthyEndpoint now serviceId projectId f.db with
  | error =>
    have hret : returned (chooseHealthyEndpoint now serviceId projectId) f.db
        = none := by rw [returned, h]
    refine .manage ?_ (by simp only [ServiceOp.heldAfter, hret])
    rw [commit_of_error h]
    exact .refl _
  | ok selected db' =>
    have hret := returned_eq_some.mpr ⟨db', h⟩
    cases selected with
    | none =>
      refine .manage ?_ (by simp only [ServiceOp.heldAfter, hret])
      rw [commit_of_ok h, chooseHealthyEndpoint_none h]
      exact .refl _
    | some selection =>
      obtain ⟨seat, hseats, hsrvg, hown⟩ := chooseHealthyEndpoint_recounted h
      refine .acquire selection seat ?_ hsrvg hown (by simp only [ServiceOp.heldAfter, hret])
      rw [commit_of_ok h]
      exact hseats

/-- **ONE STEP.** -/
theorem goes_of_step (hbal : Balanced f.db.seats f.holds) {i : ServiceCall}
    (hok : releasesHeld i f) : f.Goes (serving.step i f) := by
  cases i with
  | elsewhere => exact .manage (.refl _) rfl
  | call now op =>
    cases op with
    | chooseHealthyEndpoint serviceId projectId =>
      exact goes_of_choose f now serviceId projectId
    | releaseEndpointRequest selection =>
      exact goes_of_release hbal (hok selection rfl)
    | _ => exact .manage (ServiceOp.turned rfl now f.db) rfl

theorem Floor.Goes.balanced (h : f.Goes g) (hbal : Balanced f.db.seats f.holds) :
    Balanced g.db.seats g.holds := by
  have hback : ∀ selection ∈ f.held, f.holds.Perm
      (selection.hold :: (f.held.erase selection).map EndpointSelection.hold) :=
    fun selection hmem => (perm_cons_erase hmem).map EndpointSelection.hold
  cases h with
  | manage hseats hheld =>
    rw [Floor.holds, hheld]
    exact hbal.turned hseats
  | acquire _ _ hseats hsrvg hown hheld =>
    rw [Floor.holds, hheld, map_cons]
    exact hbal.acquired hseats hsrvg hown
  | release selection _ hmem hseats hsrvg hheld =>
    rw [Floor.holds, hheld]
    exact hbal.released hseats hsrvg (hback selection hmem)
  | late selection _ _ hmem hseats hhere hclos hheld =>
    rw [Floor.holds, hheld, hseats]
    exact hbal.late hhere hclos (hback selection hmem)

theorem Floor.Goes.lasting (h : f.Goes g) : Lasting f.db.seats g.db.seats := by
  cases h with
  | manage hseats => exact hseats.lasting
  | acquire selection seat hseats hsrvg _ _ | release selection seat _ hseats hsrvg _ =>
    exact hseats.lasting hsrvg
  | late _ _ _ _ hseats =>
    rw [hseats]
    exact .refl _

/-! ## Runs -/

theorem reach_balanced (h : Reach serving releasesHeld f) :
    Balanced f.db.seats f.holds := by
  refine Reach.invariant (I := fun f => Occupancy.Balanced f.db.seats f.holds) ?_ ?_ h
  · rintro f ⟨hempty, hheld⟩
    have hn : ∀ k, f.db.seats k = none := by
      intro k
      rw [Db.seats, hempty]
      rfl
    refine ⟨?_, ?_, ?_, ?_⟩
    · exact fun k s hs => absurd hs (by rw [hn k]; nofun)
    · exact fun k s hs => absurd hs (by rw [hn k]; nofun)
    · exact fun k s _ hs => absurd hs (by rw [hn k]; nofun)
    · intro k o hmem
      rw [Floor.holds, hheld] at hmem
      cases hmem
  · exact fun i f hbal hok => (goes_of_step hbal hok).balanced hbal

theorem steps_lasting (hf : Balanced f.db.seats f.holds) (h : Steps serving releasesHeld f g) :
    Lasting f.db.seats g.db.seats := by
  have hboth := Steps.preserves
    (I := fun t => Occupancy.Balanced t.db.seats t.holds ∧ Lasting f.db.seats t.db.seats)
    (fun i t ht hok =>
      have hgoes := goes_of_step ht.1 hok
      ⟨hgoes.balanced ht.1, ht.2.trans hgoes.lasting⟩) h ⟨hf, .refl _⟩
  exact hboth.2

/-! ## Calls that do not fit -/

/-- The replica a call speaks of, and the worker session it was made in. -/
def ServiceOp.fence? : ServiceOp → Option ReplicaFence
  | bindReplicaExecution replicaId generation workerId session executionId _ =>
    some ⟨replicaId, generation, executionId, some workerId, session⟩
  | renewReplicaLease fence _ => some fence
  | recordReplicaAssignment fence workerId _ => some { fence with workerId := some workerId }
  | quarantineReplicaRuntime fence workerId _ _ =>
    some { fence with workerId := some workerId }
  | markReplicaLoading fence _ => some fence
  | markReplicaRunning fence _ _ _ => some fence
  | recordReplicaHealth fence _ _ _ _ => some fence
  | markReplicaTerminal fence _ _ _ => some fence
  | releaseEndpointRequest selection =>
    some { replicaId := selection.replicaId
           generation := selection.generation
           executionId := selection.executionId }
  | _ => none

/-- A call that gives a replica its execution. -/
def ServiceOp.binds : ServiceOp → Bool
  | bindReplicaExecution _ _ _ _ _ _ => true
  | _ => false

/-- The generation or the execution of the call is not the replica's own; a replica
    without an execution may still be bound to one. -/
def ServiceOp.Foreign (op : ServiceOp) (fence : ReplicaFence) (replica : ServiceReplica) :
    Prop :=
  replica.generation ≠ fence.generation
    ∨ replica.executionId ≠ some fence.executionId
      ∧ (op.binds = true → replica.executionId ≠ none)

/-- The call carries a generation or an execution that is not the replica's own, or a
    session that is not the worker's current one. -/
def ServiceOp.Misfits (op : ServiceOp) (db : Db) : Prop :=
  ∃ fence ∈ op.fence?, StaleSession db fence.workerId fence.workerSessionId
    ∨ ∃ replica, db.serviceReplicas.get? fence.replicaId = some replica
      ∧ op.Foreign fence replica

theorem ReplicaFence.not_owns (h : op.Foreign fence replica) : ¬ fence.Owns replica := by
  rintro ⟨hgen, hexec⟩
  rcases h with hoth | ⟨hoth, -⟩
  · exact hoth hgen
  · exact hoth hexec

theorem commit_of_same {m : Txn α} (h : ∀ a db', m db = .ok a db' → db' = db) :
    commit (void m) db = db := by
  rw [commit_void]
  cases hm : m db with
  | ok a db' => rw [commit_of_ok hm, h a db' hm]
  | error => rw [commit_of_error hm]

/-- A fenced call that must not pass leaves the database as it was. -/
theorem fenced_same {foreign : ServiceReplica → Prop}
    (hstale : StaleSession db workerId workerSessionId
      ∨ ∃ replica, db.serviceReplicas.get? replicaId = some replica ∧ foreign replica)
    (hcond : ∀ service replica, foreign replica → ¬ condition service replica = true)
    (h : sessionFenced workerId workerSessionId (onReplica replicaId condition body) db
      = .ok b db') : db' = db := by
  rcases sessionFenced_ok h with ⟨-, heq⟩ | ⟨hcur, h⟩
  · exact heq
  rcases onReplica_ok h with ⟨-, heq⟩ | ⟨service, replica, hrep, hpass, -⟩
  · exact heq
  · rcases hstale with hstale | ⟨other, hoth, hforn⟩
    · exact absurd hstale hcur
    · rw [hrep] at hoth
      cases hoth
      exact absurd hpass (hcond service replica hforn)

/-- **A CALL THAT DOES NOT FIT CHANGES NOTHING.** -/
theorem commit_of_misfit (h : op.Misfits db) (now : Time) :
    commit (op.txn now) db = db := by
  obtain ⟨fence, hfence, h⟩ := h
  cases op with
  | reconcileLocked timeout serviceId mint | recoverExpiredLeases limit locked
  | chooseHealthyEndpoint serviceId projectId => cases hfence
  | bindReplicaExecution =>
    cases hfence
    refine commit_of_same fun b db' hok => fenced_same h ?_ hok
    intro _ _ hforn hpass
    obtain ⟨hgen, -, -, -, hexec, -⟩ := of_decide_eq_true hpass
    rcases hforn with hoth | ⟨hoth, hbound⟩
    · exact hoth hgen
    · rcases hexec with hn | heq
      · exact hbound rfl hn
      · exact hoth heq
  | renewReplicaLease =>
    cases hfence
    refine commit_of_same fun b db' hok => fenced_same h ?_ hok
    exact fun service replica hforn hpass =>
      fence.not_owns hforn (of_decide_eq_true hpass).1
  | recordReplicaAssignment =>
    cases hfence
    refine commit_of_same fun b db' hok => ?_
    simp only [recordReplicaAssignment, validateKubernetesDnsSubdomain, bind_ok,
      raiseIf_ok, pure_ok] at hok
    obtain ⟨_, _, ⟨_, _, ⟨-, rfl⟩, rfl, rfl⟩, hok⟩ := hok
    refine fenced_same h ?_ hok
    exact fun service replica hforn hpass =>
      ReplicaFence.not_owns hforn (of_decide_eq_true hpass).1
  | quarantineReplicaRuntime =>
    cases hfence
    refine commit_of_same fun b db' hok => fenced_same h ?_ hok
    exact fun service replica hforn hpass =>
      ReplicaFence.not_owns hforn (of_decide_eq_true hpass).1
  | markReplicaLoading own url | markReplicaRunning own url modelRevision digest
  | recordReplicaHealth own health message threshold token =>
    cases hfence
    refine commit_of_same fun b db' hok => fenced_same h ?_ hok
    exact fun service replica hforn hpass =>
      fence.not_owns hforn (of_decide_eq_true hpass).1.1
  | markReplicaTerminal =>
    cases hfence
    refine commit_of_same fun b db' hok => ?_
    rw [markReplicaTerminal, bind_ok] at hok
    obtain ⟨_, _, hst, hok⟩ := hok
    rw [(raiseIf_ok.mp hst).2] at hok
    refine fenced_same h ?_ hok
    exact fun service replica hforn hpass =>
      fence.not_owns hforn (of_decide_eq_true hpass).1
  | releaseEndpointRequest =>
    cases hfence
    refine commit_of_same fun b db' hok => ?_
    rcases releaseEndpointRequest_cases hok with ⟨replica, hrep, hown, -, -⟩ | ⟨heq, -⟩
    · rcases h with ⟨session, hsess, -⟩ | ⟨other, hoth, hforn⟩
      · cases hsess
      · rw [hrep] at hoth
        cases hoth
        rw [seat, map_eq_some_iff] at hown
        obtain ⟨e, he, hpair⟩ := hown
        obtain ⟨hgen, rfl⟩ := Prod.mk.inj hpair
        exact absurd ⟨hgen, he⟩ (ReplicaFence.not_owns hforn)
    · exact heq

/-! ## The claim -/

/-- The selections of the replica's execution that were acquired and not yet
    released. -/
def outstandingSelections (held : List EndpointSelection) (replicaId : Uuid)
    (replica : ServiceReplica) : ℕ :=
  held.countP (fun selection => selection.replicaId = replicaId
    ∧ replica.executionId = some selection.executionId)

/-- The holds on a seat are the selections of the execution of its replica. -/
theorem outstanding_eq_selections (h : Balanced f.db.seats f.holds)
    (hrep : f.db.serviceReplicas.get? replicaId = some replica) :
    outstanding f.holds replicaId replica.seat
      = outstandingSelections f.held replicaId replica := by
  have hseat := Db.seats_of_get? hrep
  cases hexec : replica.executionId with
  | none =>
    have howner : replica.seat.owner = none := by
      rw [seat, hexec, map_none]
    simp only [outstanding, howner, outstandingSelections, hexec]
    rw [countP_eq_zero.mpr]
    · rfl
    · rintro _ - heq
      cases (of_decide_eq_true heq).2
  | some executionId =>
    have howner : replica.seat.owner = some (replica.generation, executionId) := by
      rw [seat, hexec, map_some]
    simp only [outstanding, howner, outstandingSelections, hexec]
    simp only [List.count, Floor.holds, countP_map]
    congr 1
    refine countP_congr (fun selection hmem => ?_)
    simp only [Function.comp_apply, EndpointSelection.hold, beq_iff_eq, Prod.mk.injEq,
      decide_eq_true_eq, some.injEq]
    constructor
    · rintro ⟨hid, -, he⟩
      exact ⟨hid, he.symm⟩
    · rintro ⟨rfl, he⟩
      have hown := h.owner_of_mem hseat (mem_holds hmem)
      rw [howner] at hown
      obtain ⟨hgen, -⟩ := Prod.mk.inj (some.inj hown)
      exact ⟨rfl, hgen.symm, he.symm⟩

/-- **THE LIFE OF A REPLICA.**  Whatever the calls and their order: a terminal replica
    keeps its status and every replica keeps its execution; its request count is what
    the gateway holds of its execution, and nothing once it is terminal; and a call that
    does not fit changes nothing. -/
theorem replica_life_cycle {f g : Floor} (hf : Reach serving releasesHeld f)
    (hg : Steps serving releasesHeld f g) :
    (∀ replicaId replica, f.db.serviceReplicas.get? replicaId = some replica →
      (∃ replica', g.db.serviceReplicas.get? replicaId = some replica'
        ∧ (replica.status ∉ nonterminalReplicaStatuses → replica'.status = replica.status)
        ∧ ∀ executionId, replica.executionId = some executionId →
          replica'.executionId = some executionId)
      ∧ 0 ≤ replica.activeRequests
      ∧ (replica.status ∈ nonterminalReplicaStatuses → replica.activeRequests
        = outstandingSelections f.held replicaId replica)
      ∧ (replica.status ∉ nonterminalReplicaStatuses → replica.activeRequests = 0))
    ∧ ∀ (op : ServiceOp) (now : Time), op.Misfits f.db →
        commit (op.txn now) f.db = f.db := by
  have hbal := reach_balanced hf
  refine ⟨?_, fun op now h => commit_of_misfit h now⟩
  intro replicaId replica hrep
  have hseat := Db.seats_of_get? hrep
  have hcnt : replica.status ∈ nonterminalReplicaStatuses → replica.activeRequests
      = outstandingSelections f.held replicaId replica := by
    intro hst
    rw [← outstanding_eq_selections hbal hrep]
    cases hphase : replica.seat.phase with
    | serving => exact hbal.serving _ _ hseat hphase
    | opening =>
      obtain ⟨hzero, hfree⟩ := hbal.opening _ _ hseat hphase
      rw [outstanding_of_notMem hfree]
      exact hzero
    | closed outcome => exact absurd hphase (phase_ne_closed hst outcome)
  have hzero : replica.status ∉ nonterminalReplicaStatuses → replica.activeRequests = 0 :=
    fun hst => hbal.closed _ _ _ hseat (phase_closed.mp hst)
  refine ⟨?_, ?_, hcnt, hzero⟩
  · obtain ⟨_, hseat', hlasts⟩ := steps_lasting hbal hg replicaId _ hseat
    rw [Db.seats, map_eq_some_iff] at hseat'
    obtain ⟨replica', hrep', rfl⟩ := hseat'
    refine ⟨replica', hrep', fun hst => ?_, fun executionId he => ?_⟩
    · -- the phase of a closed seat names the status
      have hclos := phase_closed.mp hst
      have heq : replica'.status.phase = replica.status.phase :=
        congrArg Seat.phase (hlasts.closed _ hclos)
      rw [hclos] at heq
      revert heq
      cases replica'.status <;> cases replica.status <;> decide
    · have hown : replica.seat.owner = some (replica.generation, executionId) := by
        rw [seat, he, map_some]
      have hown' := hlasts.owner _ hown
      rw [seat, map_eq_some_iff] at hown'
      obtain ⟨e, he', hpair⟩ := hown'
      rw [he', (Prod.mk.inj hpair).2]
  · by_cases hst : replica.status ∈ nonterminalReplicaStatuses
    · rw [hcnt hst]
      exact Int.natCast_nonneg _
    · rw [hzero hst]

/-! ### A request and the end of its replica -/

/-- A service that desires one replica. -/
def smallService : ModelService where
  projectId := 7
  name := "chat"
  model := "chat"
  runtime := .fake
  runtimeType := .kubernetes
  image := none
  modelRevision := none
  cpuMillicores := 500
  memoryMb := 512
  gpuCount := 0
  tensorParallelSize := 1
  admission := none
  desiredReplicas := 1
  createdAt := 0
  updatedAt := 0

def smallFence : ReplicaFence where
  replicaId := 50
  generation := 1
  executionId := 60

/-- The replica is created, bound and started, and takes a request. -/
def requestCalls : List ServiceCall :=
  [.elsewhere (Table.empty.insert 3 smallService) .empty,
   .call 1 (.reconcileLocked 30 3 (fun k => 50 + k)),
   .call 2 (.bindReplicaExecution 50 1 "worker" none 60 100),
   .call 3 (.markReplicaRunning smallFence "http://replica:8000" none none),
   .call 4 (.recordReplicaHealth smallFence .healthy none 1 none),
   .call 5 (.chooseHealthyEndpoint 3 7)]

/-- The replica ends while the request runs; the release comes late. -/
def endingCalls : List ServiceCall :=
  [.call 6 (.markReplicaTerminal smallFence .failed (some "OOM") none),
   .call 7 (.releaseEndpointRequest ⟨3, 50, 1, 60, "http://replica:8000"⟩)]

def emptyFloor : Floor := ⟨Db.ofProjects (Table.empty.insert 7 .active), []⟩

def requestFloor : Floor := serving.run requestCalls emptyFloor

def endedFloor : Floor := serving.run endingCalls requestFloor

theorem requestFloor_reach : Reach serving releasesHeld requestFloor :=
  Reach.run requestCalls (.init ⟨rfl, rfl⟩) (by decide +kernel)

theorem endedFloor_steps : Steps serving releasesHeld requestFloor endedFloor :=
  Steps.run endingCalls .refl (by decide +kernel)

theorem replica_life_cycle_of_a_request :
    ∃ replica, requestFloor.db.serviceReplicas.get? 50 = some replica
      ∧ replica.status = .running
      ∧ replica.activeRequests = outstandingSelections requestFloor.held 50 replica
      ∧ ∃ replica', endedFloor.db.serviceReplicas.get? 50 = some replica'
        ∧ replica'.executionId = some 60 := by
  have hrow : (requestFloor.db.serviceReplicas.get? 50).map
      (fun r => (r.status, r.executionId)) = some (.running, some 60) := by decide +kernel
  obtain ⟨replica, hrep, hcols⟩ := map_eq_some_iff.mp hrow
  obtain ⟨hst, hexec⟩ := Prod.mk.inj hcols
  obtain ⟨⟨replica', hrep', -, hkeeps⟩, -, hcnt, -⟩ :=
    (replica_life_cycle requestFloor_reach endedFloor_steps).1 50 replica hrep
  refine ⟨replica, hrep, hst, hcnt (by rw [hst]; decide), ?_⟩
  exact ⟨replica', hrep', hkeeps 60 hexec⟩

end MiniAiCloud
