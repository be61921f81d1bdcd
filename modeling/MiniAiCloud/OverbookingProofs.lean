import MiniAiCloud.EasingProofs
import MiniAiCloud.PickupProofs
import MiniAiCloud.ReplicaProofs

/-! # Placements do not over-book a node

    A placement with a vendor admission is not one atomic step for the pools.  It locks
    its worker, then reads the inventory and the services, then the reservations, then
    writes; the rows of other workers, of the replicas and of the reservations stay
    unlocked all the while.  The system below takes these steps apart, so that other
    placements, assignments of replicas, reports and recoveries come in between.

    The headline is `deferred_placement_never_overbooks`.  Its invariant is the pledge
    of a placement: from the second read on, what the planner offered is free on the
    node.  Replicas cannot take it, because none that may come to the node was floating
    at the first read; other placements cannot, because a node has one worker and the
    worker is locked. -/

namespace MiniAiCloud

open Transaction Reachability Table Option

/-! ## The system -/

/-- How far a placement has come since it locked its worker. -/
inductive PlacingStage where
  /-- The inventory and the services are read; `none` where the planner offers
      nothing. -/
  | surveyed (survey : Option PoolSurvey)
  /-- The planner has answered. -/
  | counted (available : ℤ)

/-- A placement with a vendor admission that holds the lock on its worker. -/
structure Placing where
  taskId : Uuid
  executionId : Uuid
  admission : BatchAdmissionSnapshot
  leaseSeconds : ℚ
  prices : Prices
  /-- The pool the planner is asked for, its resource name normalized. -/
  pool : PoolRequest
  stage : PlacingStage

/-- The arguments of `place` once the planner has answered. -/
def Placing.request (placing : Placing) (available : ℤ) : PlacementRequest where
  leaseSeconds := placing.leaseSeconds
  prices := placing.prices
  admission := some placing.admission
  catalogAvailable := true
  availableAccelerators := available

/-- The database and, for each worker, the placement that holds its row. -/
structure Depot where
  db : Db
  lock : WorkerId → Option Placing

/-- The depot with another holder of a worker row. -/
def Depot.locked (s : Depot) (workerId : WorkerId) (holder : Option Placing) : Depot :=
  { s with lock := fun w => if w = workerId then holder else s.lock w }

inductive DepotCall where
  /-- A placement locks its worker and makes the first read. -/
  | start (taskId : Uuid) (workerId : WorkerId) (executionId : Uuid)
      (admission : BatchAdmissionSnapshot) (leaseSeconds : ℚ) (prices : Prices)
  /-- It makes the second read and has the answer of the planner. -/
  | count (workerId : WorkerId)
  /-- It checks and writes, and ends. -/
  | place (now : Time) (workerId : WorkerId)
  /-- It is rolled back. -/
  | abandon (workerId : WorkerId)
  | assign (now : Time) (fence : ReplicaFence) (workerId : WorkerId) (nodeName : String)
  | finish (now : Time) (caller : Caller) (report : Report)
  | recover (now : Time) (locked : List Uuid) (limit : ℕ) (maxRecoveryAttempts : ℤ)
      (cleanupGraceSeconds : ℚ)

/-- The first read of a placement. -/
def startPlacing (catalog : RuntimeProfileCatalog) (pool : PoolRequest) :
    Txn (PoolRequest × Option PoolSurvey) := do
  let pool ← pool.normalized
  let survey ← surveyPool catalog pool
  pure (pool, survey)

/-- A placement starts where its worker is not locked and its task is there. -/
def Depot.start (catalog : RuntimeProfileCatalog) (s : Depot) (taskId : Uuid)
    (workerId : WorkerId) (executionId : Uuid) (admission : BatchAdmissionSnapshot)
    (leaseSeconds : ℚ) (prices : Prices) : Depot :=
  match s.lock workerId, s.db.tasks.get? taskId with
  | none, some task =>
    match startPlacing catalog (admission.pool workerId task) s.db with
    | .ok (pool, survey) _ => s.locked workerId (some {
        taskId := taskId
        executionId := executionId
        admission := admission
        leaseSeconds := leaseSeconds
        prices := prices
        pool := pool
        stage := .surveyed survey })
    | .error _ _ => s
  | _, _ => s

/-- The second read; a planner that raises ends the placement. -/
def Depot.count (catalog : RuntimeProfileCatalog) (s : Depot) (workerId : WorkerId) :
    Depot :=
  match s.lock workerId with
  | none => s
  | some placing =>
    match placing.stage with
    | .counted _ => s
    | .surveyed none => s.locked workerId (some { placing with stage := .counted 0 })
    | .surveyed (some survey) =>
      match countPool catalog placing.pool survey s.db with
      | .ok available _ =>
        s.locked workerId (some { placing with stage := .counted available })
      | .error _ _ => s.locked workerId none

/-- The rest of a placement, as one transaction: the rows its checks read are locked. -/
def Depot.place (s : Depot) (now : Time) (workerId : WorkerId) : Depot :=
  match s.lock workerId with
  | none => s
  | some placing =>
    match placing.stage with
    | .surveyed _ => s
    | .counted available => { s.locked workerId none with
        db := commit (MiniAiCloud.place now placing.taskId workerId placing.executionId
          (placing.request available)) s.db }

/-- Placements with a vendor admission among the other calls.  At first no worker is
    locked. -/
def depot (catalog : RuntimeProfileCatalog) : System Depot DepotCall where
  init s := Fleet s.db ∧ Contracted catalog s.db ∧ ∀ w, s.lock w = none
  step
    | .start taskId workerId executionId admission leaseSeconds prices, s =>
      s.start catalog taskId workerId executionId admission leaseSeconds prices
    | .count workerId, s => s.count catalog workerId
    | .place now workerId, s => s.place now workerId
    | .abandon workerId, s => s.locked workerId none
    | .assign now fence workerId nodeName, s =>
      { s with db := commit (recordReplicaAssignment now fence workerId nodeName) s.db }
    | .finish now caller report, s =>
      { s with db := commit (finishExecution now caller report) s.db }
    | .recover now locked limit attempts grace, s =>
      { s with db := commit (recoverExpired now locked limit attempts grace) s.db }

/-! ## What a placement writes -/

section Placing

variable {now : Time} {t x : Uuid} {w : WorkerId} {db mid db' : Db}

/-- A task with a reservation inserted had no active one. -/
theorem insertReservation_free {r : ResourceReservation} {u : Unit}
    (h : insertReservation x r db = .ok u db') {y : Uuid} {old : ResourceReservation}
    (hget : db.reservations.get? y = some old) (hact : old.releasedAt = none) :
    old.taskId ≠ r.taskId := by
  rw [insertReservation, bind_get] at h
  obtain ⟨_, _, _, h⟩ := bind_ok.mp h
  simp only [bind_ok, raiseIf_ok] at h
  obtain ⟨_, _, _, _, _, ⟨hfree, _⟩, _⟩ := h
  intro htask
  exact hfree ⟨(y, old), mem_rows.mpr hget, htask, hact⟩

theorem assign_free {task : Task} {worker : Worker} {a : Assignment} {u : Unit}
    (h : assign now t task worker a db = .ok u db') {y : Uuid} {old : ResourceReservation}
    (hget : db.reservations.get? y = some old) (hact : old.releasedAt = none) :
    old.taskId ≠ t := by
  rw [assign, bind_get] at h
  simp only [bind_ok, modify_ok] at h
  obtain ⟨_, _, hwks, _, db₂, hexec, _, _, hres, _⟩ := h
  obtain ⟨_, hdb₂⟩ := insertExecution_ok hexec
  have hget₂ : db₂.reservations.get? y = some old := by
    rw [hdb₂, hwks]
    exact hget
  exact insertReservation_free hres hget₂ hact

theorem markPlaced_node {task marked : Task} {request : PlacementRequest}
    {devices : List (Uuid × GpuDevice)}
    (h : markPlaced now t task w x request devices db = .ok marked db') :
    marked.kubernetesNodeName = request.admission.map (·.nodeName)
      ∧ marked.gpuCount = task.gpuCount := by
  simp only [markPlaced, ensureTransition, recordTaskEvent, recordEvent, bind_ok, raiseIf_ok,
    modify_ok, pure_ok] at h
  obtain ⟨_, _, ⟨_, rfl⟩, _, _, rfl, _, _, ⟨_, rfl⟩, _, _, rfl, rfl, rfl⟩ := h
  exact ⟨rfl, rfl⟩

/-- The planner's answer covers the task. -/
theorem placeable_covered {request : PlacementRequest} {admission : BatchAdmissionSnapshot}
    {task : Task} {worker : Worker} {devices : List (Uuid × GpuDevice)}
    (hadm : request.admission = some admission)
    (h : placeable now t w request db = .ok (task, worker, devices) mid) :
    task.gpuCount ≤ request.availableAccelerators := by
  rw [placeable, bind_get] at h
  simp only [bind_ok, expect_ok, raiseIf_ok, pure_ok] at h
  obtain ⟨_, _, ⟨_, rfl⟩, _, _, ⟨_, rfl⟩, _, _, _, _, _, ⟨_, rfl⟩, _, _,
    ⟨_, rfl⟩, _, _, ⟨_, rfl⟩, _, _, ⟨_, rfl⟩, _, _, ⟨_, rfl⟩, _, _, ⟨_, rfl⟩, _, _, ⟨_, rfl⟩,
    _, _, hdevs, _, _, _, hres, _⟩ := h
  rw [placementDevices, bind_get] at hdevs
  simp only [hadm, bind_ok, raiseIf_ok] at hdevs
  obtain ⟨_, _, _, _, _, _, _, _, ⟨hcov, _⟩, _⟩ := hdevs
  rw [← (Prod.mk.inj hres).1]
  exact not_lt.mp hcov

/-- What a placement with a vendor admission leaves for the planner to read: one more
    deferred reservation, on the node of the admission. -/
structure Booked (t x : Uuid) (w : WorkerId) (admission : BatchAdmissionSnapshot)
    (available : ℤ) (r : ResourceReservation) (db db' : Db) : Prop where
  inventory : SameInventory db db'
  services : db'.modelServices = db.modelServices
  replicas : db'.serviceReplicas = db.serviceReplicas
  tasks : ∀ y, y ≠ t → db'.tasks.get? y = db.tasks.get? y
  free : ∀ y old, db.reservations.get? y = some old → old.releasedAt = none → old.taskId ≠ t
  fresh : db.reservations.get? x = none
  reservations : db'.reservations = db.reservations.insert x r
  deferred : r.Deferred
  node : reservedNode db' r = some admission.nodeName
  vendor : r.requestedVendor = some admission.vendor
  profile : r.requestedProfile = some admission.runtimeProfile
  gpus : 0 < r.gpuCount ∧ r.gpuCount ≤ available

/-- **A PLACEMENT** books what it checked. -/
theorem place_booked {request : PlacementRequest} {admission : BatchAdmissionSnapshot}
    {result : Task × Uuid} (hadm : request.admission = some admission)
    (h : place now t w x request db = .ok result db') :
    ∃ r, Booked t x w admission request.availableAccelerators r db db' := by
  simp only [place, bind_ok, pure_ok] at h
  obtain ⟨⟨task, worker, devices⟩, _, hplc, marked, last, hmark, _, _, hassign, _, hend⟩ := h
  rw [hend] at hassign
  have hcov := placeable_covered hadm hplc
  obtain ⟨hclr, _⟩ := placeable_ok hplc
  obtain ⟨hnode, hgpus⟩ := markPlaced_node hmark
  obtain ⟨_, _, _, hlast⟩ := markPlaced_ok hmark
  have hasg := assign_ok hassign
  obtain ⟨_, _, row, _, _, _, _, hdb'⟩ := hasg.rows
  obtain ⟨_, _, _, hmid, _⟩ := hclr.moves
  -- everything before the writes has left the tables of the planner alone
  have hstock : last.stock = db.stock := by
    rw [hlast, hmid]
    rfl
  simp only [Db.stock, Prod.mk.injEq] at hstock
  obtain ⟨hdevs, hwks, hsvcs, hreps, htasks, hresv⟩ := hstock
  have hchk := hasg.checked
  have hwk : last.workers.get? w = some worker := by
    rw [hwks]
    exact hclr.worker_row
  have htask : last.tasks.get? t = some task := by
    rw [htasks]
    exact hclr.row
  have hbound : request.bound devices = [] := if_neg (by rw [hadm]; exact Bool.false_ne_true)
  -- a reservation with a profile has accelerators
  have hprof : (request.requested marked.gpuCount).requestedProfile
      = some admission.runtimeProfile := by
    rw [PlacementRequest.requested, hadm]
  have hpos : 0 < marked.gpuCount := by
    refine lt_of_le_of_ne hchk.gpus ?_
    intro hzero
    have hn : (request.requested marked.gpuCount).requestedProfile = none := hchk.unasked hzero.symm
    rw [hprof] at hn
    cases hn
  have hchargedSite : db'.workers.map Worker.site = last.workers.map Worker.site := by
    rw [hdb']
    exact map_set_eq hwk rfl
  refine ⟨_, {
    inventory := ⟨by rw [hdb']; exact hdevs, by rw [hchargedSite, hwks]⟩
    services := by rw [hdb']; exact hsvcs
    replicas := by rw [hdb']; exact hreps
    tasks := ?_
    free := ?_
    fresh := ?_
    reservations := by rw [hdb', hresv]
    deferred := ⟨rfl, ?_⟩
    node := ?_
    vendor := ?_
    profile := hprof
    gpus := ⟨hpos, by rw [← hgpus] at hcov; exact hcov⟩ }⟩
  · intro y hy
    rw [hdb', ← htasks]
    exact get?_set_ne _ _ hy
  · rw [← hresv]
    exact fun y old hget hact => assign_free hassign hget hact
  · rw [← hresv]
    exact hasg.reservation_fresh
  · -- nothing is bound, so only the device plugin can vouch for the accelerators
    rcases hchk.evidence with hzero | hplug | hlegacy | hobs
    · exact absurd hzero (ne_of_gt hpos)
    · exact hplug
    · cases hlegacy
    · rw [Assignment.reservation, hbound] at hobs
      cases hobs
  · rw [reservedNode, hdb']
    show ((last.workers.set w _).get? w).bind (fun worker =>
      ((last.tasks.set t marked).get? t).bind (fun task =>
        some (task.kubernetesNodeName.getD worker.nodeName))) = _
    rw [get?_set_self hwk, get?_set_self htask, bind_some, bind_some, hnode, hadm]
    rfl
  · show (request.requested marked.gpuCount).requestedVendor = some admission.vendor
    rw [PlacementRequest.requested, hadm]
    exact if_pos (ne_of_gt hpos)

variable {admission : BatchAdmissionSnapshot} {available : ℤ} {r : ResourceReservation}
  {catalog : RuntimeProfileCatalog}

variable (h : Booked t x w admission available r db db')

include h

theorem Booked.drifts : Drifts db db' := Drifts.of_same h.inventory h.services h.replicas

/-- The reservations that were active stay on their nodes. -/
theorem Booked.booksAt_iff {y : Uuid}
    {old : ResourceReservation} (hget : db.reservations.get? y = some old)
    (node resourceName : String) :
    old.BooksAt catalog db' node resourceName ↔ old.BooksAt catalog db node resourceName := by
  have hnode : old.Deferred → reservedNode db' old = reservedNode db old := by
    intro hdef
    have hsite := h.inventory.site old.workerId
    have htask := h.tasks old.taskId (h.free y old hget hdef.1)
    rw [reservedNode, reservedNode, htask]
    cases hw' : db'.workers.get? old.workerId with
    | none =>
      rw [hw', map_none] at hsite
      rw [map_eq_none_iff.mp hsite.symm]
    | some w' =>
      rw [hw', map_some] at hsite
      obtain ⟨v, hv, heq⟩ := map_eq_some_iff.mp hsite.symm
      have hname : w'.nodeName = v.nodeName := (congrArg Site.nodeName heq).symm
      rw [hv]
      show (db.tasks.get? old.taskId).bind (fun task =>
          some (task.kubernetesNodeName.getD w'.nodeName))
        = (db.tasks.get? old.taskId).bind (fun task =>
          some (task.kubernetesNodeName.getD v.nodeName))
      rw [hname]
  constructor
  · rintro ⟨hdef, hat, hres⟩
    exact ⟨hdef, by rw [← hnode hdef]; exact hat, hres⟩
  · rintro ⟨hdef, hat, hres⟩
    exact ⟨hdef, by rw [hnode hdef]; exact hat, hres⟩

/-- A placement adds its own accelerators, where it books, and nothing elsewhere. -/
theorem Booked.bookedAt (node resourceName : String) :
    bookedAt catalog db' node resourceName = bookedAt catalog db node resourceName
      + if r.BooksAt catalog db' node resourceName then r.gpuCount else 0 := by
  rw [MiniAiCloud.bookedAt, h.reservations, sum_insert h.fresh, MiniAiCloud.bookedAt]
  congr 1
  refine sum_congr ?_
  intro _ _ hget
  simp only [h.booksAt_iff hget]

theorem Booked.contracted {resourceName : String} (hkept : Contracted catalog db)
    (hcon : ∃ kind, kubernetesResourceContract resourceName
      = some (admission.vendor, kind))
    (hprof : profileResource catalog (some admission.runtimeProfile)
      = some resourceName) : Contracted catalog db' := by
  intro y old hget hdef
  rw [h.reservations] at hget
  rcases get?_insert_cases hget with ⟨_, rfl⟩ | hold
  · refine ⟨h.gpus.1.le, ?_⟩
    intro _ hname
    rw [h.profile, hprof] at hname
    obtain ⟨kind, hkind⟩ := hcon
    rw [← some.inj hname]
    exact ⟨admission.vendor, kind, hkind, h.vendor⟩
  · exact hkept y old hold hdef

end Placing

/-! ## What an assignment of a replica changes -/

section Assigning

variable {db db' : Db} {now : Time} {fence : ReplicaFence} {w : WorkerId} {name : String}

/-- A valid node name is not changed by the normalization. -/
theorem normalizedText_node (h : isDnsSubdomain name = true) :
    normalizedText (some name) = some name := by
  simp only [isDnsSubdomain, Bool.and_eq_true, decide_eq_true_eq] at h
  obtain ⟨⟨⟨hne, hstrip⟩, _⟩, _⟩ := h
  rw [normalizedText, map_some, ← hstrip]
  exact filter_some_pos (decide_eq_true hne)

/-- An assignment writes nothing, or the node of one replica that had none. -/
theorem recordReplicaAssignment_ok {b : Bool}
    (h : recordReplicaAssignment now fence w name db = .ok b db') :
    db' = db ∨ ∃ replica replica' admission, db.serviceReplicas.get? fence.replicaId = some replica
        ∧ replica.assignedNodeName = none ∧ replica.admission = some admission
        ∧ name ∈ admission.eligibleNodeNames ∧ isDnsSubdomain name = true
        ∧ replica' = { replica with
            assignedNodeName := some name
            updatedAt := now
            version := replica.version + 1 }
        ∧ db' = { db with
            serviceReplicas := db.serviceReplicas.set fence.replicaId replica' } := by
  simp only [recordReplicaAssignment, validateKubernetesDnsSubdomain, bind_ok, raiseIf_ok,
    pure_ok] at h
  obtain ⟨_, _, ⟨_, _, ⟨hvalid, hsame₁⟩, hname, hsame₂⟩, hfncd⟩ := h
  rw [← hname, ← hsame₂, hsame₁] at hfncd
  have hvalid' : isDnsSubdomain name = true := by simpa using hvalid
  rcases sessionFenced_ok hfncd with ⟨-, heq⟩ | ⟨_, hrep⟩
  · exact .inl heq
  rcases onReplica_ok hrep with ⟨-, heq⟩ | ⟨service, replica, hget, _, hbody⟩
  · exact .inl heq
  obtain ⟨_, _, hcheck, hr⟩ := bind_ok.mp hbody
  obtain ⟨helig, hmid⟩ := raiseIf_ok.mp hcheck
  obtain ⟨admission, hadm, hmem⟩ := not_not.mp helig
  rw [hmid] at hr
  cases hasg : replica.assignedNodeName with
  | some =>
    simp only [hasg, raiseIf_ok] at hr
    exact .inl hr.2
  | none =>
    simp only [hasg, saveReplica, modify_ok] at hr
    exact .inr ⟨replica, _, admission, hget, hasg, hadm, hmem, hvalid', rfl, hr⟩

/-- The commitment of a replica before and after it is assigned. -/
theorem replicaCommitment_assigned {replica : ServiceReplica} {c' : ServiceReplicaCommitment}
    {time : Time} {version : ℤ} (hname : isDnsSubdomain name = true)
    (hn : replica.assignedNodeName = none)
    (h : c' ∈ replicaCommitment db { replica with
      assignedNodeName := some name
      updatedAt := time
      version := version }) :
    ∃ c ∈ replicaCommitment db replica, c.assignedNodeName = none
      ∧ c' = { c with assignedNodeName := some name } := by
  obtain ⟨service, hsvc, haccl, hst, rfl⟩ := mem_replicaCommitment h
  refine ⟨serviceCommitment replica.admission service.gang replica.assignedNodeName, ?_, ?_, ?_⟩
  · refine map_eq_some_iff.mpr ⟨service, ?_, rfl⟩
    exact filter_eq_some_iff.mpr ⟨hsvc, decide_eq_true ⟨haccl, hst⟩⟩
  · rw [hn]
    rfl
  · rw [serviceCommitment, serviceCommitment, normalizedText_node hname]

/-- **AN ASSIGNMENT** drifts: only a floating replica gets a node. -/
theorem recordReplicaAssignment_drifts {b : Bool}
    (h : recordReplicaAssignment now fence w name db = .ok b db') : Drifts db db' := by
  rcases recordReplicaAssignment_ok h with
    rfl | ⟨replica, replica', admission, hget, hn, hadm, helig, hvalid, hrep', rfl⟩
  · exact Drifts.refl _
  -- where nothing floats, the replica cannot be one of the resource that comes here
  have helsewhere : ∀ node resourceName, NoFloating db node resourceName →
      ∀ c ∈ replicaCommitment db replica, c.assignedNodeName = none →
      c.resourceName = some resourceName → name ≠ node := by
    intro _ _ hfloat c hc hunasg hres hnode
    refine hfloat fence.replicaId replica hget c hc ⟨hres, hunasg, ?_⟩
    obtain ⟨_, _, _, _, rfl⟩ := mem_replicaCommitment hc
    intro nodes hnodes
    have hnodes' : (replica.admission.map (·.eligibleNodeNames)).filter
        (fun nodes => nodes ≠ [] ∧ nodes.Pairwise (· < ·)) = some nodes := hnodes
    obtain ⟨hsome, _⟩ := filter_eq_some_iff.mp hnodes'
    rw [hadm] at hsome
    rw [← some.inj hsome, ← hnode]
    exact helig
  refine ⟨⟨rfl, rfl⟩, rfl, ?_, ?_⟩
  · intro x found hf
    rcases get?_set_cases hf with ⟨rfl, rfl⟩ | ⟨_, hold⟩
    · exact ⟨replica, hget, by rw [hrep']⟩
    · exact ⟨found, hold, rfl⟩
  · intro node resourceName hfloat
    refine ⟨?_, ?_⟩
    · intro x found hf c hc
      rcases get?_set_cases hf with ⟨_, rfl⟩ | ⟨_, hold⟩
      · rw [hrep'] at hc
        obtain ⟨_, _, _, rfl⟩ := replicaCommitment_assigned hvalid hn hc
        exact fun hfloating => nomatch hfloating.2.1
      · exact hfloat x found hold c hc
    · rw [gangsAt, gangsAt]
      have hterm : ((replicaCommitment db replica').map
            (ServiceReplicaCommitment.share node resourceName)).getD 0
          = ((replicaCommitment db replica).map
            (ServiceReplicaCommitment.share node resourceName)).getD 0 := by
        cases hc' : replicaCommitment db replica' with
        | none =>
          rw [hrep'] at hc'
          have hn' : replicaCommitment db replica = none := by
            rw [replicaCommitment, map_eq_none_iff] at hc' ⊢
            exact hc'
          rw [hn']
        | some =>
          rw [hrep'] at hc'
          obtain ⟨c, hc, hunasg, rfl⟩ := replicaCommitment_assigned hvalid hn hc'
          have hc'' : replicaCommitment db replica = some c := hc
          have hold : c.share node resourceName = 0 := by
            refine if_neg ?_
            rintro ⟨_, hasg⟩
            rw [hunasg] at hasg
            cases hasg
          have hnew : ServiceReplicaCommitment.share node resourceName
              { c with assignedNodeName := some name } = 0 := by
            refine if_neg ?_
            rintro ⟨hres, hnode⟩
            exact helsewhere node resourceName hfloat c hc hunasg hres (some.inj hnode)
          rw [hc'', map_some, map_some, getD_some, getD_some, hold, hnew]
      have hsum := sum_set hget replica' (fun _ replica =>
        ((replicaCommitment db replica).map
          (ServiceReplicaCommitment.share node resourceName)).getD 0)
      rw [hterm, sub_add_cancel] at hsum
      exact hsum

end Assigning

/-! ## Pledges are kept -/

section Pledges

variable {catalog : RuntimeProfileCatalog} {db db' : Db} {w : WorkerId}

/-- What a placement under way can rely on. -/
def PlacingStage.Sound (catalog : RuntimeProfileCatalog) (db : Db) (pool : PoolRequest)
    (node : String) : PlacingStage → Prop
  | .surveyed none => True
  | .surveyed (some survey) => ∃ old old', Fleet old ∧ Drifts old db
      ∧ surveyPool catalog pool old = .ok (some survey) old'
  | .counted available => 0 < available → Pledge catalog db pool node available

/-- The pool of a placement is the one of its admission, on its worker. -/
structure Placing.Sound (catalog : RuntimeProfileCatalog) (db : Db) (w : WorkerId)
    (placing : Placing) : Prop where
  worker : placing.pool.workerId = w
  node : placing.pool.nodeName = some placing.admission.nodeName
  vendor : placing.pool.vendor = placing.admission.vendor
  profile : placing.pool.profile = placing.admission.runtimeProfile
  stage : placing.stage.Sound catalog db placing.pool placing.admission.nodeName

/-- A pledge survives a drift in which no more is booked on its node. -/
theorem Pledge.drift {pool : PoolRequest} {node : String} {value : ℤ}
    (h : Pledge catalog db pool node value) (hdrift : Drifts db db')
    (hbkd : bookedAt catalog db' node pool.resourceName
      ≤ bookedAt catalog db node pool.resourceName) : Pledge catalog db' pool node value := by
  obtain ⟨hsett, hgangs⟩ := hdrift.gangs node pool.resourceName h.settled
  refine ⟨hdrift.reports h.reports, h.contract, h.profile, hsett, ?_⟩
  rw [hgangs, hdrift.inventory.healthyAt]
  have hroom := h.room
  omega

theorem Placing.Sound.drift {placing : Placing} (h : placing.Sound catalog db w)
    (hdrift : Drifts db db')
    (hbkd : ∀ available, placing.stage = .counted available → 0 < available →
      bookedAt catalog db' placing.admission.nodeName placing.pool.resourceName
        ≤ bookedAt catalog db placing.admission.nodeName placing.pool.resourceName) :
    placing.Sound catalog db' w := by
  refine ⟨h.worker, h.node, h.vendor, h.profile, ?_⟩
  have hstage := h.stage
  cases hcase : placing.stage with
  | surveyed survey =>
    rw [hcase] at hstage
    cases survey with
    | none => exact trivial
    | some =>
      obtain ⟨old, old', hfleet, hold, hsur⟩ := hstage
      exact ⟨old, old', hfleet, hold.trans hdrift, hsur⟩
  | counted available =>
    rw [hcase] at hstage
    intro hpos
    exact (hstage hpos).drift hdrift (hbkd available hcase hpos)

/-- The invariant of the depot. -/
structure Depot.Sound (catalog : RuntimeProfileCatalog) (s : Depot) : Prop where
  fleet : Fleet s.db
  contracted : Contracted catalog s.db
  placing : ∀ w placing, s.lock w = some placing → placing.Sound catalog s.db w

/-- Handing a worker row to another holder. -/
theorem Depot.Sound.locked {s : Depot} (h : s.Sound catalog) {w : WorkerId}
    {holder : Option Placing}
    (hholder : ∀ placing, holder = some placing → placing.Sound catalog s.db w) :
    (s.locked w holder).Sound catalog := by
  refine ⟨h.fleet, h.contracted, ?_⟩
  intro v placing hlock
  have hlock' : (if v = w then holder else s.lock v) = some placing := hlock
  by_cases hv : v = w
  · rw [if_pos hv] at hlock'
    rw [hv]
    exact hholder placing hlock'
  · rw [if_neg hv] at hlock'
    exact h.placing v placing hlock'

/-- A change that drifts and books nothing more. -/
theorem Depot.Sound.drift {s : Depot} (h : s.Sound catalog) (hdrift : Drifts s.db db')
    (hcon : Contracted catalog db')
    (hbkd : ∀ node resourceName, bookedAt catalog db' node resourceName
      ≤ bookedAt catalog s.db node resourceName) :
    Depot.Sound catalog { s with db := db' } where
  fleet := hdrift.fleet h.fleet
  contracted := hcon
  placing v placing hlock := (h.placing v placing hlock).drift hdrift (fun _ _ _ => hbkd _ _)

theorem Depot.Sound.eases {s : Depot} (h : s.Sound catalog) (heases : Eases s.db db') :
    Depot.Sound catalog { s with db := db' } :=
  h.drift heases.drifts (heases.contracted h.contracted)
    (fun node resourceName => heases.bookedAt_le h.contracted node resourceName)

/-- The first read. -/
theorem Depot.Sound.start {s : Depot} (h : s.Sound catalog) (t x : Uuid) (w : WorkerId)
    (admission : BatchAdmissionSnapshot) (lease : ℚ) (prices : Prices) :
    (s.start catalog t w x admission lease prices).Sound catalog := by
  rw [Depot.start]
  split
  · rename_i task hlock hrow
    split
    · rename_i pool survey mid hstart
      refine h.locked ?_
      intro _ hplacing
      rw [← some.inj hplacing]
      simp only [startPlacing, PoolRequest.normalized, bind_ok, raiseIf_ok, pure_ok] at hstart
      obtain ⟨_, _, ⟨_, _, ⟨_, rfl⟩, rfl, rfl⟩, found, _, hsur, hpair, rfl⟩ := hstart
      obtain ⟨rfl, rfl⟩ := Prod.mk.inj hpair
      refine ⟨rfl, rfl, rfl, rfl, ?_⟩
      cases found with
      | none => exact trivial
      | some => exact ⟨s.db, _, h.fleet, Drifts.refl _, hsur⟩
    · exact h
  · exact h

/-- The second read: the planner's answer is a pledge. -/
theorem Depot.Sound.count {s : Depot} (h : s.Sound catalog) (w : WorkerId) :
    (s.count catalog w).Sound catalog := by
  rw [Depot.count]
  cases hlock : s.lock w with
  | none => exact h
  | some placing =>
    have hsnd := h.placing w placing hlock
    have hcnt : ∀ available, (0 < available →
        Pledge catalog s.db placing.pool placing.admission.nodeName available) →
        (s.locked w (some { placing with stage := .counted available })).Sound catalog := by
      intro _ hplg
      refine h.locked ?_
      intro _ hmoved
      rw [← some.inj hmoved]
      exact ⟨hsnd.worker, hsnd.node, hsnd.vendor, hsnd.profile, hplg⟩
    have hstage := hsnd.stage
    simp only
    split
    · exact h
    · exact hcnt 0 (fun hpos => absurd hpos (lt_irrefl 0))
    · rename_i survey hcase
      rw [hcase] at hstage
      obtain ⟨_, _, hfleet, hdrift, hsur⟩ := hstage
      split
      · rename_i available mid hcount
        exact hcnt available (fun hpos => countPool_spec hfleet hdrift h.contracted
          hsnd.node hsur hcount hpos)
      · exact h.locked (fun _ hn => nomatch hn)

/-- The pledge behind a placement that went through, and what it booked. -/
theorem Depot.Sound.placed {s : Depot} (h : s.Sound catalog) {w : WorkerId}
    {placing : Placing} {available : ℤ} {now : Time} {result : Task × Uuid}
    (hlock : s.lock w = some placing) (hstage : placing.stage = .counted available)
    (hplace : MiniAiCloud.place now placing.taskId w placing.executionId
      (placing.request available) s.db = .ok result db') :
    Pledge catalog s.db placing.pool placing.admission.nodeName available
      ∧ ∃ r, Booked placing.taskId placing.executionId w placing.admission available r s.db db'
        ∧ ∀ node resourceName, r.BooksAt catalog db' node resourceName
          ↔ node = placing.admission.nodeName ∧ resourceName = placing.pool.resourceName := by
  have hsnd := h.placing w placing hlock
  have hadm : (placing.request available).admission = some placing.admission := rfl
  obtain ⟨r, hbkd⟩ := place_booked hadm hplace
  have hplg : Pledge catalog s.db placing.pool placing.admission.nodeName available := by
    have hpledges := hsnd.stage
    rw [hstage] at hpledges
    exact hpledges (lt_of_lt_of_le hbkd.gpus.1 hbkd.gpus.2)
  refine ⟨hplg, r, hbkd, ?_⟩
  intro node resourceName
  have hres : profileResource catalog r.requestedProfile
      = some placing.pool.resourceName := by
    rw [hbkd.profile, ← hsnd.profile]
    exact hplg.profile
  constructor
  · rintro ⟨_, hnode, hname⟩
    rw [hbkd.node] at hnode
    rw [hres] at hname
    exact ⟨(some.inj hnode).symm, (some.inj hname).symm⟩
  · rintro ⟨rfl, rfl⟩
    exact ⟨hbkd.deferred, hbkd.node, hres⟩

/-- **A PLACEMENT LEAVES THE OTHER PLEDGES ALONE**: on the node of another pledge it
    would hold the same worker. -/
theorem Depot.Sound.place {s : Depot} (h : s.Sound catalog) (now : Time) (w : WorkerId) :
    (s.place now w).Sound catalog := by
  rw [Depot.place]
  cases hlock : s.lock w with
  | none => exact h
  | some placing =>
    simp only
    split
    · exact h
    · rename_i available hstage
      cases hplace : MiniAiCloud.place now placing.taskId w placing.executionId
          (placing.request available) s.db with
      | error =>
        rw [commit_of_error hplace]
        exact h.locked (fun _ hn => nomatch hn)
      | ok _ db' =>
        rw [commit_of_ok hplace]
        obtain ⟨hplg, r, hbkd, hbooks⟩ := h.placed hlock hstage hplace
        have hsnd := h.placing w placing hlock
        refine ⟨hbkd.drifts.fleet h.fleet, ?_, ?_⟩
        · refine hbkd.contracted h.contracted ?_ (hsnd.profile ▸ hplg.profile)
          rw [← hsnd.vendor]
          exact hplg.contract
        · intro v other hoth
          have hoth' : (if v = w then none else s.lock v) = some other := hoth
          by_cases hv : v = w
          · rw [if_pos hv] at hoth'
            cases hoth'
          rw [if_neg hv] at hoth'
          have hoths := h.placing v other hoth'
          refine hoths.drift hbkd.drifts ?_
          intro _ hcase hpos
          have hotherPledge := hoths.stage
          rw [hcase] at hotherPledge
          -- the other placement holds the one worker that reports its node
          have hnode : ¬ r.BooksAt catalog db' other.admission.nodeName
              other.pool.resourceName := by
            intro hat
            obtain ⟨row, hrow, hrowWorker, hrowNode⟩ := hplg.reports
            obtain ⟨row', hrow', hrowWorker', hrowNode'⟩ := (hotherPledge hpos).reports
            rw [((hbooks _ _).mp hat).1] at hrowNode'
            have heq := h.fleet.one_reporter row hrow row' hrow' _ hrowNode hrowNode'
            rw [hrowWorker, hrowWorker', hsnd.worker, hoths.worker] at heq
            exact hv heq.symm
          rw [hbkd.bookedAt, if_neg hnode, add_zero]

/-- Every step of the depot keeps the pledges. -/
theorem depot_step_sound (i : DepotCall) {s : Depot} (h : s.Sound catalog) :
    ((depot catalog).step i s).Sound catalog := by
  cases i with
  | start t w x admission lease prices => exact h.start t x w admission lease prices
  | count w => exact h.count w
  | place now w => exact h.place now w
  | abandon w => exact h.locked (fun _ hn => nomatch hn)
  | assign now fence w name =>
    show Depot.Sound catalog
      { s with db := commit (recordReplicaAssignment now fence w name) s.db }
    cases hasg : recordReplicaAssignment now fence w name s.db with
    | error =>
      rw [commit_of_error hasg]
      exact h
    | ok b db' =>
      rw [commit_of_ok hasg]
      have hdrift := recordReplicaAssignment_drifts hasg
      have hr : db'.reservations = s.db.reservations ∧ db'.tasks = s.db.tasks
          ∧ db'.workers = s.db.workers := by
        rcases recordReplicaAssignment_ok hasg with rfl | ⟨_, _, _, _, _, _, _, _, _, rfl⟩
        · exact ⟨rfl, rfl, rfl⟩
        · exact ⟨rfl, rfl, rfl⟩
      obtain ⟨hresv, htasks, hwks⟩ := hr
      refine h.drift hdrift ?_ ?_
      · intro x r hget
        rw [hresv] at hget
        exact h.contracted x r hget
      · intro node resourceName
        have hnodes : ∀ r, reservedNode db' r = reservedNode s.db r := by
          intro r
          rw [reservedNode, reservedNode, htasks, hwks]
        rw [bookedAt, hresv, bookedAt]
        refine (sum_congr ?_).le
        intro x r _
        have hiff : r.BooksAt catalog db' node resourceName
            ↔ r.BooksAt catalog s.db node resourceName := by
          rw [ResourceReservation.BooksAt, hnodes]
          exact Iff.rfl
        simp only [hiff]
  | finish now c report =>
    show Depot.Sound catalog { s with db := commit (finishExecution now c report) s.db }
    cases hfin : finishExecution now c report s.db with
    | error =>
      rw [commit_of_error hfin]
      exact h
    | ok =>
      rw [commit_of_ok hfin]
      exact h.eases (finishExecution_eases hfin)
  | recover now locked limit attempts grace =>
    show Depot.Sound catalog
      { s with db := commit (recoverExpired now locked limit attempts grace) s.db }
    cases hrec : recoverExpired now locked limit attempts grace s.db with
    | error =>
      rw [commit_of_error hrec]
      exact h
    | ok =>
      rw [commit_of_ok hrec]
      exact h.eases (recoverExpired_eases hrec)

theorem depot_sound {ok : DepotCall → Depot → Prop} {s : Depot}
    (h : Reach (depot catalog) ok s) : s.Sound catalog := by
  refine h.invariant ?_ ?_
  · rintro s ⟨hfleet, hcon, hfree⟩
    refine ⟨hfleet, hcon, ?_⟩
    intro w _ hlock
    rw [hfree w] at hlock
    cases hlock
  · exact fun i s hsnd _ => depot_step_sound i hsnd

end Pledges

/-- **NO OVER-BOOKING**: whenever a placement with a vendor admission goes through, in
    any interleaving, the accelerators of the deferred reservations on its node for its
    resource, its own included, and the gangs of the replicas assigned there are at most
    the healthy devices. -/
theorem deferred_placement_never_overbooks {catalog : RuntimeProfileCatalog} {s : Depot}
    (hreach : Reach (depot catalog) (fun _ _ => True) s) {w : WorkerId} {placing : Placing}
    {available : ℤ} (hlock : s.lock w = some placing)
    (hstage : placing.stage = .counted available) {now : Time} {result : Task × Uuid}
    {db' : Db}
    (hplace : place now placing.taskId w placing.executionId (placing.request available) s.db
      = .ok result db') :
    ∃ r node resourceName, db'.reservations.get? placing.executionId = some r
      ∧ r.BooksAt catalog db' node resourceName ∧ node = placing.admission.nodeName
      ∧ bookedAt catalog db' node resourceName + gangsAt db' node resourceName
        ≤ healthyAt db' node resourceName := by
  have hsnd := depot_sound hreach
  obtain ⟨hplg, r, hbkd, hbooks⟩ := hsnd.placed hlock hstage hplace
  have hat : r.BooksAt catalog db' placing.admission.nodeName placing.pool.resourceName :=
    (hbooks _ _).mpr ⟨rfl, rfl⟩
  refine ⟨r, placing.admission.nodeName, placing.pool.resourceName, ?_, hat, rfl, ?_⟩
  · rw [hbkd.reservations]
    exact get?_insert_self hbkd.fresh r
  · obtain ⟨_, hgangs⟩ := hbkd.drifts.gangs _ _ hplg.settled
    rw [hbkd.bookedAt, if_pos hat, hgangs, hbkd.drifts.inventory.healthyAt]
    have hroom := hplg.room
    have hgpus := hbkd.gpus.2
    omega

/-- The catalog of one profile. -/
def batchCatalog : RuntimeProfileCatalog where
  manifest := Table.empty.insert (batchProfile.id, batchProfile.version) batchProfile.digest
  runtimeProfiles := Table.empty.insert (batchProfile.id, batchProfile.version) {
    vendor := .nvidia
    kind := .gpu
    resourceName := "nvidia.com/gpu"
    features := []
    dtypes := []
    tensorParallelSupported := false
    semanticDigest := batchProfile.digest }

/-- A worker of Kubernetes publishes one device of a plugin, and a task waits. -/
def pluginDepot : Depot where
  db := controlPlane.run
    [⟨0, .register "w" { gpuWorker with runtimeTypes := ["docker", "kubernetes"] } 100⟩,
     ⟨1, .replaceGpuInventory "w" 100 [pluginGpu]⟩,
     ⟨2, .createQueued 1 { halfCoreTask [] with gpuCount := 1 }⟩] freshCloud
  lock := fun _ => none

/-- What the depot knows at first. -/
theorem pluginDepot_rows : (∀ row ∈ deviceRows pluginDepot.db, row.1.2.workerId = "w")
      ∧ (∀ row ∈ pluginDepot.db.gpuDevices.rows,
          row.2.kubernetesResourceName.all (fun name =>
            (kubernetesResourceContract name).any (·.1 = row.2.vendor)) = true)
      ∧ pluginDepot.db.modelServices.rows = [] ∧ pluginDepot.db.serviceReplicas.rows = []
      ∧ pluginDepot.db.reservations.rows = [] := by
  decide +kernel

theorem pluginDepot_init : (depot batchCatalog).init pluginDepot := by
  obtain ⟨hown, hcon, hsvcs, hreps, hresv⟩ := pluginDepot_rows
  refine ⟨⟨?_, ?_, ?_, ?_⟩, ?_, fun _ => rfl⟩
  · intro row hrow row' hrow' _ _ _
    rw [hown row hrow, hown row' hrow']
  · intro x device hget _ hname
    have hall := hcon (x, device) (mem_rows.mpr hget)
    rw [mem_def.mp hname, all_some, any_eq_true] at hall
    obtain ⟨⟨vendor, kind⟩, hf, hven⟩ := hall
    have heq : vendor = device.vendor := of_decide_eq_true hven
    exact ⟨kind, by rw [hf, heq]⟩
  · intro x _ hget
    cases (get?_of_rows_nil hsvcs x).symm.trans hget
  · intro x _ hget
    cases (get?_of_rows_nil hreps x).symm.trans hget
  · intro x r hget
    cases (get?_of_rows_nil hresv x).symm.trans hget

/-- The placement locks the worker and asks the planner. -/
def countedDepot : Depot :=
  (depot batchCatalog).run
    [.start 1 "w" 11 pluginAdmission 30 standardPrices, .count "w"] pluginDepot

/-- What the planner answered to the placement on a worker. -/
def Depot.answer (s : Depot) (workerId : WorkerId) : Option (Uuid × Uuid × ℤ) :=
  (s.lock workerId).bind (fun placing =>
    match placing.stage with
    | .surveyed _ => none
    | .counted available => some (placing.taskId, placing.executionId, available))

/-- The planner offers the one device, the task is placed on it, and the node is full
    and not over-booked. -/
theorem deferred_placement_never_overbooks_plugin :
    ∃ placing result db', countedDepot.lock "w" = some placing
      ∧ placing.stage = .counted 1
      ∧ place 3 placing.taskId "w" placing.executionId (placing.request 1) countedDepot.db
        = .ok result db'
      ∧ ∃ r node resourceName, db'.reservations.get? placing.executionId = some r
        ∧ r.BooksAt batchCatalog db' node resourceName ∧ node = placing.admission.nodeName
        ∧ bookedAt batchCatalog db' node resourceName + gangsAt db' node resourceName
          ≤ healthyAt db' node resourceName := by
  have hreach : Reach (depot batchCatalog) (fun _ _ => True) countedDepot :=
    (Reach.init pluginDepot_init).run _ (allowed_of_forall _ (fun _ _ _ => trivial) _)
  have hanswer : countedDepot.answer "w" = some (1, 11, 1) := by decide +kernel
  have hpld : ((countedDepot.lock "w").bind (fun placing =>
      returned (place 3 placing.taskId "w" placing.executionId (placing.request 1))
        countedDepot.db)).isSome = true := by decide +kernel
  obtain ⟨placing, hlock, hstage⟩ := bind_eq_some_iff.mp hanswer
  rw [hlock, bind_some] at hpld
  obtain ⟨result, hres⟩ := isSome_iff_exists.mp hpld
  obtain ⟨db', hok⟩ := returned_eq_some.mp hres
  cases hcnt : placing.stage with
  | surveyed =>
    rw [hcnt] at hstage
    cases hstage
  | counted available =>
    rw [hcnt] at hstage
    obtain rfl : available = 1 := congrArg (·.2.2) (some.inj hstage)
    exact ⟨placing, result, db', hlock, hcnt, hok,
      deferred_placement_never_overbooks hreach hlock hcnt hok⟩

end MiniAiCloud
