import MiniAiCloud.ReservationProofs

/-! # Picking up a placement

    A worker learns of its placements by asking: `take_global_assignment` returns
    one assigned task at a time.  The query behind it sees the reservation, its
    session and its device links; what follows is which placements it finds, and
    that it finds them after as many calls as the worker has assigned tasks. -/

namespace MiniAiCloud

open Transaction Reachability Cluster Table List

/-! ## Repeated calls -/

/-- One of the calls, made one after the other, returns the task. -/
def takesWithin (w : WorkerId) (s t : Uuid) : List (Time × ℚ) → Db → Prop
  | [], _ => False
  | (now, lease) :: rest, db =>
    (∃ task, returned (takeGlobalAssignment now w s lease []) db = some (some (t, task)))
      ∨ takesWithin w s t rest (commit (takeGlobalAssignment now w s lease []) db)

/-- The tasks of a worker in status assigned. -/
def assignedTasks (db : Db) (w : WorkerId) : List (Uuid × Task) :=
  db.tasks.select (fun _ task => task.workerId = some w ∧ task.status = .assigned)

/-- The worker can take the task. -/
def CanTake (db : Db) (w : WorkerId) (s t : Uuid) : Prop :=
  ∃ task, db.tasks.get? t = some task ∧ Takeable db w s task

section Taking

variable {db : Db} {w : WorkerId} {s t : Uuid}

/-- **ONE CALL** returns nothing where nothing can be taken; otherwise it moves
    some task on that could be taken, and leaves the rest alone. -/
theorem takeGlobalAssignment_takes (db : Db) (w : WorkerId) (s : Uuid) (now : Time) (lease : ℚ) :
    ((∀ t, ¬ CanTake db w s t)
        ∧ takeGlobalAssignment now w s lease [] db = .ok none db)
      ∨ ∃ t task task' events, db.tasks.get? t = some task ∧ Takeable db w s task
        ∧ task'.status = .preparing
        ∧ takeGlobalAssignment now w s lease [] db = .ok (some (t, task'))
            { db with taskEvents := events, tasks := db.tasks.set t task' } := by
  obtain ⟨ordered, hperm, hfirst⟩ := earliest_eq_take
    (db.tasks.select (fun _ task => Takeable db w s task)) (·.assignedAt) [] 1
  have hmem : ∀ t, t ∈ ordered ↔ CanTake db w s t := by
    intro t
    rw [hperm.mem_iff, mem_map]
    constructor
    · rintro ⟨row, hrow, rfl⟩
      obtain ⟨hget, htake⟩ := mem_select.mp (mem_filter.mp hrow).1
      exact ⟨row.2, hget, of_decide_eq_true htake⟩
    · rintro ⟨task, hget, htake⟩
      exact ⟨(t, task), mem_filter.mpr ⟨mem_select.mpr ⟨hget, decide_eq_true htake⟩, rfl⟩, rfl⟩
  rw [takeGlobalAssignment, bind_get]
  cases ordered with
  | nil =>
    refine .inl ⟨?_, ?_⟩
    · intro t htake
      exact not_mem_nil ((hmem t).mpr htake)
    · simp only [hfirst]
      rfl
  | cons t =>
    obtain ⟨task, hget, htake⟩ := (hmem t).mp mem_cons_self
    have hst : task.status = .assigned := htake.2.1
    obtain ⟨moved, mid, hmove⟩ : ∃ moved mid, transition t task .preparing now
        "task.status_changed" db = .ok moved mid := by
      refine ⟨_, _, bind_ok.mpr ⟨(), db, raiseIf_ok.mpr ⟨?_, rfl⟩, rfl⟩⟩
      rw [hst]
      decide
    obtain ⟨_, hmoved, event, _, _, hmid⟩ := transition_ok hmove
    refine .inr ⟨t, task, { moved with leaseExpiresAt := some (now + lease) },
      db.taskEvents ++ [event], hget, htake, ?_, ?_⟩
    · rw [hmoved]
      rfl
    · simp only [hfirst]
      refine bind_ok.mpr ⟨task, db, expect_ok.mpr ⟨hget, rfl⟩, bind_ok.mpr
        ⟨moved, mid, hmove, bind_ok.mpr ⟨(), _, rfl, pure_ok.mpr ⟨rfl, ?_⟩⟩⟩⟩
      rw [hmid]

/-- What a call has taken cannot be taken again; the rest can as before. -/
theorem canTake_after {u : Uuid} {task task' : Task} {events : List TaskEvent}
    (hrow : db.tasks.get? u = some task) (hst : task'.status = .preparing) :
    CanTake { db with taskEvents := events, tasks := db.tasks.set u task' } w s t
      ↔ t ≠ u ∧ CanTake db w s t := by
  constructor
  · rintro ⟨task₁, hget, htake⟩
    have hne : t ≠ u := by
      rintro rfl
      have hset : (db.tasks.set t task').get? t = some task' := get?_set_self hrow task'
      rw [show (db.tasks.set t task').get? t = some task₁ from hget] at hset
      have hasg : task₁.status = .assigned := htake.2.1
      rw [Option.some.inj hset, hst] at hasg
      cases hasg
    refine ⟨hne, task₁, ?_, htake⟩
    rw [← get?_set_ne db.tasks task' hne]
    exact hget
  · rintro ⟨hne, task₁, hget, htake⟩
    refine ⟨task₁, ?_, htake⟩
    show (db.tasks.set u task').get? t = some task₁
    rw [get?_set_ne db.tasks task' hne]
    exact hget

/-- Taking a task leaves one assigned task less. -/
theorem assignedTasks_after {u : Uuid} {task task' : Task} (events : List TaskEvent)
    (hrow : db.tasks.get? u = some task) (htake : Takeable db w s task)
    (hst : task'.status = .preparing) :
    (assignedTasks { db with taskEvents := events, tasks := db.tasks.set u task' } w).length
      + 1 = (assignedTasks db w).length := by
  have hsum : ((assignedTasks { db with
        taskEvents := events, tasks := db.tasks.set u task' } w).length : ℤ)
      = (assignedTasks db w).length - 1 := by
    rw [assignedTasks, assignedTasks, select_length, select_length, Table.sum_set hrow]
    have hold : decide (task.workerId = some w ∧ task.status = .assigned) = true :=
      decide_eq_true ⟨htake.1, htake.2.1⟩
    have hnew : ¬ decide (task'.workerId = some w ∧ task'.status = .assigned) = true := by
      rw [decide_eq_true_iff, hst]
      rintro ⟨_, hasg⟩
      cases hasg
    rw [if_pos hold, if_neg hnew, add_zero]
  omega

/-- Calls return only what can be taken now: a task that is taken later could be
    taken before. -/
theorem canTake_of_takesWithin {moments : List (Time × ℚ)}
    (h : takesWithin w s t moments db) : CanTake db w s t := by
  induction moments generalizing db with
  | nil => exact h.elim
  | cons moment _ ih =>
    obtain ⟨now, lease⟩ := moment
    rcases takeGlobalAssignment_takes db w s now lease with
      ⟨_, hcall⟩ | ⟨u, task, task', events, hrow, htake, hst, hcall⟩
    · rcases h with ⟨taken, hret⟩ | hlater
      · obtain ⟨_, hok⟩ := returned_eq_some.mp hret
        rw [hcall] at hok
        cases hok
      · rw [commit_of_ok hcall] at hlater
        exact ih hlater
    · rcases h with ⟨taken, hret⟩ | hlater
      · obtain ⟨_, hok⟩ := returned_eq_some.mp hret
        rw [hcall] at hok
        cases hok
        exact ⟨task, hrow, htake⟩
      · rw [commit_of_ok hcall] at hlater
        exact ((canTake_after hrow hst).mp (ih hlater)).2

/-- **REPEATED CALLS** return what can be taken, after at most as many calls as the
    worker has assigned tasks. -/
theorem takesWithin_of_canTake {moments : List (Time × ℚ)} (h : CanTake db w s t)
    (heno : (assignedTasks db w).length ≤ moments.length) :
    takesWithin w s t moments db := by
  induction moments generalizing db with
  | nil =>
    obtain ⟨task, hget, htake⟩ := h
    have hmem : (t, task) ∈ assignedTasks db w :=
      mem_select.mpr ⟨hget, decide_eq_true ⟨htake.1, htake.2.1⟩⟩
    rw [length_eq_zero_iff.mp (Nat.le_zero.mp heno)] at hmem
    cases hmem
  | cons moment _ ih =>
    obtain ⟨now, lease⟩ := moment
    rw [length_cons] at heno
    rcases takeGlobalAssignment_takes db w s now lease with
      ⟨hnth, _⟩ | ⟨u, task, task', events, hrow, htake, hst, hcall⟩
    · exact absurd h (hnth t)
    by_cases htu : t = u
    · subst htu
      exact .inl ⟨task', returned_eq_some.mpr ⟨_, hcall⟩⟩
    · have hless := assignedTasks_after events hrow htake hst
      refine .inr ?_
      rw [commit_of_ok hcall]
      exact ih ((canTake_after hrow hst).mpr ⟨htu, h⟩) (by omega)

end Taking

/-! ## What a placement leaves for its worker -/

section Placements

variable {db db' : Db} {now : Time} {t x s : Uuid} {w : WorkerId}

/-- A committed placement binds concrete devices unless a vendor admission stands
    behind it; a task behind an admission asks for accelerators. -/
theorem PlacedAs.exact_iff {request : PlacementRequest} {a : Assignment} {task marked : Task}
    {worker : Worker} {mid last : Db}
    (h : PlacedAs now t request a task marked worker db mid last db') :
    ((a.reservation now t marked worker).hold.exact = true ↔ request.admission = none)
      ∧ (marked.gpuCount = 0 → request.admission = none) := by
  have hunas : marked.gpuCount = 0 → request.admission = none := by
    intro hzero
    have hprof : a.requested.requestedProfile = none := h.assigned.checked.unasked hzero
    rw [h.requested, PlacementRequest.requested] at hprof
    cases hadm : request.admission with
    | none => rfl
    | some =>
      simp only [hadm] at hprof
      cases hprof
  refine ⟨⟨?_, ?_⟩, hunas⟩
  · intro hexact
    by_contra hadm
    -- an admission binds no devices, so an exact one would ask for none
    have hcnt := h.assigned.devices_count h.bound hexact
    rw [h.admitted hadm] at hcnt
    exact hadm (hunas hcnt.symm)
  · intro hadm
    show (decide (a.requested.allocationAuthority = .controlPlaneExactDevice) && !false) = true
    rw [h.requested, PlacementRequest.requested, hadm]
    rfl

/-- Right after a placement the worker and the reservation share a session. -/
theorem PlacedAs.tethered {request : PlacementRequest} {a : Assignment} {task marked : Task}
    {worker current : Worker} {mid last : Db}
    (h : PlacedAs now t request a task marked worker db mid last db')
    (hcur : db'.workers.get? a.workerId = some current) :
    db'.cluster.Tethered a.workerId a.executionId current.workerSessionId
      (a.reservation now t marked worker).hold.exact marked.gpuCount := by
  obtain ⟨_, _, _, _, _, _, _, hdb'⟩ := h.assigned.rows
  have hwk : last.workers.get? a.workerId = some worker := by
    obtain ⟨_, rfl⟩ := h.events
    show mid.workers.get? a.workerId = some worker
    rw [h.cleared.moves.workers]
    exact h.cleared.worker_row
  have hchd : db'.workers.get? a.workerId = some (worker.charged marked a.cpuCharge) := by
    rw [hdb']
    exact get?_set_self hwk _
  have hres : db'.reservations.get? a.executionId
      = some (a.reservation now t marked worker) := by
    rw [hdb']
    exact get?_insert_self h.assigned.reservation_fresh _
  rw [hchd] at hcur
  obtain rfl := Option.some.inj hcur
  exact ⟨⟨_, cluster_slot hchd, rfl⟩, _, cluster_hold hres, rfl, rfl, rfl, rfl⟩

/-- **THE QUERY** finds an assigned task whose reservation is tethered, unless the
    reservation asks for accelerators it has no links to. -/
theorem Cluster.Accounts.canTake_iff {exact : Bool} {gpus : ℤ} {task : Task}
    (h : Accounts db.cluster) (htether : db.cluster.Tethered w x s exact gpus)
    (hrow : db.tasks.get? t = some task) (hasg : task.status = .assigned)
    (hx : task.executionId = some x) :
    CanTake db w s t ↔ exact = true ∨ gpus = 0 := by
  have hheld : task.job.status ∈ holdingStatuses := by
    show task.status ∈ holdingStatuses
    rw [hasg]
    decide
  obtain ⟨e, he, hlive, hjob⟩ := h.owned.hold (cluster_job hrow) hheld hx
  obtain ⟨⟨_, hslot, hsess⟩, _, he', hwk, hs, hexact, hgpus⟩ := htether
  rw [he] at he'
  obtain rfl := Option.some.inj he'
  obtain ⟨_, hjobRow, _, _, hjobWorker, _, hdem⟩ := h.owned.owner x e he hlive
  rw [hjob, cluster_job hrow] at hjobRow
  obtain rfl := Option.some.inj hjobRow
  obtain ⟨worker, hworkerRow, rfl⟩ := get?_map_eq_some.mp hslot
  obtain ⟨r, hact, rfl⟩ := active_of_hold he hlive
  -- the query and the accounts read the same rows
  have htakeable : Takeable db w s task
      ↔ task.gpuCount = 0 ∨ (activeDeviceCount db x : ℤ) = task.gpuCount := by
    constructor
    · rintro ⟨_, _, ⟨_, hy, _, _, _, _, _, hcnt⟩, _⟩
      obtain rfl := Option.mem_unique hx hy
      exact hcnt
    · intro hcnt
      refine ⟨?_, hasg, ⟨x, hx, r, hact.1, hs, hact.2, hdem.symm, hcnt⟩, worker, hworkerRow, hsess⟩
      rw [← hwk]
      exact hjobWorker
  have hcan : CanTake db w s t ↔ Takeable db w s task := by
    constructor
    · rintro ⟨_, hrow', htake⟩
      rw [hrow] at hrow'
      rw [Option.some.inj hrow']
      exact htake
    · exact fun htake => ⟨task, hrow, htake⟩
  have hdem' : task.gpuCount = gpus := hdem.trans hgpus
  rw [hcan, htakeable, hdem', ← linkCount_cluster, or_comm]
  cases exact with
  | true =>
    have hcnt := h.linked.exact x r.hold he hlive hexact
    exact iff_of_true (.inl (hcnt.trans hgpus)) (.inl rfl)
  | false =>
    have hn : linkCount db.cluster.links x = 0 :=
      linkCount_eq_zero (h.linked.bare x r.hold he hexact)
    rw [hn, eq_comm, or_self]
    exact ⟨.inr, fun hor => hor.resolve_left Bool.false_ne_true⟩

end Placements

/-! ## Every placement, over whole runs -/

/-- The call registers the worker. -/
def Op.Registers (w : WorkerId) : Op → Prop
  | .register v _ _ => v = w
  | _ => False

/-- Reports are final, and the worker does not register again. -/
def keepsSession (w : WorkerId) (i : Call) (_ : Db) : Prop :=
  i.op.ReportsFinal ∧ ¬ i.op.Registers w

theorem keepsSession_keeps {w : WorkerId} {i : Call} {db : Db} (h : keepsSession w i db) :
    keepsTo (reportedRules (fun v => v ≠ w)) i db := by
  obtain ⟨hfin, hsess⟩ := h
  revert hfin hsess
  show i.op.ReportsFinal → ¬ i.op.Registers w → i.op.Keeps (reportedRules (fun v => v ≠ w)) db
  cases i.op with
  | register v r fresh => exact fun _ hsess _ => hsess
  | claim t v x lease session prices locked => exact fun _ _ _ _ => trivial
  | finishExecution c report => exact fun hfin _ task _ => Task.outcome_final (hfin _ rfl)
  | _ => exact fun _ _ => trivial

/-- **PICK-UP OF PLACEMENTS**: as long as the task of a committed placement is
    assigned and its worker has not registered again, repeated calls return the task
    after as many calls as the worker has assigned tasks, if and only if no vendor
    admission stands behind the placement. -/
theorem placement_picked_up {db₀ db db₁ : Db} {now : Time} {t x : Uuid} {w : WorkerId}
    {request : PlacementRequest} {result : Task × Uuid} {worker : Worker} {task : Task}
    (moments : List (Time × ℚ)) (hreach : Reach controlPlane finalReports db₀)
    (hplace : place now t w x request db₀ = .ok result db)
    (hwk : db.workers.get? w = some worker)
    (hsteps : Reachability.Steps controlPlane (keepsSession w) db db₁)
    (htask : db₁.tasks.get? t = some task) (hasg : task.status = .assigned)
    (hx : task.executionId = some x)
    (henough : moments.length = (assignedTasks db₁ w).length) :
    takesWithin w worker.workerSessionId t moments db₁ ↔ request.admission = none := by
  have hlife := (reach_accounts hreach).lifecycle
  have hpld : Follows (reportedRules (fun v => v ≠ w)) db₀ db := place_follows hlife hplace
  have hlater : Follows (reportedRules (fun v => v ≠ w)) db db₁ :=
    steps_follow (fun _ _ hi => keepsSession_keeps hi) (hpld.lifecycle hlife) hsteps
  have haccs : Accounts db₁.cluster := (hpld.trans hlater).keeps
    (fun _ _ haccs hstep => haccs.step (fun _ hs => hs) hstep) (reach_accounts hreach)
  obtain ⟨_, _, _, _, _, _, rfl, rfl, has⟩ := place_ok hplace
  have htether := hlater.keeps
    (fun _ _ ha hab => Tethered.step ha (fun hrejoin => absurd rfl hrejoin) hab)
    (has.tethered hwk)
  obtain ⟨hexact, hunas⟩ := has.exact_iff
  have hcan := haccs.canTake_iff htether htask hasg hx
  constructor
  · intro htakes
    rcases hcan.mp (canTake_of_takesWithin htakes) with hbound | hzero
    · exact hexact.mp hbound
    · exact hunas hzero
  · intro hadm
    exact takesWithin_of_canTake (hcan.mpr (.inl (hexact.mpr hadm))) henough.ge

/-- The worker joins, publishes its one accelerator, and a task asks for one. -/
def waitingCalls (item : InventoryItem) : List Call :=
  [⟨0, .register "w" gpuWorker 100⟩, ⟨1, .replaceGpuInventory "w" 100 [item]⟩,
   ⟨2, .createQueued 1 { halfCoreTask [] with gpuCount := 1 }⟩]

def waitingCloud (item : InventoryItem) : Db := controlPlane.run (waitingCalls item) freshCloud

/-- The task is placed on the concrete device. -/
def exactRequest : PlacementRequest where
  gpuDeviceIds := [50]
  leaseSeconds := 30
  prices := standardPrices

def batchProfile : RuntimeProfile where
  id := "cuda-batch"
  version := "1.0.0"
  digest := "sha256:0000000000000000000000000000000000000000000000000000000000000000"

/-- A device that Kubernetes hands out through its device plugin. -/
def pluginGpu : InventoryItem :=
  { oneGpu with
    runtimeProfileIds := [batchProfile.id ++ "@" ++ batchProfile.version ++ "#"
      ++ batchProfile.digest]
    kubernetesResourceName := some "nvidia.com/gpu"
    kubernetesNodeName := some "node-a"
    health := "inventory-only" }

def pluginAdmission : BatchAdmissionSnapshot where
  workerId := "w"
  workerSessionId := 100
  vendor := .nvidia
  kind := .gpu
  selectedModel := "T4"
  runtimeProfile := batchProfile
  allocationAuthority := .kubernetesDevicePlugin
  acceleratorResourceName := "nvidia.com/gpu"
  nodeName := "node-a"

/-- The task is placed behind a vendor admission. -/
def pluginRequest : PlacementRequest where
  leaseSeconds := 30
  prices := standardPrices
  admission := some pluginAdmission
  catalogAvailable := true
  availableAccelerators := 1

/-- The cloud after the placement. -/
def placedCloud (item : InventoryItem) (request : PlacementRequest) : Db :=
  controlPlane.run [⟨3, .place 1 "w" 11 request⟩] (waitingCloud item)

/-- The placement commits where it returns, and the task is assigned to it. -/
theorem placedCloud_place (item : InventoryItem) (request : PlacementRequest)
    (h : (returned (place 3 1 "w" 11 request) (waitingCloud item)).isSome = true) :
    ∃ result, place 3 1 "w" 11 request (waitingCloud item)
      = .ok result (placedCloud item request) := by
  obtain ⟨result, hres⟩ := Option.isSome_iff_exists.mp h
  obtain ⟨db, hok⟩ := returned_eq_some.mp hres
  have hstep : placedCloud item request = db := (commit_void _ _).trans (commit_of_ok hok)
  exact ⟨result, by rw [hstep]; exact hok⟩

/-- The task of the concrete device is returned by the first call. -/
theorem placement_picked_up_exact :
    takesWithin "w" 100 1 [(4, 30)] (placedCloud oneGpu exactRequest) := by
  obtain ⟨_, hplace⟩ := placedCloud_place oneGpu exactRequest (by decide +kernel)
  have hwk : ((placedCloud oneGpu exactRequest).workers.get? "w").map
      (·.workerSessionId) = some 100 := by decide +kernel
  have htask : ((placedCloud oneGpu exactRequest).tasks.get? 1).map
      (fun task => (task.status, task.executionId)) = some (.assigned, some 11) := by
    decide +kernel
  have hcnt : (assignedTasks (placedCloud oneGpu exactRequest) "w").length = 1 := by
    decide +kernel
  obtain ⟨_, hw, hsess⟩ := Option.map_eq_some_iff.mp hwk
  obtain ⟨_, ht, hfields⟩ := Option.map_eq_some_iff.mp htask
  have htakes := (placement_picked_up [(4, 30)]
    (freshCloud_final (waitingCalls oneGpu) (by decide)) hplace hw .refl ht
    (congrArg Prod.fst hfields) (congrArg Prod.snd hfields) hcnt.symm).mpr rfl
  rw [hsess] at htakes
  exact htakes

/-- The task behind the vendor admission is assigned, and no number of calls
    returns it: no device is linked to its reservation. -/
theorem plugin_placement_never_taken :
    Reach controlPlane finalReports (waitingCloud pluginGpu)
      ∧ (∃ result, place 3 1 "w" 11 pluginRequest (waitingCloud pluginGpu)
          = .ok result (placedCloud pluginGpu pluginRequest))
      ∧ ((placedCloud pluginGpu pluginRequest).tasks.get? 1).map
          (fun task => (task.status, task.workerId, task.executionId))
        = some (.assigned, some "w", some 11)
      ∧ ((placedCloud pluginGpu pluginRequest).workers.get? "w").map
          (fun worker => worker.workerSessionId) = some 100
      ∧ ∀ moments, ¬ takesWithin "w" 100 1 moments (placedCloud pluginGpu pluginRequest) := by
  refine ⟨freshCloud_final _ (by decide), placedCloud_place _ _ (by decide +kernel),
    by decide +kernel, by decide +kernel, ?_⟩
  intro _ htakes
  obtain ⟨task, hget, htake⟩ := canTake_of_takesWithin htakes
  have hn : ((placedCloud pluginGpu pluginRequest).tasks.get? 1).all
      (fun task => !decide (Takeable (placedCloud pluginGpu pluginRequest) "w" 100 task))
      = true := by decide +kernel
  rw [hget, Option.all_some, decide_eq_true htake] at hn
  cases hn

end MiniAiCloud
