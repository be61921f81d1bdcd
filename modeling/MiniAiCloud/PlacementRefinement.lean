import MiniAiCloud.Placement
import MiniAiCloud.TaskRefinement

/-! # Assignment follows the cluster

    `claim` and `place` check different things and then write the same rows.  What
    the writes themselves guarantee is `Assigned`: the constraints of the tables
    are part of it, and they are what makes a device exclusive and an accelerator
    request well typed.  Preemption only asks victims to stop. -/

namespace MiniAiCloud

open Transaction Cluster Table Option

variable {task marked : Task} {worker : Worker} {u : Unit} {x incoming : Uuid} {a : Assignment}
  {request : PlacementRequest} {devices : List (Uuid × GpuDevice)} {locked : List Uuid}
  {result : Task × Uuid}

/-! ## The writes of an assignment -/

section Writes

variable {R : Rules} {db db' : Db} {now : Time}

theorem checkRequested_ok {r : RequestedAccelerator} {gpus : ℤ}
    {observed : Option ObservedAllocation} (h : checkRequested r gpus observed db = .ok u db') :
    ((gpus = 0 ∨ r.requestedVendor ≠ none) ∧ (gpus = 0 → r.requestedProfile = none))
      ∧ db' = db := by
  simp only [checkRequested, bind_ok, raiseIf_ok, not_not] at h
  obtain ⟨_, _, ⟨hreq, rfl⟩, _, _, ⟨_, rfl⟩, _, _, ⟨_, rfl⟩, _, _, ⟨_, rfl⟩, _, rfl⟩ := h
  refine ⟨?_, rfl⟩
  rcases hreq with ⟨hzero, _, _, hprof⟩ | ⟨hsome, hven, _⟩
  · exact ⟨.inl hzero, fun _ => hprof⟩
  · exact ⟨.inr hven, fun hzero => absurd hzero (ne_of_gt hsome)⟩

theorem insertExecution_ok {execution : TaskExecution}
    (h : insertExecution x execution db = .ok u db') :
    db.executions.get? x = none
      ∧ db' = { db with executions := db.executions.insert x execution } := by
  rw [insertExecution, bind_get] at h
  simp only [bind_ok, ↓raise_ok, modify_ok, not_not] at h
  obtain ⟨_, _, hcheck, hfresh, hdb⟩ := h
  rw [(checkRequested_ok hcheck).2] at hdb
  exact ⟨hfresh, hdb⟩

/-- What the constraints of the reservations table guarantee of a new row. -/
structure ResourceReservation.Checked (r : ResourceReservation) : Prop where
  cpu : 0 < r.cpuMillicores
  memory : 0 < r.memoryMb
  gpus : 0 ≤ r.gpuCount
  typed : r.gpuCount = 0 ∨ r.requestedVendor ≠ none
  unasked : r.gpuCount = 0 → r.requestedProfile = none
  evidence : r.gpuCount = 0 ∨ r.allocationAuthority = .kubernetesDevicePlugin
    ∨ r.legacyUnbound = true ∨ r.observed.isSome

theorem insertReservation_ok {r : ResourceReservation} (h : insertReservation x r db = .ok u db') :
    r.Checked ∧ db.reservations.get? x = none
      ∧ db' = { db with reservations := db.reservations.insert x r } := by
  rw [insertReservation, bind_get] at h
  simp only [checkReservationRow, bind_ok, ↓raise_ok, raiseIf_ok, modify_ok, not_not] at h
  obtain ⟨_, _, ⟨hcpu, hmm, hgpus, _, _, hcheck, hevidence, hmid⟩, hfresh, _, hdb⟩ := h
  obtain ⟨⟨htyped, hunas⟩, hmid'⟩ := checkRequested_ok hcheck
  rw [hmid, hmid'] at hdb
  exact ⟨⟨hcpu, hmm, hgpus, htyped, hunas, hevidence⟩, hfresh, hdb⟩

/-- The links of new devices. -/
def newLinkRows (now : Time) (x : Uuid) (devices : List (Uuid × GpuDevice)) :
    List ((Uuid × Uuid) × ReservationGpuDevice) :=
  devices.map (fun row => ((x, row.1), { createdAt := now }))

theorem bindDevices_ok (h : bindDevices now x devices db = .ok u db') :
    (∀ row ∈ devices, db.reservationGpuDevices.get? (x, row.1) = none)
      ∧ (∀ row ∈ devices, ¬ Allocated db row.1)
      ∧ db' = { db with reservationGpuDevices :=
          db.reservationGpuDevices.insertAll (newLinkRows now x devices) } := by
  rw [bindDevices, bind_get] at h
  simp only [↓raise_ok, modify_ok] at h
  obtain ⟨hfresh, hfree, hdb⟩ := h
  refine ⟨?_, fun row hrow hallocated => hfree ⟨row, hrow, hallocated⟩, hdb⟩
  intro row hrow
  by_contra hne
  exact hfresh ⟨row, hrow, hne⟩

theorem assertExactDeviceBinding_reads (x : Uuid) (r : ResourceReservation) :
    Reads (assertExactDeviceBinding x r) :=
  .bind .get fun _ => .ite (.pure _) (.check (.check (.raiseIf _ _)))

/-- What the writes of an assignment come to. -/
structure Assigned (now : Time) (t : Uuid) (task : Task) (worker : Worker)
    (a : Assignment) (db db' : Db) : Prop where
  execution_fresh : db.executions.get? a.executionId = none
  reservation_fresh : db.reservations.get? a.executionId = none
  checked : (a.reservation now t task worker).Checked
  links_fresh : ∀ row ∈ a.devices,
    db.reservationGpuDevices.get? (a.executionId, row.1) = none
  links_free : ∀ row ∈ a.devices, ¬ Allocated db row.1
  rows : ∃ attempt s r, db.quotaStates.get? task.projectId = some s
    ∧ r.book = s.book.plus (a.reservation now t task worker).hold ∧ r.Sound
    ∧ db.quotas.get? task.projectId ≠ none
    ∧ db' = { db with
        workers := db.workers.set a.workerId (worker.charged task a.cpuCharge)
        executions := db.executions.insert a.executionId
          (a.execution now t task worker attempt)
        reservations := db.reservations.insert a.executionId
          (a.reservation now t task worker)
        reservationGpuDevices := db.reservationGpuDevices.insertAll
          (newLinkRows now a.executionId a.devices)
        quotaStates := db.quotaStates.set task.projectId r
        tasks := db.tasks.set t task }

theorem assign_ok {t : Uuid} (h : assign now t task worker a db = .ok u db') :
    Assigned now t task worker a db db' := by
  rw [assign, bind_get] at h
  simp only [bind_ok, modify_ok] at h
  obtain ⟨_, _, hwks, _, _, hexec, _, _, hres, _, _, hbind, _, _, hexact, _, _, hquota, hsave⟩ := h
  obtain ⟨hx, hdb₂⟩ := insertExecution_ok hexec
  obtain ⟨hchk, hr, hdb₃⟩ := insertReservation_ok hres
  obtain ⟨hfresh, hfree, hdb₄⟩ := bindDevices_ok hbind
  have hdb₅ := (assertExactDeviceBinding_reads _ _).of_ok hexact
  have hdemands : (a.reservation now t task worker).hold.Demands (a.demand task) :=
    ⟨rfl, rfl, rfl, rfl⟩
  obtain ⟨s, row, hs, hdb₆, hbook, hsnd, hqs⟩ := reserveExecution_moves hdemands hquota
  subst hdb₅ hdb₄ hdb₃ hdb₂ hwks
  exact {
    execution_fresh := hx
    reservation_fresh := hr
    checked := hchk
    links_fresh := hfresh
    links_free := hfree
    rows := ⟨_, s, row, hs, hbook, hsnd, hqs, by rw [saveTask_ok.mp hsave, hdb₆]; rfl⟩ }

end Writes

/-! ## The step behind an assignment -/

section Assignments

variable {R : Rules} {db db' : Db} {now : Time} {t : Uuid}

/-- The row of a task that waits for an execution. -/
theorem queuedTask_eq_some : queuedTask db t = some task
      ↔ db.tasks.get? t = some task ∧ task.status = .queued
        ∧ task.cancelRequested = false := by
  rw [queuedTask, filter_eq_some_iff, decide_eq_true_iff]

/-- Where no dependency is unsatisfied, every prerequisite has succeeded. -/
theorem ready_of_satisfied (hlife : Lifecycle db.cluster)
    (h : ¬ UnsatisfiedDependencies db t) (d : Uuid) (g : Option Uuid)
    (hedge : db.cluster.edges.get? (t, d) = some g) : db.cluster.Succeeded d := by
  obtain ⟨dependency, hdependency, _⟩ := get?_map_eq_some.mp hedge
  obtain ⟨job, hjob⟩ := ne_none_iff_exists'.mp (hlife.ends t d g hedge).2
  obtain ⟨task, htask, rfl⟩ := get?_map_eq_some.mp hjob
  refine ⟨task.job, hjob, ?_⟩
  by_contra hne
  refine h ⟨(dependency.failurePolicy, task.status), ?_, hne⟩
  rw [dependencyRows, List.mem_filterMap]
  refine ⟨((t, d), dependency), mem_select.mpr ⟨hdependency, decide_eq_true rfl⟩, ?_⟩
  dsimp only
  rw [htask]
  rfl

/-- A device no reservation holds has no live link. -/
theorem not_live_of_not_allocated {d : Uuid} (h : ¬ Allocated db d) (y : Uuid) :
    db.cluster.links.get? (y, d) ≠ some true := by
  intro hlive
  obtain ⟨link, hlink, hn⟩ := get?_map_eq_some.mp hlive
  exact h ⟨((y, d), link), mem_rows.mpr hlink, rfl, isNone_iff_eq_none.mp hn⟩

/-- The new links as the cluster sees them. -/
theorem newLinkRows_live (links : Table (Uuid × Uuid) ReservationGpuDevice) (now : Time)
    (x : Uuid) (devices : List (Uuid × GpuDevice)) :
    (links.insertAll (newLinkRows now x devices)).map ReservationGpuDevice.live
      = (links.map ReservationGpuDevice.live).insertAll
          ((devices.map Prod.fst).map (fun d => ((x, d), true))) := by
  rw [map_insertAll, newLinkRows, List.map_map, List.map_map]
  rfl

/-- A reservation that binds no devices, or as many as it asks for. -/
def Assignment.Bound (a : Assignment) (task : Task) : Prop :=
  a.devices = [] ∨ ((a.devices.length : ℤ) = task.gpuCount
    ∧ a.requested.allocationAuthority = .controlPlaneExactDevice)

/-- An exact reservation binds what it asks for: a row without devices has no
    evidence, which the table accepts only where nothing is asked for. -/
theorem Assigned.devices_count (h : Assigned now t task worker a db db') (hbound : a.Bound task)
    (hexact : (a.reservation now t task worker).hold.exact = true) :
    (a.devices.length : ℤ) = task.gpuCount := by
  rcases hbound with hnil | ⟨hlen, _⟩
  · have hauth : a.requested.allocationAuthority = .controlPlaneExactDevice :=
      of_decide_eq_true (Bool.and_eq_true_iff.mp hexact).1
    rcases h.checked.evidence with hzero | hplug | hlegacy | hobs
    · have hzero' : task.gpuCount = 0 := hzero
      rw [hnil, hzero']
      rfl
    · have hplug' : a.requested.allocationAuthority = .kubernetesDevicePlugin := hplug
      rw [hauth] at hplug'
      cases hplug'
    · cases hlegacy
    · have hn : (a.reservation now t task worker).observed = none := by
        show observedAllocation now a.devices = none
        rw [hnil]
        rfl
      rw [hn] at hobs
      cases hobs
  · exact hlen

theorem Assignment.Bound.bare (hbound : a.Bound task)
    (hopen : (a.reservation now t task worker).hold.exact = false) : a.devices = [] := by
  rcases hbound with hnil | ⟨_, hauth⟩
  · exact hnil
  · have hexact : (a.reservation now t task worker).hold.exact = true := by
      show (decide (a.requested.allocationAuthority = .controlPlaneExactDevice) && !false) = true
      rw [hauth]
      rfl
    rw [hexact] at hopen
    cases hopen

/-- **AN ASSIGNMENT** is one step of the cluster. -/
theorem Assigned.follows {old : Task} (hlife : Lifecycle db.cluster)
    (hrow : db.tasks.get? t = some old) (hque : old.status = .queued)
    (hcncl : old.cancelRequested = false) (hready : ¬ UnsatisfiedDependencies db t)
    (hwk : db.workers.get? a.workerId = some worker)
    (hjob : task.job = old.job.assigned a.workerId a.executionId)
    (hnd : (a.devices.map Prod.fst).Nodup) (hbound : a.Bound task)
    (hchg : R.charge task.cpuMillicores a.cpuCharge)
    (h : Assigned now t task worker a db db') : Follows R db db' := by
  have hproj : task.projectId = old.projectId := congrArg Job.project hjob
  have hgpus : task.gpuCount = old.gpuCount := congrArg Job.gpus hjob
  obtain ⟨_, s, _, hs, hbook, hsnd, hqs, hdb'⟩ := h.rows
  have hcan : CanAssign R db.cluster t a.executionId old.job
      (a.reservation now t task worker).hold worker.slot s.book (a.devices.map Prod.fst)
      a.cpuCharge := {
    job_eq := cluster_job hrow
    queued := hque
    uncancelled := hcncl
    ready := ready_of_satisfied hlife hready
    execution_fresh := get?_map_eq_none.mpr h.execution_fresh
    hold_fresh := get?_map_eq_none.mpr h.reservation_fresh
    slot_eq := cluster_slot hwk
    book_eq := by
      rw [hproj] at hs
      exact cluster_book hs
    project := hproj
    owner := rfl
    session := rfl
    demand := hgpus
    live := rfl
    cpu := h.checked.cpu
    memory := h.checked.memory
    gpus := h.checked.gpus
    typed := h.checked.typed
    devices_nodup := hnd
    devices_fresh := by
      intro d hd
      obtain ⟨row, hmem, rfl⟩ := List.mem_map.mp hd
      exact get?_map_eq_none.mpr (h.links_fresh row hmem)
    devices_free := by
      intro d hd y
      obtain ⟨row, hmem, rfl⟩ := List.mem_map.mp hd
      exact not_live_of_not_allocated (h.links_free row hmem) y
    devices_count := by
      intro hexact
      rw [List.length_map]
      exact h.devices_count hbound hexact
    devices_bare := by
      intro hopen
      rw [hbound.bare hopen, List.map_nil]
    charge_ok := hchg }
  have hclus : db'.cluster = db.cluster.assign t a.executionId old.job
      (a.reservation now t task worker).hold worker.slot s.book (a.devices.map Prod.fst)
      a.cpuCharge := by
    rw [hdb']
    show Cluster.mk ((db.tasks.set t task).map _) ((db.reservations.insert _ _).map _)
      ((db.reservationGpuDevices.insertAll _).map _) ((db.workers.set _ _).map _)
      ((db.quotaStates.set _ _).map _) _ ((db.executions.insert _ _).map _) = _
    rw [map_set, map_insert, newLinkRows_live, map_set, map_set, map_insert, hjob, hbook, hproj]
    rfl
  refine ⟨?_, ?_⟩
  · rw [hclus]
    exact .single (.assign _ _ _ _ _ _ _ _ hcan)
  · intro hrows
    rw [hdb']
    exact quotaRows_write hsnd hqs hrows

end Assignments

/-! ## Claiming and placing -/

section Calls

variable {R : Rules} {db mid db' : Db} {now : Time} {t : Uuid} {w : WorkerId}

/-- What both kinds of assignment have checked before they write. -/
structure Cleared (t : Uuid) (w : WorkerId) (task : Task) (worker : Worker)
    (db mid : Db) : Prop where
  row : db.tasks.get? t = some task
  queued : task.status = .queued
  uncancelled : task.cancelRequested = false
  ready : ¬ UnsatisfiedDependencies db t
  worker_row : db.workers.get? w = some worker
  moves : BookMoves task.projectId id db mid

/-- The checks of an assignment have only locked the quota row. -/
theorem BookMoves.satisfied {p : Uuid} {f : Book → Book} (h : BookMoves p f db mid)
    (hready : ¬ UnsatisfiedDependencies db t) : ¬ UnsatisfiedDependencies mid t := by
  obtain ⟨_, _, _, rfl, _⟩ := h
  exact hready

theorem BookMoves.workers {p : Uuid} {f : Book → Book} (h : BookMoves p f db mid) :
    mid.workers = db.workers := by
  obtain ⟨_, _, _, rfl, _⟩ := h
  rfl

/-- **FROM THE CHECKS TO THE STEP**: the events an assignment records in between
    are not seen. -/
theorem Cleared.follows {last : Db} (hlife : Lifecycle db.cluster)
    (h : Cleared t a.workerId task worker db mid)
    (hlast : ∃ events, last = { mid with taskEvents := events })
    (hjob : marked.job = task.job.assigned a.workerId a.executionId)
    (hnd : (a.devices.map Prod.fst).Nodup) (hbound : a.Bound marked)
    (hchg : R.charge marked.cpuMillicores a.cpuCharge)
    (hasg : Assigned now t marked worker a last db') : Follows R db db' := by
  obtain ⟨events, rfl⟩ := hlast
  have hlife' : Lifecycle mid.cluster := (h.moves.follows (R := R)).lifecycle hlife
  have hquiet : Follows R mid { mid with taskEvents := events } := Follows.quiet rfl rfl rfl
  have hstep : Follows R { mid with taskEvents := events } db' := by
    refine Assigned.follows hlife' ?_ h.queued h.uncancelled ?_ ?_ hjob hnd hbound hchg hasg
    · show mid.tasks.get? t = some task
      rw [h.moves.tasks]
      exact h.row
    · exact h.moves.satisfied h.ready
    · show mid.workers.get? a.workerId = some worker
      rw [h.moves.workers]
      exact h.worker_row
  exact h.moves.follows.trans (hquiet.trans hstep)

/-- Picking from a sorted selection keeps the devices distinct. -/
theorem claimDevices_nodup (db : Db) (w : WorkerId) (task : Task) (locked : List Uuid) :
    ((claimDevices db w task locked).map Prod.fst).Nodup := by
  rw [claimDevices]
  refine List.Nodup.sublist ((List.take_sublist _ _).map Prod.fst) ?_
  refine (List.Perm.map Prod.fst (List.perm_insertionSort _ _)).nodup_iff.mpr ?_
  exact List.Nodup.sublist (List.filter_sublist.map Prod.fst) (select_keys_nodup _ _)

theorem claimable_ok {session : Option Uuid}
    (h : claimable now t w session locked db = .ok (task, worker, devices) mid) :
    Cleared t w task worker db mid ∧ (devices.map Prod.fst).Nodup
      ∧ (devices.length : ℤ) = task.gpuCount := by
  rw [claimable, bind_get] at h
  simp only [bind_ok, ↓bind_expect, ↓raise_ok, pure_ok, not_not] at h
  obtain ⟨found, hque, hready, _, _, hlock, worker', hwk, _, _, _, hlen, hres, rfl⟩ := h
  obtain ⟨rfl, rfl, rfl⟩ : found = task ∧ worker' = worker
      ∧ claimDevices _ w found locked = devices := by
    exact ⟨(Prod.mk.inj hres).1, (Prod.mk.inj (Prod.mk.inj hres).2).1,
      (Prod.mk.inj (Prod.mk.inj hres).2).2⟩
  obtain ⟨hrow, hst, hcncl⟩ := queuedTask_eq_some.mp hque
  exact ⟨⟨hrow, hst, hcncl, hready, (filter_eq_some_iff.mp hwk).1,
    getLocked_moves hlock⟩, claimDevices_nodup _ _ _ _, hlen⟩

/-- **`claim`** follows the cluster, given what it may charge for the task. -/
theorem claim_follows {lease : ℚ} {session : Option Uuid} {prices : Prices}
    (hlife : Lifecycle db.cluster) (hchg : ∀ task, db.tasks.get? t = some task →
      R.charge task.cpuMillicores task.cpuLimit)
    (h : claim now t w x lease session prices locked db = .ok result db') :
    Follows R db db' := by
  simp only [claim, bind_ok, pure_ok] at h
  obtain ⟨⟨task, _, _⟩, _, hclm, _, _, htr, _, _, hasg, _, rfl⟩ := h
  obtain ⟨hclr, hnd, hlen⟩ := claimable_ok hclm
  obtain ⟨_, rfl, _, _, _, hlast⟩ := transition_ok htr
  refine hclr.follows hlife ⟨_, hlast⟩ ?_ ?_ ?_ ?_ (assign_ok hasg)
  · rfl
  · exact hnd
  · exact .inr ⟨hlen, rfl⟩
  · exact hchg task hclr.row

theorem runtimeProfileBindingId_reads (profile : RuntimeProfile) :
    Reads (runtimeProfileBindingId profile) :=
  .check (.check (.check (.check (.pure _))))

theorem checkPlacement_reads (w : WorkerId) (worker : Worker) (task : Task)
    (devices : List (Uuid × GpuDevice)) (admitted : Bool) :
    Reads (checkPlacement w worker task devices admitted) := by
  rw [checkPlacement]
  cases evaluateSnapshot _ _ with
  | ok => exact .pure _
  | error => exact .throw _

/-- The devices a placement binds are distinct and, where there are any, as many
    as the task asks for. -/
theorem placementDevices_ok (h : placementDevices w worker task request db = .ok devices mid) :
    mid = db ∧ ((request.bound devices).map Prod.fst).Nodup
      ∧ (request.bound devices = []
        ∨ request.admission = none
          ∧ ((request.bound devices).length : ℤ) = task.gpuCount) := by
  rw [placementDevices, bind_get] at h
  cases hadm : request.admission with
  | some =>
    simp only [hadm, bind_ok, raiseIf_ok, pure_ok] at h
    obtain ⟨_, _, ⟨_, rfl⟩, _, _, hbind, _, _, ⟨_, rfl⟩, _, rfl⟩ := h
    have hn : request.bound devices = [] := by
      rw [PlacementRequest.bound, hadm]
      rfl
    rw [hn]
    exact ⟨(runtimeProfileBindingId_reads _).of_ok hbind, List.nodup_nil, .inl rfl⟩
  | none =>
    have hbound : request.bound devices = devices := by
      rw [PlacementRequest.bound, hadm]
      rfl
    rw [hbound]
    simp only [hadm] at h
    by_cases hids : request.gpuDeviceIds ≠ []
    · simp only [if_pos hids, bind_ok, raiseIf_ok, pure_ok, not_not] at h
      obtain ⟨_, _, ⟨hlen, rfl⟩, _, _, ⟨_, rfl⟩, rfl, rfl⟩ := h
      refine ⟨rfl, ?_, .inr ⟨rfl, hlen⟩⟩
      rw [requestedDevices]
      exact (List.Perm.map Prod.fst (List.perm_insertionSort _ _)).nodup_iff.mpr
        (select_keys_nodup _ _)
    · simp only [if_neg hids, bind_ok, raiseIf_ok, pure_ok] at h
      obtain ⟨_, _, ⟨_, rfl⟩, rfl, rfl⟩ := h
      exact ⟨rfl, List.nodup_nil, .inl rfl⟩

theorem placeable_ok (h : placeable now t w request db = .ok (task, worker, devices) mid) :
    Cleared t w task worker db mid ∧ ((request.bound devices).map Prod.fst).Nodup
      ∧ (request.bound devices = []
        ∨ request.admission = none
          ∧ ((request.bound devices).length : ℤ) = task.gpuCount) := by
  rw [placeable, bind_get] at h
  simp only [bind_ok, ↓bind_expect, ↓raise_ok, pure_ok] at h
  obtain ⟨found, hque, hready, _, _, hlock, worker', hwk, _, _, _, _, _, _, devices', _, hdevs, _,
      _, hcheck, hres, rfl⟩ := h
  obtain ⟨rfl, rfl, rfl⟩ : found = task ∧ worker' = worker ∧ devices' = devices :=
    ⟨(Prod.mk.inj hres).1, (Prod.mk.inj (Prod.mk.inj hres).2).1,
      (Prod.mk.inj (Prod.mk.inj hres).2).2⟩
  obtain ⟨hrow, hst, hcncl⟩ := queuedTask_eq_some.mp hque
  obtain ⟨hmid₁, hnd, hbound⟩ := placementDevices_ok hdevs
  have hmid₂ := (checkPlacement_reads _ _ _ _ _).of_ok hcheck
  refine ⟨⟨hrow, hst, hcncl, hready, (filter_eq_some_iff.mp hwk).1, ?_⟩, hnd, hbound⟩
  rw [hmid₂, hmid₁]
  exact getLocked_moves hlock

/-- The task a placement marks, and the two events it records. -/
theorem markPlaced_ok (h : markPlaced now t task w x request devices db = .ok marked db') :
    marked.job = task.job.assigned w x ∧ marked.cpuMillicores = task.cpuMillicores
      ∧ ∃ events, db' = { db with taskEvents := events } := by
  simp only [markPlaced, ensureTransition, recordTaskEvent, recordEvent, bind_ok, raiseIf_ok,
    modify_ok, pure_ok] at h
  obtain ⟨_, _, ⟨_, rfl⟩, _, _, rfl, _, _, ⟨_, rfl⟩, _, _, rfl, rfl, rfl⟩ := h
  exact ⟨rfl, rfl, _, rfl⟩

/-- What a placement that committed has checked, marked and written; `a` is the
    assignment it writes. -/
structure PlacedAs (now : Time) (t : Uuid) (request : PlacementRequest) (a : Assignment)
    (task marked : Task) (worker : Worker) (db mid last db' : Db) : Prop where
  cleared : Cleared t a.workerId task worker db mid
  nodup : (a.devices.map Prod.fst).Nodup
  devices : a.devices = []
    ∨ request.admission = none ∧ (a.devices.length : ℤ) = task.gpuCount
  admitted : request.admission ≠ none → a.devices = []
  requested : a.requested = request.requested marked.gpuCount
  charge : a.cpuCharge = marked.cpuMillicores / 1000
  job : marked.job = task.job.assigned a.workerId a.executionId
  events : ∃ events, last = { mid with taskEvents := events }
  assigned : Assigned now t marked worker a last db'

theorem place_ok (h : place now t w x request db = .ok result db') :
    ∃ a task marked worker mid last, a.workerId = w ∧ a.executionId = x
      ∧ PlacedAs now t request a task marked worker db mid last db' := by
  simp only [place, bind_ok, pure_ok] at h
  obtain ⟨⟨task, worker, _⟩, mid, hplc, marked, last, hmark, _, _, hasg, _, rfl⟩ := h
  obtain ⟨hclr, hnd, hbound⟩ := placeable_ok hplc
  obtain ⟨hjob, _, hlast⟩ := markPlaced_ok hmark
  refine ⟨_, task, marked, worker, mid, last, rfl, rfl, hclr, hnd, hbound, ?_, rfl, rfl,
    hjob, hlast, assign_ok hasg⟩
  intro hadm
  exact if_neg (fun hn => hadm (isNone_iff_eq_none.mp hn))

theorem PlacedAs.bound {last : Db}
    (h : PlacedAs now t request a task marked worker db mid last db') : a.Bound marked := by
  have hgpus : marked.gpuCount = task.gpuCount := congrArg Job.gpus h.job
  rcases h.devices with hnil | ⟨hadm, hlen⟩
  · exact .inl hnil
  · refine .inr ⟨?_, ?_⟩
    · rw [hgpus]
      exact hlen
    · rw [h.requested, PlacementRequest.requested, hadm]
      rfl

/-- **`place`** follows the cluster; it charges what its release will give back. -/
theorem place_follows (hlife : Lifecycle db.cluster)
    (h : place now t w x request db = .ok result db') : Follows R db db' := by
  obtain ⟨_, _, _, _, _, _, rfl, rfl, hpld⟩ := place_ok h
  refine hpld.cleared.follows hlife hpld.events hpld.job hpld.nodup hpld.bound ?_ hpld.assigned
  rw [hpld.charge]
  exact R.whole_charge _

end Calls

/-! ## Marking and preempting -/

section Preemption

variable {R : Rules} {db db' : Db} {now : Time}

theorem markUnschedulable_follows {t : Uuid} {reason : String} {marked : Bool}
    (h : markUnschedulable t reason db = .ok marked db') : Follows R db db' := by
  rw [markUnschedulable, bind_get] at h
  cases htask : queuedTask db t with
  | none =>
    simp only [htask] at h
    exact .of_pure h
  | some =>
    simp only [htask] at h
    split_ifs at h with hreas
    · obtain ⟨_, _, hsave, hpure⟩ := bind_ok.mp h
      obtain ⟨_, rfl⟩ := pure_ok.mp hpure
      exact saveTask_same hsave (queuedTask_eq_some.mp htask).1 rfl
    · exact .of_pure h

theorem preemptVictim_touches {v : Uuid} {w : WorkerId} {victim : Task}
    (h : preemptVictim now incoming w v victim db = .ok u db') : TouchesOnly v db db' := by
  simp only [preemptVictim, ensureTransition, recordTaskEvent, recordEvent, bind_ok,
    raiseIf_ok, modify_ok] at h
  obtain ⟨_, _, ⟨_, rfl⟩, _, _, hsave, _, _, hmid, hdb⟩ := h
  intro t ht
  rw [hdb, hmid]
  exact TouchesOnly.of_save rfl hsave t ht

theorem preemptVictim_follows {v : Uuid} {w : WorkerId} {victim : Task}
    (hrow : db.tasks.get? v = some victim) (hlaud : victim.status ∈ launchStatuses)
    (h : preemptVictim now incoming w v victim db = .ok u db') : Follows R db db' := by
  simp only [preemptVictim, ensureTransition, recordTaskEvent, recordEvent, bind_ok,
    raiseIf_ok, modify_ok] at h
  obtain ⟨_, _, ⟨_, rfl⟩, _, saved, hsave, _, _, hmid, hdb⟩ := h
  have hstep : Follows R _ saved := saveTask_step hsave
    (.preempt v victim.job (cluster_job hrow) hlaud)
  have hquiet : Follows R saved db' := by
    rw [hdb, hmid]
    exact .quiet rfl rfl rfl
  exact hstep.trans hquiet

/-- The loop over the victims: each is still as it was selected, so what every request
    keeps and does holds of all of them. -/
theorem preemptVictims_each {Q : Db → Db → Prop} {J : Db → Prop} {w : WorkerId}
    {victims : List (Uuid × Task)} (hrefl : ∀ db, Q db db)
    (htrans : ∀ {a b c}, Q a b → Q b c → Q a c)
    (hstep : ∀ {v victim db db'}, db.tasks.get? v = some victim →
      victim.status ∈ launchStatuses → J db →
      preemptVictim now incoming w v victim db = .ok () db' → Q db db' ∧ J db')
    (hnd : (victims.map Prod.fst).Nodup)
    (hrows : ∀ row ∈ victims, db.tasks.get? row.1 = some row.2
      ∧ row.2.status ∈ launchStatuses) (hkept : J db)
    (h : preemptVictims now incoming w victims db = .ok u db') : Q db db' ∧ J db' := by
  induction victims generalizing db with
  | nil =>
    obtain ⟨_, rfl⟩ := pure_ok.mp h
    exact ⟨hrefl db, hkept⟩
  | cons row _ ih =>
    obtain ⟨v, _⟩ := row
    rw [List.map_cons, List.nodup_cons] at hnd
    obtain ⟨_, _, hfirst, hr⟩ := bind_ok.mp h
    obtain ⟨⟨hrow, hlaud⟩, hoths⟩ := List.forall_mem_cons.mp hrows
    obtain ⟨hdone, hkept'⟩ := hstep hrow hlaud hkept hfirst
    refine (ih hnd.2 (fun other hoth => ?_) hkept' hr).imp_left (htrans hdone)
    have hne : other.1 ≠ v := fun heq => hnd.1 (List.mem_map.mpr ⟨other, hoth, heq⟩)
    rw [preemptVictim_touches hfirst other.1 hne]
    exact hoths other hoth

/-- The victims are taken from the candidates, in order. -/
theorem enoughVictims_sublist {worker : WorkerSnapshot} {incoming : TaskSnapshot}
    {selected candidates chosen : List (Uuid × Task)}
    (h : enoughVictims worker incoming selected candidates = some chosen) :
    chosen.Sublist (selected ++ candidates) := by
  induction candidates generalizing selected with
  | nil => cases h
  | cons victim rest ih =>
    have hsplit : selected ++ victim :: rest = selected ++ [victim] ++ rest := by
      rw [List.append_assoc]
      rfl
    rw [hsplit]
    rw [enoughVictims] at h
    cases hroom : evaluateSnapshot (worker.freed (selected ++ [victim])) incoming with
    | ok =>
      rw [hroom] at h
      rw [← some.inj h]
      exact List.sublist_append_left _ _
    | error =>
      rw [hroom] at h
      exact ih h

/-- The choice is a first run of candidates on one of the workers. -/
theorem choosePreemption_ok {workers : List WorkerSnapshot} {incoming : TaskSnapshot}
    {maximum : ℤ} {chosen : Feasible}
    (h : choosePreemption db workers incoming maximum locked = some chosen) :
    ∃ worker, workerById workers chosen.workerId = some worker
      ∧ enoughVictims worker incoming [] (victimsOn db chosen.workerId maximum locked)
        = some chosen.victims := by
  have hmem := (List.perm_insertionSort Feasible.Before _).mem_iff.mp (List.mem_of_mem_head? h)
  obtain ⟨w, _, hw⟩ := List.mem_filterMap.mp hmem
  simp only [bind_eq_bind, bind_eq_some_iff] at hw
  obtain ⟨worker, hwk, _, hvics, hcho⟩ := hw
  rw [← some.inj hcho]
  exact ⟨worker, hwk, hvics⟩

/-- The chosen victims are distinct tasks of the worker that may be stopped. -/
theorem choosePreemption_victims {workers : List WorkerSnapshot} {incoming : TaskSnapshot}
    {maximum : ℤ} {chosen : Feasible}
    (h : choosePreemption db workers incoming maximum locked = some chosen) :
    (chosen.victims.map Prod.fst).Nodup
      ∧ ∀ row ∈ chosen.victims, db.tasks.get? row.1 = some row.2
        ∧ row.2.Preemptable chosen.workerId maximum := by
  obtain ⟨_, _, hvics⟩ := choosePreemption_ok h
  have hsub := enoughVictims_sublist hvics
  rw [List.nil_append, victimsOn] at hsub
  refine ⟨List.Nodup.sublist (hsub.map Prod.fst) ?_, fun row hrow => ?_⟩
  · refine (List.Perm.map Prod.fst (List.perm_insertionSort _ _)).nodup_iff.mpr ?_
    exact List.Nodup.sublist (List.filter_sublist.map Prod.fst) (select_keys_nodup _ _)
  · have hsort := (List.perm_insertionSort VictimBefore _).mem_iff.mp (hsub.subset hrow)
    obtain ⟨htask, hsel⟩ := mem_select.mp (List.mem_filter.mp hsort).1
    exact ⟨htask, of_decide_eq_true hsel⟩

/-- A request does nothing new, or it stops the chosen victims and marks the task. -/
theorem requestPreemption_ok {workers : List WorkerSnapshot} {priority delta : ℤ}
    {decision : Option PreemptionDecision}
    (h : requestPreemption now incoming workers priority delta locked db
      = .ok decision db') :
    (db' = db ∧ ∀ d ∈ decision, d.alreadyRequested = true)
      ∨ ∃ task chosen last, db.tasks.get? incoming = some task ∧ task.status = .queued
        ∧ requestedPlans db incoming = []
        ∧ choosePreemption db workers (taskSnapshot task) (priority - delta) locked
          = some chosen
        ∧ preemptVictims now incoming chosen.workerId chosen.victims db = .ok () last
        ∧ saveTask incoming { task with
            unschedulableReason := some "preemption_in_progress"
            version := task.version + 1 } last = .ok () db'
        ∧ decision = some ⟨incoming, chosen.workerId, chosen.victims.map Prod.fst, false⟩ := by
  rw [requestPreemption, bind_get] at h
  obtain ⟨task, mid, hf, hr⟩ := bind_ok.mp h
  obtain ⟨hrow, rfl⟩ := expect_ok.mp hf
  have htask : mid.tasks.get? incoming = some task := by
    split_ifs at hrow
    exact hrow
  split_ifs at hr with hidle
  · obtain ⟨rfl, rfl⟩ := pure_ok.mp hr
    exact .inl ⟨rfl, by rintro _ ⟨⟩⟩
  cases hplans : requestedPlans mid incoming with
  | cons =>
    simp only [hplans] at hr
    obtain ⟨rfl, rfl⟩ := pure_ok.mp hr
    refine .inl ⟨rfl, fun d hd => ?_⟩
    rw [← some.inj hd]
  | nil =>
    simp only [hplans] at hr
    cases hcho : choosePreemption mid workers (taskSnapshot task) (priority - delta)
        locked with
    | none =>
      simp only [hcho] at hr
      obtain ⟨rfl, rfl⟩ := pure_ok.mp hr
      exact .inl ⟨rfl, by rintro _ ⟨⟩⟩
    | some chosen =>
      simp only [hcho, bind_ok, pure_ok] at hr
      obtain ⟨_, last, hvics, _, _, hsave, rfl, rfl⟩ := hr
      exact .inr ⟨task, chosen, last, htask, not_not.mp (not_or.mp hidle).1, rfl, hcho,
        hvics, hsave, rfl⟩

/-- The incoming task is queued, so it is none of the victims and keeps its row. -/
theorem preemptVictims_incoming {w : WorkerId} {task : Task} {victims : List (Uuid × Task)}
    (htask : db.tasks.get? incoming = some task) (hque : task.status = .queued)
    (hnd : (victims.map Prod.fst).Nodup)
    (hrows : ∀ row ∈ victims, db.tasks.get? row.1 = some row.2
      ∧ row.2.status ∈ launchStatuses)
    (h : preemptVictims now incoming w victims db = .ok u db') :
    db'.tasks.get? incoming = some task := by
  refine (preemptVictims_each (Q := fun _ _ => True)
    (J := fun db => db.tasks.get? incoming = some task) (fun _ => trivial)
    (fun _ _ => trivial) (fun hrow hlaud hkept hfirst => ⟨trivial, ?_⟩) hnd hrows htask
    h).2
  rw [preemptVictim_touches hfirst incoming, hkept]
  rintro rfl
  obtain rfl := mem_unique hkept hrow
  rw [hque] at hlaud
  exact absurd hlaud (by decide)

/-- **`request_preemption`** follows the cluster: it asks victims to stop. -/
theorem requestPreemption_follows {workers : List WorkerSnapshot} {priority delta : ℤ}
    {decision : Option PreemptionDecision}
    (h : requestPreemption now incoming workers priority delta locked db
      = .ok decision db') : Follows R db db' := by
  rcases requestPreemption_ok h with ⟨rfl, _⟩ | ⟨task, chosen, last, htask, hque, _, hcho,
    hvics, hsave, _⟩
  · exact .refl _
  obtain ⟨hnd, hspec⟩ := choosePreemption_victims hcho
  have hrows := fun row hmem => (hspec row hmem).imp_right fun hvic => hvic.2.1
  have hfol := (preemptVictims_each (J := fun _ => True) Follows.refl Follows.trans
    (fun hrow hlaud _ hfirst => ⟨preemptVictim_follows (R := R) hrow hlaud hfirst,
      trivial⟩) hnd hrows trivial hvics).1
  exact hfol.trans (saveTask_same hsave (preemptVictims_incoming htask hque hnd hrows hvics) rfl)

end Preemption

end MiniAiCloud
