import MiniAiCloud.Workers
import MiniAiCloud.TaskRefinement

/-! # The registries follow the cluster

    Edges are added to a job group one after the other; each is a step, because
    the check of one group is enough for every edge that touches its tasks.
    Workers join and join again, and what else they report is not seen by the
    cluster. -/

namespace MiniAiCloud

open Transaction Cluster Table

variable {u : Unit} {dependencies : List DependencySpec} {found : Bool}
  {combined : List (Uuid × Uuid)} {d : DependencySpec} {ids : List Uuid} {p : Uuid}
  {session : Option Uuid}

/-! ## Job groups -/

section Groups

variable {R : Rules} {db db' : Db} {g : Uuid}

/-- The tasks are there, and every edge at one of them is of the group. -/
structure GroupReady (db : Db) (g : Uuid) (ids : List Uuid) : Prop where
  present : ∀ t ∈ ids, db.tasks.get? t ≠ none
  grouped : ∀ u v edge, db.taskDependencies.get? (u, v) = some edge →
    u ∈ ids ∨ v ∈ ids → edge.jobGroupId = some g

/-- `combined` is the edge list of the group. -/
def GroupEdges (db : Db) (g : Uuid) (combined : List (Uuid × Uuid)) : Prop :=
  ∀ key, key ∈ combined ↔ ∃ edge, db.taskDependencies.get? key = some edge
    ∧ edge.jobGroupId = some g

theorem groupEdges_spec (db : Db) (g : Uuid) : GroupEdges db g (groupEdges db g) := by
  intro key
  rw [groupEdges, List.mem_map]
  constructor
  · rintro ⟨⟨_, edge⟩, hmem, rfl⟩
    obtain ⟨hedge, hgroup⟩ := mem_select.mp hmem
    exact ⟨edge, hedge, of_decide_eq_true hgroup⟩
  · rintro ⟨edge, hedge, hgroup⟩
    exact ⟨(key, edge), mem_select.mpr ⟨hedge, decide_eq_true hgroup⟩, rfl⟩

/-- The edges of a group after one more. -/
theorem GroupEdges.insert {key : Uuid × Uuid} {policy : DependencyFailurePolicy}
    (h : GroupEdges db g combined) (hnew : db.taskDependencies.get? key = none)
    (hdb : db' = { db with
      taskDependencies := db.taskDependencies.insert key
        { jobGroupId := some g, failurePolicy := policy } }) :
    GroupEdges db' g (key :: combined) := by
  intro other
  rw [hdb, List.mem_cons, h other]
  show _ ↔ ∃ edge, (db.taskDependencies.insert key _).get? other = some edge
    ∧ edge.jobGroupId = some g
  by_cases hkey : other = key
  · rw [hkey, get?_insert_self hnew]
    exact ⟨fun _ => ⟨_, rfl, rfl⟩, fun _ => .inl rfl⟩
  · rw [get?_insert_ne _ _ hkey]
    exact ⟨fun hor => hor.resolve_left hkey, .inr⟩

/-- Nothing but edges of the group is added, so the tasks stay ready. -/
theorem GroupReady.insert {key : Uuid × Uuid} {policy : DependencyFailurePolicy}
    (h : GroupReady db g ids) (hdb : db' = { db with
      taskDependencies := db.taskDependencies.insert key
        { jobGroupId := some g, failurePolicy := policy } }) :
    GroupReady db' g ids := by
  rw [hdb]
  refine ⟨h.present, ?_⟩
  intro u v edge hedge htch
  rcases get?_insert_cases hedge with ⟨_, hnew⟩ | hold
  · rw [hnew]
  · exact h.grouped u v edge hold htch

/-- **ONE EDGE**: it was there already, or it is one step of the cluster. -/
theorem addDependencyLocked_follows {combined' : List (Uuid × Uuid)}
    (hedges : GroupEdges db g combined) (hready : GroupReady db g ids)
    (hsrc : d.taskId ∈ ids) (htgt : d.dependsOnTaskId ∈ ids)
    (h : addDependencyLocked g combined d db = .ok combined' db') :
    Follows R db db' ∧ GroupEdges db' g combined' ∧ GroupReady db' g ids := by
  rw [addDependencyLocked, bind_get] at h
  cases hf : (db.taskDependencies.get? d.key).filter
      (fun edge => edge.jobGroupId = some g) with
  | some =>
    simp only [hf, bind_ok, raiseIf_ok, pure_ok] at h
    obtain ⟨_, _, ⟨_, rfl⟩, rfl, rfl⟩ := h
    exact ⟨.refl _, hedges, hready⟩
  | none =>
    simp only [hf, bind_ok, raiseIf_ok, modify_ok, pure_ok, not_not] at h
    obtain ⟨_, _, ⟨hcycle, h₁⟩, _, _, ⟨⟨task, htask, hst⟩, h₂⟩, _, _,
      ⟨hnew, h₃⟩, _, _, hdb, rfl, rfl⟩ := h
    rw [h₃, h₂, h₁] at hdb
    refine ⟨?_, hedges.insert hnew hdb, hready.insert hdb⟩
    have hcan : CanLink db.cluster d.taskId d.dependsOnTaskId g task.job := {
      source := cluster_job htask
      unstarted := hst
      destination := fun hn =>
        hready.present _ htgt (get?_map_eq_none.mp hn)
      fresh := get?_map_eq_none.mpr hnew
      grouped := by
        intro u v _ hedge htch
        obtain ⟨edge, hrow, rfl⟩ := get?_map_eq_some.mp hedge
        refine hready.grouped u v edge hrow ?_
        rcases htch with rfl | rfl | rfl | rfl
        · exact .inl hsrc
        · exact .inl htgt
        · exact .inr hsrc
        · exact .inr htgt
      acyclic := by
        refine (Digraph.hasCycle_eq_false_iff.mp (Bool.eq_false_iff.mpr hcycle)).mono ?_
        rintro u v (hnew' | hedge)
        · exact List.mem_cons.mpr (.inl hnew')
        · obtain ⟨edge, hrow, hgroup⟩ := get?_map_eq_some.mp hedge
          exact List.mem_cons.mpr (.inr ((hedges (u, v)).mpr ⟨edge, hrow, hgroup⟩)) }
    rw [hdb]
    refine Follows.step ?_ rfl rfl
    show Step R db.cluster (Cluster.mk _ _ _ _ _
      ((db.taskDependencies.insert d.key _).map TaskDependency.jobGroupId) _)
    rw [map_insert]
    exact .link d.taskId d.dependsOnTaskId g task.job hcan

theorem addEachDependency_follows (hedges : GroupEdges db g combined) (hready : GroupReady db g ids)
    (hnamed : ∀ d ∈ dependencies, d.taskId ∈ ids ∧ d.dependsOnTaskId ∈ ids)
    (h : addEachDependency g combined dependencies db = .ok u db') : Follows R db db' := by
  induction dependencies generalizing db combined with
  | nil => exact .of_pure h
  | cons d _ ih =>
    obtain ⟨_, _, hfirst, hr⟩ := bind_ok.mp h
    obtain ⟨hsrc, htgt⟩ := hnamed d List.mem_cons_self
    obtain ⟨hfol, hedges', hready'⟩ :=
      addDependencyLocked_follows (R := R) hedges hready hsrc htgt hfirst
    exact hfol.trans (ih hedges' hready' (fun d' hd' => hnamed d' (List.mem_cons_of_mem d hd')) hr)

theorem mem_requestedTaskIds (hd : d ∈ dependencies) : d.taskId ∈ requestedTaskIds dependencies
      ∧ d.dependsOnTaskId ∈ requestedTaskIds dependencies := by
  simp only [requestedTaskIds, List.mem_dedup, List.mem_flatMap]
  exact ⟨⟨d, hd, List.mem_cons_self⟩, d, hd, List.mem_cons_of_mem _ List.mem_cons_self⟩

/-- **THE LOCKED ADDITION** of edges: as many tasks were found as were named, so
    every named task exists. -/
theorem addDependenciesLocked_follows (h : addDependenciesLocked g p dependencies db = .ok u db') :
    Follows R db db' := by
  rw [addDependenciesLocked, bind_get] at h
  simp only [bind_ok, raiseIf_ok, not_not] at h
  obtain ⟨_, _, ⟨_, h₁⟩, _, _, ⟨_, h₂⟩, _, _, ⟨hf, h₃⟩, _, _, ⟨hmember, h₄⟩, hadd⟩ := h
  rw [h₄, h₃, h₂, h₁] at hadd
  refine addEachDependency_follows (groupEdges_spec db g) ?_
    (fun d hd => mem_requestedTaskIds hd) hadd
  refine ⟨?_, ?_⟩
  · intro t ht
    obtain ⟨task, htask, _⟩ := mem_of_select_length
      (fun k v hsel => (of_decide_eq_true hsel).2) hf.ge ht
    rw [htask]
    exact Option.some_ne_none task
  · intro a b edge hedge htch
    by_contra hoth
    exact hmember ⟨((a, b), edge), mem_select.mpr ⟨hedge, decide_eq_true htch⟩, hoth⟩

theorem lockActiveProject_reads (p : Uuid) : Reads (lockActiveProject p) :=
  .bind .get fun _ => .raiseIf _ _

theorem createGroup_follows {now : Time} {name policy : String}
    (h : createGroup now g p name policy dependencies db = .ok u db') :
    Follows R db db' := by
  simp only [createGroup, validateRetryPolicy, bind_ok, raiseIf_ok, get_ok, modify_ok] at h
  obtain ⟨_, _, hlock, _, _, ⟨_, h₂⟩, _, _, ⟨_, h₃⟩, _, _, ⟨_, h₄⟩, _, _,
    ⟨_, h₅⟩, _, db₆, h₆, hadd⟩ := h
  have h₁ := (lockActiveProject_reads p).of_ok hlock
  have hquiet : Follows R db db₆ := by
    rw [h₆, h₅, h₄, h₃, h₂, h₁]
    exact .quiet rfl rfl rfl
  refine hquiet.trans ?_
  split_ifs at hadd with hn
  · exact addDependenciesLocked_follows hadd
  · exact .of_pure hadd

theorem addDependency_follows (h : addDependency p g d db = .ok u db') : Follows R db db' := by
  simp only [addDependency, bind_ok, get_ok, expect_ok] at h
  obtain ⟨_, _, hlock, _, _, ⟨_, h₂⟩, _, _, ⟨_, h₃⟩, hadd⟩ := h
  rw [h₃, h₂, (lockActiveProject_reads p).of_ok hlock] at hadd
  exact addDependenciesLocked_follows hadd

end Groups

/-! ## Workers -/

section Workers

variable {R : Rules} {db db' : Db} {now : Time} {w : WorkerId}

/-- **REGISTRATION**: a new worker joins, a known one joins again. -/
theorem register_follows {r : WorkerRegistration} {fresh : Uuid}
    (hrejoin : db.workers.get? w ≠ none → R.rejoin w)
    (h : register now w r fresh db = .ok u db') : Follows R db db' := by
  rw [register, bind_get] at h
  cases hw : db.workers.get? w with
  | none =>
    simp only [hw, modify_ok] at h
    rw [h]
    refine Follows.step ?_ rfl rfl
    show Step R db.cluster (Cluster.mk _ _ _ ((db.workers.insert w _).map _) _ _ _)
    rw [map_insert]
    exact .join w _ (get?_map_eq_none.mpr hw)
  | some worker =>
    simp only [hw, modify_ok] at h
    rw [h]
    refine Follows.step ?_ rfl rfl
    show Step R db.cluster (Cluster.mk _ _ _ ((db.workers.set w _).map _) _ _ _)
    rw [map_set]
    refine Step.rejoin w worker.slot _ (cluster_slot hw) (hrejoin ?_)
    rw [hw]
    exact Option.some_ne_none worker

/-- A worker row is rewritten and its slot is the same. -/
theorem follows_sameSlot {old worker : Worker} {devices : Table Uuid GpuDevice}
    (hold : db.workers.get? w = some old) (hslot : worker.slot = old.slot) :
    Follows R db { db with
      gpuDevices := devices
      workers := db.workers.set w worker } := by
  refine Follows.quiet ?_ rfl rfl
  show Cluster.mk _ _ _ ((db.workers.set w worker).map Worker.slot) _ _ _ = _
  rw [map_set_eq hold hslot]
  rfl

theorem updateWorker_follows {f : Worker → Worker} (h : updateWorker w session f db = .ok found db')
    (hf : ∀ worker, (f worker).slot = worker.slot) : Follows R db db' := by
  rw [updateWorker, bind_get] at h
  cases hw : db.workers.get? w with
  | none =>
    simp only [hw] at h
    exact .of_pure h
  | some worker =>
    simp only [hw] at h
    by_cases hstale : ∃ s ∈ session, worker.workerSessionId ≠ s
    · rw [if_pos hstale] at h
      exact .of_pure h
    · simp only [if_neg hstale, bind_ok, modify_ok, pure_ok] at h
      obtain ⟨_, _, hdb, _, rfl⟩ := h
      rw [hdb]
      exact follows_sameSlot hw (hf worker)

theorem heartbeat_follows (h : heartbeat now w session db = .ok found db') : Follows R db db' :=
  updateWorker_follows h (fun _ => rfl)

theorem drain_follows {reason : String} (h : drain w reason db = .ok found db') :
    Follows R db db' :=
  updateWorker_follows h (fun _ => rfl)

theorem setStatus_follows {status : WorkerStatus}
    (h : setStatus now w status session db = .ok found db') : Follows R db db' :=
  updateWorker_follows h (fun _ => rfl)

theorem markOffline_follows {ids : List WorkerId} (h : markOffline ids db = .ok u db') :
    Follows R db db' := by
  rw [markOffline, modify_ok] at h
  rw [h]
  refine Follows.quiet ?_ rfl rfl
  show Cluster.mk _ _ _ ((db.workers.mapRows _).map Worker.slot) _ _ _ = _
  rw [map_mapRows_eq]
  · rfl
  · intro id _ _
    by_cases hid : id ∈ ids
    · rw [if_pos hid]
      rfl
    · rw [if_neg hid]

theorem markStaleOffline_follows {timeout : ℚ} {limit : Option ℤ}
    {locked marked : List WorkerId}
    (h : markStaleOffline now timeout limit locked db = .ok marked db') :
    Follows R db db' := by
  simp only [markStaleOffline, bind_ok, raiseIf_ok, get_ok, pure_ok] at h
  obtain ⟨_, _, ⟨_, h₁⟩, _, _, ⟨_, h₂⟩, _, _, hmark, _, rfl⟩ := h
  rw [h₂, h₁] at hmark
  exact markOffline_follows hmark

theorem inventoryNames_reads (names : List String) (field : String) :
    Reads (inventoryNames names field) :=
  .check (.check (.pure _))

theorem inventoryName_reads (name : Option String) (field : String) :
    Reads (inventoryName name field) :=
  .check (.pure _)

theorem inventoryDevice_reads (now : Time) (w : WorkerId) (generation : ℤ)
    (item : InventoryItem) : Reads (inventoryDevice now w generation item) :=
  .check (.check (.check (.check (.bind (.expect _ _) fun _ => .bind (.expect _ _) fun _ =>
    .check (.bind (inventoryNames_reads _ _) fun _ => .bind (inventoryNames_reads _ _) fun _ =>
      .bind (inventoryName_reads _ _) fun _ => .bind (inventoryName_reads _ _) fun _ =>
        .pure _)))))

/-- Publishing writes device rows only. -/
theorem publishDevice_rows {generation : ℤ} {existing : List (Uuid × GpuDevice)}
    {item : InventoryItem} {result : GpuDevice}
    (h : publishDevice now w generation existing item db = .ok result db') :
    ∃ devices, db' = { db with gpuDevices := devices } := by
  obtain ⟨_, _, hdev, hr⟩ := bind_ok.mp h
  rw [(inventoryDevice_reads _ _ _ _).of_ok hdev] at hr
  cases hf : existing.find? (·.2.deviceUuid = item.uuid) with
  | some =>
    simp only [hf, bind_ok, modify_ok, pure_ok] at hr
    obtain ⟨_, _, hdb, _, rfl⟩ := hr
    exact ⟨_, hdb⟩
  | none =>
    simp only [hf] at hr
    rw [bind_get] at hr
    simp only [bind_ok, raiseIf_ok, modify_ok, pure_ok] at hr
    obtain ⟨_, _, ⟨_, h₁⟩, _, _, hdb, _, rfl⟩ := hr
    rw [h₁] at hdb
    exact ⟨_, hdb⟩

theorem publishDevices_rows {generation : ℤ} {existing : List (Uuid × GpuDevice)}
    {items : List InventoryItem} {result : List GpuDevice}
    (h : publishDevices now w generation existing items db = .ok result db') :
    ∃ devices, db' = { db with gpuDevices := devices } := by
  induction items generalizing db result with
  | nil =>
    obtain ⟨_, rfl⟩ := pure_ok.mp h
    exact ⟨db.gpuDevices, rfl⟩
  | cons _ _ ih =>
    simp only [publishDevices, bind_ok, pure_ok] at h
    obtain ⟨_, _, hfirst, _, _, hoths, _, rfl⟩ := h
    obtain ⟨_, hmid⟩ := publishDevice_rows hfirst
    obtain ⟨devices, hdb⟩ := ih hoths
    refine ⟨devices, ?_⟩
    rw [hdb, hmid]

theorem replaceGpuInventory_follows {session : Uuid} {items : List InventoryItem}
    {result : List GpuDevice}
    (h : replaceGpuInventory now w session items db = .ok result db') :
    Follows R db db' := by
  rw [replaceGpuInventory, bind_get] at h
  simp only [bind_ok, expect_ok, modify_ok, get_ok, raiseIf_ok, pure_ok] at h
  obtain ⟨_, _, ⟨hwk, h₁⟩, _, _, hpub, _, _, h₃, _, _, ⟨_, h₄⟩, _, _, ⟨_, h₅⟩, _, rfl⟩ := h
  rw [h₁] at hpub
  obtain ⟨_, h₂⟩ := publishDevices_rows hpub
  rw [h₅, h₄, h₃, h₂]
  exact follows_sameSlot (Option.filter_eq_some_iff.mp hwk).1 rfl

end Workers

end MiniAiCloud
