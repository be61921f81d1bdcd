import MiniAiCloud.Refinement

/-! # The task repository follows the cluster

    Submission, dependency resolution, cancellation and due retries, and the
    calls of a worker on the execution it owns.  Every theorem takes a call that
    returned apart and names the step of the cluster behind each write. -/

namespace MiniAiCloud

open Transaction Cluster Table Option

variable {task task' old : Task} {t p : Uuid} {u : Unit} {grace lease : ℚ} {locked : List Uuid}
  {mid : Db} {target : TaskStatus} {eventType : String} {limit : ℕ} {ρ : Type}

/-! ## Writes of the task row -/

section Writes

variable {R : Rules} {db db' : Db} {now : Time}

theorem saveTask_ok : saveTask t task db = .ok u db'
      ↔ db' = { db with tasks := db.tasks.set t task } :=
  modify_ok

/-- A status change that went through is allowed and leaves one entry in the
    history. -/
theorem transition_ok (h : transition t task target now eventType db = .ok task' db') :
    CanTransition task.status target ∧ task' = task.transitioned target now
      ∧ ∃ event : TaskEvent, event.fromStatus = some task.status
          ∧ event.status = target
          ∧ db' = { db with taskEvents := db.taskEvents ++ [event] } := by
  simp only [transition, ensureTransition, recordEvent, bind_ok, raiseIf_ok, modify_ok,
    pure_ok, not_not] at h
  obtain ⟨_, _, ⟨hcan, rfl⟩, _, _, rfl, rfl, rfl⟩ := h
  exact ⟨hcan, rfl, _, rfl, rfl, rfl⟩

theorem cluster_save (db : Db) (t : Uuid) (task : Task) :
    Db.cluster { db with tasks := db.tasks.set t task }
      = { db.cluster with jobs := db.cluster.jobs.set t task.job } := by
  show Cluster.mk ((db.tasks.set t task).map _) _ _ _ _ _ _ = _
  rw [map_set]
  rfl

/-- The history is not part of the cluster. -/
theorem transition_follows (h : transition t task target now eventType db = .ok task' db') :
    Follows R db db' := by
  obtain ⟨_, _, _, _, _, hdb⟩ := transition_ok h
  rw [hdb]
  exact .quiet rfl rfl rfl

theorem transition_tasks (h : transition t task target now eventType db = .ok task' db') :
    db'.tasks = db.tasks := by
  obtain ⟨_, _, _, _, _, hdb⟩ := transition_ok h
  rw [hdb]

variable (h : saveTask t task db = .ok u db')

include h

theorem saveTask_row (hold : db.tasks.get? t = some old) :
    db'.tasks.get? t = some task := by
  rw [saveTask_ok.mp h]
  exact get?_set_self hold task

/-- A write of the task row that is one step. -/
theorem saveTask_step (hstep : Step R db.cluster
      { db.cluster with jobs := db.cluster.jobs.set t task.job }) :
    Follows R db db' := by
  rw [saveTask_ok.mp h]
  refine Follows.step ?_ rfl rfl
  rw [cluster_save]
  exact hstep

/-- A write of the task row that the cluster does not see. -/
theorem saveTask_same (hold : db.tasks.get? t = some old)
    (hjob : task.job = old.job) : Follows R db db' := by
  rw [saveTask_ok.mp h]
  refine Follows.quiet ?_ rfl rfl
  rw [cluster_save, hjob, set_eq_self (cluster_job hold)]

omit h

/-- A waiting task is cancelled and leaves the queue of its project. -/
theorem saveTask_drop (cancel userCancel : Bool) (h : saveTask t task db = .ok u mid)
    (hold : db.tasks.get? t = some old) (hwaits : old.status ∈ waitingStatuses)
    (hjob : task.job = { old.job with
      status := .cancelled, cancel := cancel, userCancel := userCancel })
    (hmoves : BookMoves old.projectId (fun book => book.waiting (-1)) mid db') :
    Follows R db db' := by
  rw [saveTask_ok.mp h] at hmoves
  refine ⟨?_, fun hrows => hmoves.rows hrows⟩
  obtain ⟨book, hbook, hclus⟩ := hmoves.cluster
  rw [hclus, cluster_save, hjob]
  exact .single (.drop t old.job book cancel userCancel (cluster_job hold) hwaits hbook)

end Writes

/-! ## The calls of an owner -/

section Owner

variable {R : Rules} {db db' : Db} {now : Time} {c : Caller}

/-- The fence of a worker-side call. -/
structure Fenced (db : Db) (c : Caller) (task : Task) : Prop where
  row : db.tasks.get? c.taskId = some task
  worker : task.workerId = some c.workerId
  execution : task.executionId = some c.executionId

theorem currentTask_eq_some :
    currentTask db c = some task ↔ Fenced db c task := by
  constructor
  · intro h
    obtain ⟨hrow, heq⟩ := filter_eq_some_iff.mp h
    have hboth := of_decide_eq_true heq
    exact ⟨hrow, hboth.1, hboth.2⟩
  · rintro ⟨hrow, hwk, hexec⟩
    exact filter_eq_some_iff.mpr ⟨hrow, decide_eq_true ⟨hwk, hexec⟩⟩

/-- A call that passed the fence of `_owned_task`. -/
theorem ownedTask_ok : ownedTask c db = .ok task db' ↔ Fenced db c task
        ∧ (∀ session ∈ c.workerSessionId, SessionOwnsExecution db c.workerId c.executionId session)
        ∧ db' = db := by
  simp only [ownedTask, bind_ok, get_ok, expect_ok, raiseIf_ok, pure_ok, currentTask_eq_some]
  constructor
  · rintro ⟨_, _, ⟨rfl, rfl⟩, _, _, ⟨hrow, rfl⟩, _, _, ⟨hsess, rfl⟩, rfl, rfl⟩
    refine ⟨hrow, ?_, rfl⟩
    intro session hs
    by_contra hne
    exact hsess ⟨session, hs, hne⟩
  · rintro ⟨hrow, hsess, rfl⟩
    refine ⟨_, _, ⟨rfl, rfl⟩, task, _, ⟨hrow, rfl⟩, (), _, ⟨?_, rfl⟩, rfl, rfl⟩
    rintro ⟨session, hs, hne⟩
    exact hne (hsess session hs)

theorem runtimeLeaseExpiry_reads (task : Task) (now : Time) (leaseSeconds cleanupGraceSeconds : ℚ) :
    Reads (runtimeLeaseExpiry task now leaseSeconds cleanupGraceSeconds) :=
  .check (.ite (.pure _) (.pure _))

/-- A progress report follows the cluster: the lease is renewed, or the launch
    goes on. -/
theorem markProgress_follows {reported previous : List TaskStatus} {message : String}
    (hprevious : ∀ s ∈ previous, s ∈ launchStatuses) (htgt : target ∈ launchStatuses)
    (h : markProgress reported previous target message now c lease grace db
      = .ok task' db') : Follows R db db' := by
  obtain ⟨task, mid, hown, hbody⟩ := bind_ok.mp h
  obtain ⟨hfence, _, rfl⟩ := ownedTask_ok.mp hown
  split_ifs at hbody with hrptd
  · simp only [bind_ok, pure_ok] at hbody
    obtain ⟨_, _, hlease, _, _, hsave, _, rfl⟩ := hbody
    rw [(runtimeLeaseExpiry_reads _ _ _ _).of_ok hlease] at hsave
    exact saveTask_same hsave hfence.row rfl
  · simp only [bind_ok, ↓raise_ok, not_not, pure_ok] at hbody
    obtain ⟨hprev, _, mid, htr, _, _, hlease, _, _, hsave, _, rfl⟩ := hbody
    rw [(runtimeLeaseExpiry_reads _ _ _ _).of_ok hlease] at hsave
    refine (transition_follows htr).trans (saveTask_step hsave ?_)
    obtain ⟨_, hmoved, _⟩ := transition_ok htr
    have hrow : mid.tasks.get? c.taskId = some task := by
      rw [transition_tasks htr]
      exact hfence.row
    rw [hmoved]
    exact .progress c.taskId task.job target (cluster_job hrow) (hprevious _ hprev) htgt

theorem markPulling_follows (h : markPulling now c lease grace db = .ok task' db') :
    Follows R db db' :=
  markProgress_follows (by decide) (by decide) h

theorem markStarting_follows (h : markStarting now c lease grace db = .ok task' db') :
    Follows R db db' :=
  markProgress_follows (by decide) (by decide) h

theorem markRunning_follows (h : markRunning now c lease grace db = .ok task' db') :
    Follows R db db' :=
  markProgress_follows (by decide) (by decide) h

theorem renewLease_follows {renewed : Bool}
    (h : renewLease now c lease grace db = .ok renewed db') : Follows R db db' := by
  rw [renewLease, bind_get] at h
  cases htask : currentTask db c with
  | none =>
    rw [htask] at h
    exact .of_pure h
  | some =>
    simp only [htask] at h
    have hfence := currentTask_eq_some.mp htask
    split_ifs at h with href
    · exact .of_pure h
    · simp only [bind_ok, pure_ok] at h
      obtain ⟨_, _, hlease, _, _, hsave, _, rfl⟩ := h
      rw [(runtimeLeaseExpiry_reads _ _ _ _).of_ok hlease] at hsave
      exact saveTask_same hsave hfence.row rfl

theorem preserveKubernetesHandoffLease_follows {grace : ℤ}
    (h : preserveKubernetesHandoffLease now c grace db = .ok task' db') :
    Follows R db db' := by
  obtain ⟨_, _, hown, hbody⟩ := bind_ok.mp h
  obtain ⟨hfence, _, rfl⟩ := ownedTask_ok.mp hown
  simp only [bind_ok, ↓raise_ok, pure_ok] at hbody
  obtain ⟨_, _, _, _, hsave, _, rfl⟩ := hbody
  exact saveTask_same hsave hfence.row rfl

theorem checkKubernetesHandle_reads (o : RuntimeObservation)
    (execution : TaskExecution) (grace : ℚ) :
    Reads (checkKubernetesHandle o execution grace) :=
  .check (.check (.raiseIf _ _))

theorem TaskExecution.observing_grant (execution : TaskExecution)
    (o : RuntimeObservation) : (execution.observing o).grant = execution.grant := by
  rw [TaskExecution.observing]
  split_ifs with ho
  · rfl
  · rfl

/-- A write of an execution row that keeps what it was minted for. -/
theorem saveExecution_same {x : Uuid} {old execution : TaskExecution}
    (h : saveExecution x execution db = .ok u db') (hold : db.executions.get? x = some old)
    (hgrant : execution.grant = old.grant) :
    Follows R db db' := by
  have hdb : db' = { db with executions := db.executions.set x execution } := modify_ok.mp h
  rw [hdb]
  refine Follows.quiet ?_ rfl rfl
  show Cluster.mk _ _ _ _ _ _ ((db.executions.set x execution).map _) = _
  rw [map_set_eq hold hgrant]
  rfl

/-- The two writes of `record_runtime_handle`. -/
theorem saveHandle_follows {execution : TaskExecution} {o : RuntimeObservation} {u' : Unit}
    (hfence : Fenced db c task) (hexec : db.executions.get? c.executionId = some execution)
    (hsave : saveTask c.taskId task' db = .ok u mid)
    (hsave' : saveExecution c.executionId (execution.observing o) mid = .ok u' db')
    (hjob : task'.job = task.job) :
    Follows R db db' := by
  have hrow : mid.executions.get? c.executionId = some execution := by
    rw [saveTask_ok.mp hsave]
    exact hexec
  exact (saveTask_same hsave hfence.row hjob).trans
    (saveExecution_same hsave' hrow (execution.observing_grant o))

theorem recordRuntimeHandle_follows {o : RuntimeObservation}
    (h : recordRuntimeHandle now c o grace db = .ok task' db') : Follows R db db' := by
  simp only [recordRuntimeHandle, bind_ok, ownedTask_ok, ↓bind_get, expect_ok, raiseIf_ok] at h
  obtain ⟨_, _, ⟨hfence, _, rfl⟩, _, _, ⟨hexec, rfl⟩, _, _, ⟨_, rfl⟩, _, _, ⟨_, rfl⟩, _, _, ⟨_,
      rfl⟩, _, _, ⟨_, rfl⟩, _, _, ⟨_, rfl⟩, hbody⟩ := h
  have hrow := (filter_eq_some_iff.mp hexec).1
  by_cases ho : o.runtimeType = "kubernetes"
  · simp only [if_pos ho, bind_ok, pure_ok] at hbody
    obtain ⟨_, _, hcheck, _, _, hlease, _, _, ⟨rfl, rfl⟩, _, _, hsave, _, _,
      hsave', _, rfl⟩ := hbody
    rw [(runtimeLeaseExpiry_reads _ _ _ _).of_ok hlease,
      (checkKubernetesHandle_reads _ _ _).of_ok hcheck] at hsave
    exact saveHandle_follows hfence hrow hsave hsave' rfl
  · simp only [if_neg ho, bind_ok, pure_ok] at hbody
    obtain ⟨_, _, ⟨rfl, rfl⟩, _, _, hsave, _, _, hsave', _, rfl⟩ := hbody
    exact saveHandle_follows hfence hrow hsave hsave' rfl

theorem advanceRuntimeLogCursor_follows {cursor : ℤ} {name uid hash : String}
    (h : advanceRuntimeLogCursor c cursor name uid hash db = .ok task' db') :
    Follows R db db' := by
  simp only [advanceRuntimeLogCursor, bind_ok, raiseIf_ok, ownedTask_ok, get_ok, expect_ok] at h
  obtain ⟨_, _, ⟨_, rfl⟩, _, _, ⟨hfence, _, rfl⟩, _, _, ⟨rfl, rfl⟩, _, _,
    ⟨_, rfl⟩, _, _, ⟨_, rfl⟩, _, _, ⟨_, rfl⟩, _, _, ⟨_, rfl⟩, _, _, ⟨_, rfl⟩,
    hbody⟩ := h
  split_ifs at hbody with heq
  · exact .of_pure hbody
  · simp only [bind_ok, pure_ok] at hbody
    obtain ⟨_, _, hsave, _, rfl⟩ := hbody
    exact saveTask_same hsave hfence.row rfl

theorem loggedTask_ok {x : Option Uuid} {w : Option WorkerId} {session : Option Uuid}
    (h : loggedTask t x w session db = .ok task db') :
    db.tasks.get? t = some task ∧ db' = db := by
  cases session with
  | none =>
    simp only [loggedTask, ↓bind_get, expect_ok] at h
    obtain ⟨hrow, rfl⟩ := h
    exact ⟨hrow, rfl⟩
  | some =>
    simp only [loggedTask, bind_ok, expect_ok, ownedTask_ok] at h
    obtain ⟨_, _, ⟨_, rfl⟩, _, _, ⟨_, rfl⟩, hfence, _, rfl⟩ := h
    exact ⟨hfence.row, rfl⟩

theorem appendLog_follows {x : Option Uuid} {stream : LogStream} {content : String}
    {w : Option WorkerId} {session : Option Uuid} {log : TaskLog}
    (h : appendLog now t x stream content w session db = .ok log db') :
    Follows R db db' := by
  obtain ⟨_, _, hlogd, hbody⟩ := bind_ok.mp h
  obtain ⟨hrow, rfl⟩ := loggedTask_ok hlogd
  simp only [bind_ok, ↓raise_ok, modify_ok, pure_ok] at hbody
  obtain ⟨_, _, _, hsave, _, _, rfl, _, rfl⟩ := hbody
  exact (saveTask_same hsave hrow rfl).trans (.quiet rfl rfl rfl)

/-- Picking up a placement is the first progress of its launch. -/
theorem takeGlobalAssignment_follows {w : WorkerId} {session : Uuid}
    {taken : Option (Uuid × Task)}
    (h : takeGlobalAssignment now w session lease locked db = .ok taken db') :
    Follows R db db' := by
  rw [takeGlobalAssignment, bind_get] at h
  generalize earliest (db.tasks.select fun _ task => Takeable db w session task)
    (·.assignedAt) locked 1 = found at h
  cases found with
  | nil => exact .of_pure h
  | cons t =>
    simp only [bind_ok, ↓bind_expect, pure_ok] at h
    obtain ⟨task, hrow, _, mid, htr, _, _, hsave, _, rfl⟩ := h
    obtain ⟨hcan, hmoved, _⟩ := transition_ok htr
    -- only an assigned task goes on to preparing
    have hasg : task.status ∈ launchStatuses := by
      revert hcan
      cases task.status <;> decide
    have hrow' : mid.tasks.get? t = some task := by
      rw [transition_tasks htr]
      exact hrow
    refine (transition_follows htr).trans (saveTask_step hsave ?_)
    rw [hmoved]
    exact .progress t task.job .preparing (cluster_job hrow') hasg (by decide)

end Owner

/-! ## Ordered queries -/

/-- A query with a limit takes the first rows of some order of the free ones. -/
theorem earliest_eq_take (rows : List (Uuid × ρ)) (column : ρ → Option Time)
    (locked : List Uuid) (limit : ℕ) :
    ∃ ordered : List Uuid, ordered.Perm ((rows.filter (fun row => row.1 ∉ locked)).map Prod.fst)
        ∧ earliest rows column locked limit = ordered.take limit := by
  refine ⟨_, ?_, rfl⟩
  generalize rows.filter (fun row => decide (row.1 ∉ locked)) = free
  -- rows with a time, whatever their order, and rows without one make all rows
  have htimed : (free.filterMap (fun row => (column row.2).map (fun t => (t, row.1)))).map Prod.snd
      = (free.filter (fun row => (column row.2).isSome)).map Prod.fst := by
    induction free with
    | nil => rfl
    | cons row _ ih =>
      cases hrow : column row.2 with
      | none =>
        rw [List.filterMap_cons, List.filter_cons]
        simp only [hrow, map_none, isSome_none]
        exact ih
      | some =>
        rw [List.filterMap_cons, List.filter_cons]
        simp only [hrow, map_some, isSome_some, if_true, List.map_cons]
        rw [ih]
  have hsort := (List.perm_insertionSort Earlier (free.filterMap
    (fun row => (column row.2).map (fun t => (t, row.1))))).map Prod.snd
  rw [htimed] at hsort
  refine (hsort.append_right _).trans ?_
  rw [← List.map_append]
  refine List.Perm.map _ ?_
  have hn : free.filter (fun row => decide (column row.2 = none))
      = free.filter (fun row => !(column row.2).isSome) := by
    refine List.filter_congr ?_
    intro row _
    cases column row.2 with
    | none | some t => rfl
  rw [hn]
  exact List.filter_append_perm _ free

theorem mem_earliest {rows : List (Uuid × ρ)} {column : ρ → Option Time} {id : Uuid}
    (h : id ∈ earliest rows column locked limit) : ∃ row, (id, row) ∈ rows := by
  obtain ⟨_, hperm, heq⟩ := earliest_eq_take rows column locked limit
  rw [heq] at h
  obtain ⟨⟨_, row⟩, hrow, rfl⟩ := List.mem_map.mp (hperm.mem_iff.mp (List.mem_of_mem_take h))
  exact ⟨row, List.mem_of_mem_filter hrow⟩

theorem earliest_nodup {rows : List (Uuid × ρ)} (hrows : (rows.map Prod.fst).Nodup)
    (column : ρ → Option Time) (locked : List Uuid) (limit : ℕ) :
    (earliest rows column locked limit).Nodup := by
  obtain ⟨_, hperm, heq⟩ := earliest_eq_take rows column locked limit
  rw [heq]
  have hfree : ((rows.filter (fun row => row.1 ∉ locked)).map Prod.fst).Nodup :=
    hrows.sublist (List.filter_sublist.map _)
  exact (hperm.nodup_iff.mpr hfree).sublist (List.take_sublist _ _)

/-! ## Submission -/

section Submission

variable {R : Rules} {db db' : Db} {now : Time}

theorem acceleratorRequestVendors_reads (request : Option AcceleratorRequest)
    (gpuCount : ℤ) : Reads (acceleratorRequestVendors request gpuCount) := by
  cases request with
  | none => exact .pure _
  | some => exact .ite (.pure _) (.check (.pure _))

theorem normalizeVendors_reads (gpuCount : ℤ) (values : List String) :
    Reads (normalizeVendors gpuCount values) := by
  induction values with
  | nil => exact .pure _
  | cons _ _ ih =>
    exact .bind (normalizeAcceleratorVendor_reads _ _) fun _ => .bind ih fun _ => .pure _

theorem ensureTaskCanFit_reads (quota : ProjectQuota) (cpu memory gpus : ℤ)
    (vendor : Option String) (vendors : Option (List String)) :
    Reads (ensureTaskCanFit quota cpu memory gpus vendor vendors) := by
  refine .check (.bind (checkLimits_reads _) fun _ => ?_)
  cases vendors with
  | some =>
    exact .check (.bind (normalizeVendors_reads _ _) fun _ => .check (.raiseIf _ _))
  | none =>
    refine .bind (normalizeAcceleratorVendor_reads _ _) fun named => ?_
    cases named with
    | none => exact .pure _
    | some v =>
      cases v with
      | nvidia => exact checkLimit_reads _ _ _
      | huaweiAscend => exact checkLimit_reads _ _ _

theorem insertTask_ok (h : insertTask t task db = .ok u db') :
    db.tasks.get? t = none ∧ db' = { db with tasks := db.tasks.insert t task } := by
  simp only [insertTask, checkTaskRow, bind_ok, ↓bind_get, raiseIf_ok, modify_ok, not_not] at h
  obtain ⟨_, _, ⟨_, _, ⟨_, rfl⟩, _, _, ⟨_, rfl⟩, _, _, ⟨_, rfl⟩, _, _, ⟨_, rfl⟩, _, rfl⟩, _, _,
      ⟨hfresh, rfl⟩, rfl⟩ := h
  exact ⟨hfresh, rfl⟩

/-- A new row with its edges, admitted to the queue. -/
theorem follows_submit {dependsOn : List Uuid} {policy : DependencyFailurePolicy}
    (hmoves : BookMoves p (fun book => book.waiting 1) db mid)
    (hfresh : mid.tasks.get? t = none) (hjob : task.job = Job.new p task.gpuCount)
    (hdeps : ∀ d ∈ dependsOn, db.tasks.get? d ≠ none) (hdb : db' = { mid with
      tasks := mid.tasks.insert t task
      taskDependencies := mid.taskDependencies.insertAll
        (submissionEdges t dependsOn policy) }) : Follows R db db' := by
  have hmid : mid.tasks = db.tasks ∧ mid.cluster.edges = db.cluster.edges := by
    obtain ⟨_, _, _, rfl, _⟩ := hmoves
    exact ⟨rfl, rfl⟩
  refine ⟨.single ?_, fun hrows => ?_⟩
  · obtain ⟨book, hbook, hclus⟩ := hmoves.cluster
    have hedges : (submissionEdges t dependsOn policy).map (fun row => (row.1, row.2.jobGroupId))
        = dependsOn.map (fun d => ((t, d), none)) := by
      show (dependsOn.map _).map _ = _
      rw [List.map_map]
      rfl
    have htgt : db'.cluster = { db.cluster with
        jobs := db.cluster.jobs.insert t (Job.new p task.gpuCount)
        edges := db.cluster.edges.insertAll (dependsOn.map (fun d => ((t, d), none)))
        books := db.cluster.books.set p (book.waiting 1) } := by
      rw [hdb]
      show Cluster.mk ((mid.tasks.insert t task).map _) _ _ _ _
        ((mid.taskDependencies.insertAll _).map _) _ = _
      rw [map_insert, map_insertAll, hedges, hjob]
      show Cluster.mk (mid.cluster.jobs.insert _ _) mid.cluster.holds mid.cluster.links
        mid.cluster.slots mid.cluster.books (mid.cluster.edges.insertAll _)
        mid.cluster.executions = _
      rw [hclus]
    rw [htgt]
    refine Step.submit t p task.gpuCount book dependsOn ?_ hbook ?_
    · rw [hmid.1] at hfresh
      exact get?_map_eq_none.mpr hfresh
    · exact fun d hd hn => hdeps d hd (get?_map_eq_none.mp hn)
  · rw [hdb]
    exact hmoves.rows hrows

/-- What the prerequisites say about a new task: it is dropped, queued or left
    pending. -/
theorem settleSubmission_follows {policy : DependencyFailurePolicy} {statuses : List TaskStatus}
    (hrow : db.tasks.get? t = some task) (hpend : task.status = .pending)
    (h : settleSubmission now t task policy statuses db = .ok task' db') :
    Follows R db db' := by
  rw [settleSubmission] at h
  split_ifs at h with hfail hready
  · simp only [bind_ok, pure_ok] at h
    obtain ⟨_, mid, htr, _, _, hsave, _, _, hrel, _, rfl⟩ := h
    obtain ⟨_, hmoved, _⟩ := transition_ok htr
    have hrow' : mid.tasks.get? t = some task := by
      rw [transition_tasks htr]
      exact hrow
    rw [hmoved] at hsave hrel
    exact (transition_follows htr).trans (saveTask_drop task.cancelRequested true hsave hrow'
        (by rw [hpend]; decide) rfl (releaseQueued_moves hrel))
  · simp only [bind_ok, pure_ok] at h
    obtain ⟨_, mid, htr, _, _, hsave, _, rfl⟩ := h
    obtain ⟨_, hmoved, _⟩ := transition_ok htr
    have hrow' : mid.tasks.get? t = some task := by
      rw [transition_tasks htr]
      exact hrow
    refine (transition_follows htr).trans (saveTask_step hsave ?_)
    rw [hmoved]
    exact .enqueue t task.job (cluster_job hrow') (.inl hpend)
  · exact .of_pure h

/-- **SUBMISSION** follows the cluster. -/
theorem createQueued_follows {s : TaskSubmission} (h : createQueued now t s db = .ok task db') :
    Follows R db db' := by
  rw [createQueued, bind_get] at h
  simp only [bind_ok, raiseIf_ok, expect_ok, modify_ok, recordEvent, not_not] at h
  obtain ⟨_, _, ⟨_, rfl⟩, _, _, ⟨_, rfl⟩, _, before, ⟨hlen, rfl⟩, _, mid₁,
    hinit, _, _, hvens, _, mid₃, hfit, _, _, hadmit, _, _, hins,
    _, mid₆, hedges, _, mid₇, hev, hstt⟩ := h
  have hmid₃ : mid₃ = mid₁ := ((ensureTaskCanFit_reads _ _ _ _ _ _).of_ok hfit).trans
      ((acceleratorRequestVendors_reads _ _).of_ok hvens)
  rw [hmid₃] at hadmit
  have htasks : mid₁.tasks = before.tasks := by
    obtain ⟨_, _, _, _, hdb⟩ := initializeQuota_ok.mp hinit
    rw [hdb]
  obtain ⟨hfresh, hmid₅⟩ := insertTask_ok hins
  rw [hmid₅] at hedges
  have hsubmit : Follows R mid₁ mid₆ := by
    refine follows_submit (admitQueued_moves hadmit) hfresh rfl ?_ hedges
    intro d hd
    obtain ⟨row, hrow, _⟩ := mem_of_select_length
      (t := before.tasks) (k := d) (p := fun id task =>
        decide (task.projectId = s.projectId ∧ id ∈ s.dependsOn))
      (fun _ _ hp => (of_decide_eq_true hp).2) (le_of_eq hlen.symm) hd
    rw [htasks, hrow]
    exact some_ne_none row
  have hrow : mid₇.tasks.get? t = some (s.task now) := by
    rw [hev, hedges]
    exact get?_insert_self hfresh _
  have hquiet : Follows R mid₆ mid₇ := by
    rw [hev]
    exact .quiet rfl rfl rfl
  exact (initializeQuota_follows hinit).trans (hsubmit.trans (hquiet.trans
    (settleSubmission_follows hrow rfl hstt)))

end Submission

/-! ## Dependency resolution -/

section Loops

variable {R : Rules} {db db' : Db} {now : Time}

/-- A loop over tasks touches one row after the other. -/
def TouchesOnly (t : Uuid) (db db' : Db) : Prop :=
  ∀ u, u ≠ t → db'.tasks.get? u = db.tasks.get? u

theorem TouchesOnly.of_save (htasks : mid.tasks = db.tasks)
    (hsave : saveTask t task mid = .ok u db') :
    TouchesOnly t db db' := by
  intro v hv
  rw [saveTask_ok.mp hsave]
  show (mid.tasks.set t task).get? v = db.tasks.get? v
  rw [get?_set_ne _ _ hv, htasks]

/-- The tasks a loop runs over: distinct ones, whose rows are as they were selected. -/
structure Selected (good : Task → Prop) (ids : List Uuid) (db : Db) : Prop where
  nodup : ids.Nodup
  good : ∀ t ∈ ids, ∃ task, db.tasks.get? t = some task ∧ good task

theorem Selected.tail {good : Task → Prop} {ids : List Uuid} (h : Selected good (t :: ids) db)
    (htch : TouchesOnly t db db') : Selected good ids db' := by
  obtain ⟨hhead, hr⟩ := List.nodup_cons.mp h.nodup
  refine ⟨hr, fun u hu => ?_⟩
  rw [htch u (fun hut => hhead (hut ▸ hu))]
  exact h.good u (List.mem_cons_of_mem t hu)

/-- A loop over tasks, one iteration after the other. -/
inductive Pass (step : Uuid → Db → Db → Prop) : List Uuid → Db → Db → Prop
  | done {db : Db} : Pass step [] db db
  | next {t : Uuid} {rest : List Uuid} {db mid db' : Db} (hfirst : step t db mid)
      (hrest : Pass step rest mid db') : Pass step (t :: rest) db db'

/-- What every iteration does and keeps, where it leaves the rows still to come alone. -/
theorem Pass.each {Q : Db → Db → Prop} {J : Db → Prop} {good : Task → Prop}
    {step : Uuid → Db → Db → Prop} {ids : List Uuid} (h : Pass step ids db db')
    (hsel : Selected good ids db) (hkept : J db) (hrefl : ∀ db, Q db db)
    (htrans : ∀ {a b c}, Q a b → Q b c → Q a c)
    (hstep : ∀ {t task a b}, a.tasks.get? t = some task → good task → J a → step t a b →
      Q a b ∧ J b ∧ TouchesOnly t a b) : Q db db' := by
  induction h with
  | done => exact hrefl _
  | next hfirst _ ih =>
    obtain ⟨_, hrow, hgood⟩ := hsel.good _ List.mem_cons_self
    obtain ⟨hdone, hkept', htch⟩ := hstep hrow hgood hkept hfirst
    exact htrans hdone (ih (hsel.tail htch) hkept')

theorem BookMoves.tasks {f : Book → Book} (h : BookMoves p f db db') :
    db'.tasks = db.tasks := by
  obtain ⟨_, _, _, rfl, _⟩ := h
  rfl

/-- One iteration of the resolution loop, on a task that waits. -/
theorem resolveTask_follows {rows : List (DependencyFailurePolicy × TaskStatus)}
    {changed : Bool} (hrow : db.tasks.get? t = some task)
    (hwaits : task.status ∈ waitingStatuses) (h : resolveTask now t rows db = .ok changed db') :
    Follows R db db' ∧ TouchesOnly t db db' := by
  have heq : Follows R db db ∧ TouchesOnly t db db := ⟨.refl db, fun _ _ => rfl⟩
  rw [resolveTask, bind_get] at h
  simp only [hrow] at h
  split_ifs at h with hempty hready hpend hfail
  · obtain ⟨_, rfl⟩ := pure_ok.mp h
    exact heq
  · simp only [bind_ok, pure_ok] at h
    obtain ⟨_, _, htr, _, _, hsave, _, rfl⟩ := h
    obtain ⟨_, hmoved, _⟩ := transition_ok htr
    have htasks := transition_tasks htr
    refine ⟨(transition_follows htr).trans (saveTask_step hsave ?_),
      TouchesOnly.of_save htasks hsave⟩
    rw [hmoved]
    exact .enqueue t task.job (cluster_job (by rw [htasks]; exact hrow)) (.inl hpend)
  · obtain ⟨_, rfl⟩ := pure_ok.mp h
    exact heq
  · simp only [bind_ok, pure_ok] at h
    obtain ⟨_, _, htr, _, _, hsave, _, _, hrel, _, rfl⟩ := h
    obtain ⟨_, hmoved, _⟩ := transition_ok htr
    have htasks := transition_tasks htr
    have hmoves := releaseQueued_moves hrel
    refine ⟨?_, ?_⟩
    · rw [hmoved] at hsave hmoves
      exact (transition_follows htr).trans
        (saveTask_drop true true hsave (by rw [htasks]; exact hrow) hwaits rfl hmoves)
    · intro u hu
      rw [hmoves.tasks]
      exact TouchesOnly.of_save htasks hsave u hu
  · obtain ⟨_, rfl⟩ := pure_ok.mp h
    exact heq

theorem resolveTasks_pass {before : Db} {ids changed : List Uuid}
    (h : resolveTasks now before ids db = .ok changed db') :
    Pass (fun t a b => ∃ c, resolveTask now t (dependencyRows before t) a = .ok c b)
      ids db db' := by
  induction ids generalizing db changed with
  | nil =>
    obtain ⟨_, rfl⟩ := pure_ok.mp h
    exact .done
  | cons _ _ ih =>
    simp only [resolveTasks, bind_ok, pure_ok] at h
    obtain ⟨c, _, hres, _, _, hoths, _, rfl⟩ := h
    exact .next ⟨c, hres⟩ (ih hoths)

theorem unresolvedTasks_waiting (db : Db) (locked : List Uuid) (limit : ℕ) :
    Selected (·.status ∈ waitingStatuses) (unresolvedTasks db locked limit) db := by
  refine ⟨earliest_nodup (select_keys_nodup _ _) _ _ _, fun t ht => ?_⟩
  obtain ⟨task, hmem⟩ := mem_earliest ht
  obtain ⟨hrow, hsel⟩ := mem_select.mp hmem
  refine ⟨task, hrow, ?_⟩
  rcases (of_decide_eq_true hsel).1 with hs | hs
  · rw [hs]
    decide
  · rw [hs]
    decide

/-- **`resolve_dependency_readiness`** follows the cluster. -/
theorem resolveDependencyReadiness_follows {changed : List Uuid}
    (h : resolveDependencyReadiness now locked limit db = .ok changed db') :
    Follows R db db' := by
  rw [resolveDependencyReadiness, bind_get] at h
  refine (resolveTasks_pass h).each (J := fun _ => True) (unresolvedTasks_waiting db locked limit)
    trivial Follows.refl Follows.trans fun hrow hwaits _ ⟨_, hres⟩ => ?_
  obtain ⟨hfol, htch⟩ := resolveTask_follows hrow hwaits hres
  exact ⟨hfol, trivial, htch⟩

/-! ## Due retries -/

/-- A due retry goes back to the queue; nobody has asked it to stop. -/
theorem releaseRetry_follows (hlife : Lifecycle db.cluster) (hrow : db.tasks.get? t = some task)
    (hretry : task.status = .retrying) (h : releaseRetry now t db = .ok u db') :
    Follows R db db' ∧ TouchesOnly t db db' := by
  have hcncl : task.cancelRequested = false := ((hlife.task hrow).waiting (by
      show task.status ∈ waitingStatuses
      rw [hretry]
      decide)).2.2
  rw [releaseRetry, bind_get] at h
  simp only [hrow, hcncl, Bool.false_eq_true, if_false, bind_ok] at h
  obtain ⟨_, _, htr, hsave⟩ := h
  obtain ⟨_, hmoved, _⟩ := transition_ok htr
  have htasks := transition_tasks htr
  refine ⟨(transition_follows htr).trans (saveTask_step hsave ?_), TouchesOnly.of_save htasks hsave⟩
  rw [hmoved]
  have hjob : Task.job { task.transitioned .queued now with
      nextAttemptAt := none, cancelRequested := false }
      = { task.job with status := .queued } := by
    show Job.mk _ _ _ _ _ false _ = Job.mk _ _ _ _ _ task.cancelRequested _
    rw [hcncl]
    rfl
  rw [hjob]
  exact .enqueue t task.job (cluster_job (by rw [htasks]; exact hrow)) (.inr hretry)

/-- The due retries are released one after the other. -/
theorem releaseDueRetries_pass {due : List Uuid}
    (h : releaseDueRetries now locked limit db = .ok due db') :
    Selected (·.status = .retrying) due db
      ∧ Pass (fun t a b => ∃ u, releaseRetry now t a = .ok u b) due db db' := by
  have hpass : ∀ {ids : List Uuid} {u : Unit} {db db' : Db}, releaseRetries now ids db = .ok u db' →
      Pass (fun t a b => ∃ u, releaseRetry now t a = .ok u b) ids db db' := by
    intro ids
    induction ids with
    | nil =>
      intro _ _ _ h
      obtain ⟨_, rfl⟩ := pure_ok.mp h
      exact .done
    | cons _ _ ih =>
      intro _ _ _ h
      obtain ⟨_, _, hrel, hoths⟩ := bind_ok.mp h
      exact .next ⟨_, hrel⟩ (ih hoths)
  rw [releaseDueRetries, bind_get] at h
  simp only [bind_ok, pure_ok] at h
  obtain ⟨_, _, hrel, rfl, rfl⟩ := h
  refine ⟨⟨earliest_nodup (select_keys_nodup _ _) _ _ _, fun t ht => ?_⟩, hpass hrel⟩
  obtain ⟨task, hmem⟩ := mem_earliest ht
  obtain ⟨hrow, hsel⟩ := mem_select.mp hmem
  exact ⟨task, hrow, (of_decide_eq_true hsel).1⟩

/-- **`release_due_retries`** follows the cluster. -/
theorem releaseDueRetries_follows {due : List Uuid} (hlife : Lifecycle db.cluster)
    (h : releaseDueRetries now locked limit db = .ok due db') : Follows R db db' := by
  obtain ⟨hdue, hpass⟩ := releaseDueRetries_pass h
  refine hpass.each (J := fun d => Lifecycle d.cluster) hdue hlife Follows.refl Follows.trans
    fun hrow hretry hlife ⟨_, hrel⟩ => ?_
  obtain ⟨hfol, htch⟩ := releaseRetry_follows hlife hrow hretry hrel
  exact ⟨hfol, hfol.lifecycle hlife, htch⟩

end Loops

/-! ## Cancellation -/

section Cancellation

variable {R : Rules} {db db' : Db} {now : Time}

/-- A task of the lifecycle that is not final and holds no execution waits. -/
theorem waiting_of_idle (hlife : Lifecycle db.cluster) (hrow : db.tasks.get? t = some task)
    (hopen : task.status ∉ finalTaskStatuses)
    (hidle : ¬ (task.status ∈ activeTaskStatuses ∧ task.executionId ≠ none)) :
    task.status ∈ waitingStatuses := by
  have hwell := hlife.task hrow
  have hsched : task.status ≠ .scheduling := hwell.unscheduled
  have hheld : task.status ∉ holdingStatuses := by
    intro hheld
    have hact : ∀ s ∈ holdingStatuses, s ∈ activeTaskStatuses := by decide
    exact hidle ⟨hact _ hheld, (hwell.holding hheld).1⟩
  revert hopen hsched hheld
  cases task.status <;> decide

theorem releaseQueuedIfTracked_moves {s : ProjectQuotaState}
    (hs : db.quotaStates.get? p = some s) (h : releaseQueuedIfTracked now p db = .ok u db') :
    BookMoves p (fun book => book.waiting (-1)) db db' := by
  rw [releaseQueuedIfTracked, bind_get] at h
  simp only [hs, isSome_some, if_true] at h
  obtain ⟨r, hrel⟩ := void_ok h
  exact releaseQueued_moves hrel

/-- The row of the task records that the user wants it gone. -/
def CancelRecorded (t : Uuid) (db : Db) : Prop :=
  ∃ task, db.tasks.get? t = some task ∧ task.job.Doomed

/-- A waiting task that is cancelled leaves the queue; it had no worker. -/
theorem cancelIdle_follows (hlife : Lifecycle db.cluster) (hrow : db.tasks.get? t = some task)
    (hwaits : task.status ∈ waitingStatuses) (h : cancelIdle now t task db = .ok task' db') :
    Follows R db db' ∧ CancelRecorded t db' := by
  obtain ⟨hexec, hwk, _⟩ := (hlife.task hrow).waiting hwaits
  have hexec' : task.executionId = none := hexec
  have hwk' : task.workerId = none := hwk
  have hque : task.status = .pending ∨ task.status = .queued
      ∨ task.status = .scheduling ∨ task.status = .retrying := by
    revert hwaits
    cases task.status <;> decide
  simp only [cancelIdle, hque, if_true, hwk', releaseWorkerCapacity, bind_ok, pure_ok] at h
  obtain ⟨_, mid, htr, _, mid', hsave, _, _, hrel, _, _, ⟨_, rfl⟩, _, rfl⟩ := h
  obtain ⟨_, hmoved, _⟩ := transition_ok htr
  have htasks := transition_tasks htr
  have hrow' : mid.tasks.get? t = some task := by
    rw [htasks]
    exact hrow
  rw [hmoved] at hsave hrel
  obtain ⟨s, hs⟩ := hlife.state hrow
  have hs' : mid'.quotaStates.get? task.projectId = some s := by
    obtain ⟨_, _, _, _, _, hmid⟩ := transition_ok htr
    rw [saveTask_ok.mp hsave, hmid]
    exact hs
  have hmoves := releaseQueuedIfTracked_moves hs' hrel
  refine ⟨?_, ?_⟩
  · refine (transition_follows htr).trans (saveTask_drop true true hsave hrow' hwaits ?_ hmoves)
    show Job.mk _ _ _ _ none _ _ = Job.mk _ _ _ _ task.executionId _ _
    rw [hexec']
    rfl
  · have hsaved := saveTask_row hsave hrow'
    rw [← hmoves.tasks] at hsaved
    exact ⟨_, hsaved, .inr (.inr rfl)⟩

/-- **CANCELLATION** of a task that has not ended: a waiting task is dropped, a
    held one is asked to stop. -/
theorem cancel_open {result : Option Task} (hlife : Lifecycle db.cluster)
    (hrow : db.tasks.get? t = some task) (hopen : task.status ∉ finalTaskStatuses)
    (h : cancel now t db = .ok result db') :
    Follows R db db' ∧ CancelRecorded t db' := by
  rw [cancel, bind_get] at h
  simp only [hrow] at h
  rw [if_neg hopen] at h
  split_ifs at h with hpre hheld hstop
  · simp only [bind_ok, pure_ok] at h
    obtain ⟨_, _, hsave, _, rfl⟩ := h
    refine ⟨saveTask_step hsave (.cancelPreempting t task.job (cluster_job hrow) hpre), ?_⟩
    exact ⟨_, saveTask_row hsave hrow, .inr (.inl ⟨hpre, rfl, rfl⟩)⟩
  · simp only [bind_ok, pure_ok] at h
    obtain ⟨_, mid, htr, _, _, hsave, _, rfl⟩ := h
    obtain ⟨hcan, hmoved, _⟩ := transition_ok htr
    have hlau : task.status ∈ launchStatuses := by
      revert hcan
      show CanTransition task.status .stopping → task.status ∈ launchStatuses
      cases task.status <;> decide
    have hrow' : mid.tasks.get? t = some task := by
      rw [transition_tasks htr]
      exact hrow
    rw [hmoved] at hsave
    have hstep := Step.stop (R := R) t task.job (cluster_job hrow') (.inl hlau)
    exact ⟨(transition_follows htr).trans (saveTask_step hsave hstep), _,
      saveTask_row hsave hrow', .inl ⟨rfl, rfl⟩⟩
  · rw [not_not] at hstop
    simp only [hstop, bind_ok, pure_ok] at h
    obtain ⟨_, _, ⟨rfl, rfl⟩, _, _, hsave, _, rfl⟩ := h
    have hstep := Step.stop (R := R) t task.job (cluster_job hrow) (.inr hstop)
    exact ⟨saveTask_step hsave hstep, _, saveTask_row hsave hrow, .inl ⟨rfl, rfl⟩⟩
  · simp only [bind_ok, pure_ok] at h
    obtain ⟨_, _, hidle, _, rfl⟩ := h
    exact cancelIdle_follows hlife hrow (waiting_of_idle hlife hrow hopen hheld) hidle

theorem cancel_follows {result : Option Task} (hlife : Lifecycle db.cluster)
    (h : cancel now t db = .ok result db') : Follows R db db' := by
  cases hrow : db.tasks.get? t with
  | none =>
    rw [cancel, bind_get] at h
    simp only [hrow] at h
    exact .of_pure h
  | some task =>
    by_cases hfin : task.status ∈ finalTaskStatuses
    · rw [cancel, bind_get] at h
      simp only [hrow] at h
      rw [if_pos hfin] at h
      exact .of_pure h
    · exact (cancel_open hlife hrow hfin h).1

end Cancellation

end MiniAiCloud
