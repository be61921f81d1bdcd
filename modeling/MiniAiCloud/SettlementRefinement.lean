import MiniAiCloud.TaskRefinement

/-! # The end of an execution follows the cluster

    A report and an expired lease do the same to the cluster: the hold is given
    back together with the job (`releaseExecution_ends`), and the job may then go
    back to the queue (`follows_requeued`).  The code writes the task row once, at
    the very end; the cluster takes two steps. -/

namespace MiniAiCloud

open Transaction Cluster Table Option

variable {task task' : Task} {t x : Uuid} {u : Unit} {final : TaskStatus} {reason : String}
  {r : ResourceReservation} {report : Report} {s : ProjectQuotaState}

/-! ## Releasing a reservation -/

section Release

variable {R : Rules} {db db' : Db} {now : Time}

theorem activeReservation_eq_some : activeReservation db x = some r
      ↔ db.reservations.get? x = some r ∧ r.releasedAt = none := by
  rw [activeReservation, filter_eq_some_iff, isNone_iff_eq_none]

/-- The worker step of a release: the slot gives the hold back. -/
theorem releaseWorker_ok (h : releaseWorker r db = .ok u db') :
    ∃ workers, db' = { db with workers := workers }
      ∧ workers.map Worker.slot
        = db.cluster.slots.modify r.workerId (fun slot => slot.minus r.hold) := by
  rw [releaseWorker, bind_get] at h
  cases hw : db.workers.get? r.workerId with
  | none =>
    simp only [hw] at h
    obtain ⟨_, rfl⟩ := pure_ok.mp h
    refine ⟨db.workers, rfl, ?_⟩
    exact (modify_of_none (get?_map_eq_none.mpr hw) _).symm
  | some =>
    simp only [hw, bind_ok, raiseIf_ok, modify_ok] at h
    obtain ⟨_, _, ⟨_, rfl⟩, hdb⟩ := h
    refine ⟨_, hdb, ?_⟩
    rw [map_set, modify_eq_set (cluster_slot hw)]
    rfl

/-- The links of a released reservation are dead in the cluster. -/
theorem releasedLinks_live (links : Table (Uuid × Uuid) ReservationGpuDevice)
    (x : Uuid) (now : Time) :
    (links.mapRows (fun key link =>
        if key.1 = x ∧ link.releasedAt = none
        then { link with releasedAt := some now } else link)).map ReservationGpuDevice.live
      = (links.map ReservationGpuDevice.live).mapRows
          (fun key live => if key.1 = x then false else live) := by
  refine map_mapRows_comm ?_
  rintro ⟨y, d⟩ link _
  show ReservationGpuDevice.live (if y = x ∧ link.releasedAt = none
      then { link with releasedAt := some now } else link)
    = if y = x then false else link.live
  by_cases hyx : y = x
  · rw [if_pos hyx]
    by_cases hlive : link.releasedAt = none
    · rw [if_pos ⟨hyx, hlive⟩]
      rfl
    · rw [if_neg (fun hboth => hlive hboth.2)]
      obtain ⟨_, htime⟩ := ne_none_iff_exists'.mp hlive
      rw [ReservationGpuDevice.live, htime]
      rfl
  · rw [if_neg hyx, if_neg (fun hboth => hyx hboth.1)]

theorem settleLedger_ok {execution : TaskExecution} {startedAt : Option Time}
    {settled : Option ℚ} (h : settleLedger now t x r execution startedAt db = .ok settled db') :
    ∃ ledger, db' = { db with usageLedger := ledger } := by
  rw [settleLedger, bind_get] at h
  cases startedAt with
  | none =>
    obtain ⟨_, rfl⟩ := pure_ok.mp h
    exact ⟨db.usageLedger, rfl⟩
  | some =>
    by_cases hsett : (db.usageLedger.get? x).isSome = true
    · simp only [hsett, if_true] at h
      obtain ⟨_, rfl⟩ := pure_ok.mp h
      exact ⟨db.usageLedger, rfl⟩
    · simp only [hsett, Bool.false_eq_true, if_false, bind_ok, raiseIf_ok, modify_ok,
        pure_ok] at h
      obtain ⟨_, _, ⟨_, rfl⟩, _, _, hdb, _, rfl⟩ := h
      exact ⟨_, hdb⟩

/-- The hold of a reservation puts the demand of the reservation on its
    project. -/
theorem ResourceReservation.demands (r : ResourceReservation) : r.hold.Demands r.demand :=
  ⟨rfl, rfl, rfl, rfl⟩

/-- **RELEASING**: where there is an active reservation, its hold is given back
    in the slot, the links and the book, and nothing else of the cluster moves. -/
theorem releaseAndSettle_released
    (h : releaseAndSettle now t task x final reason db = .ok (true, task') db') :
    ∃ r book, db.reservations.get? x = some r ∧ r.releasedAt = none
      ∧ db.cluster.books.get? r.projectId = some book
      ∧ db'.cluster = db.cluster.release x r.hold book
      ∧ db'.tasks = db.tasks ∧ (∃ cost, task' = { task with estimatedCost := cost })
      ∧ (QuotaRows db → QuotaRows db') := by
  rw [releaseAndSettle, bind_get] at h
  cases hact : activeReservation db x with
  | none =>
    simp only [hact] at h
    obtain ⟨hfalse, _⟩ := pure_ok.mp h
    cases hfalse
  | some r =>
    simp only [hact, bind_ok, releaseRows, modify_ok, expect_ok, pure_ok] at h
    obtain ⟨_, _, hlock, _, _, hwk, _, _, hrows, _, _,
      ⟨hexec, rfl⟩, _, _, hexecs, _, _, hledg, _, mid₆, hquota,
      htask, rfl⟩ := h
    obtain ⟨hres, hrel⟩ := activeReservation_eq_some.mp hact
    obtain ⟨workers, hmid₂, hslots⟩ := releaseWorker_ok hwk
    obtain ⟨_, hmid₅⟩ := settleLedger_ok hledg
    have hlckd := getLocked_moves hlock
    have hmoves := releaseQuota_moves r.demands hquota
    have hrowsKept : QuotaRows db → QuotaRows mid₆ := by
      intro hdb
      refine hmoves.rows ?_
      rw [hmid₅, hexecs, hrows, hmid₂]
      exact hlckd.rows hdb
    obtain ⟨s, r₁, hs, hmid₁, hbook₁, _, _⟩ := hlckd
    obtain ⟨s', r₂, hs', hdb', hbook₂, _, _⟩ := hmoves
    -- the row the release finds is the locked one
    have hf : s' = r₁ := by
      rw [hmid₅, hexecs, hrows, hmid₂, hmid₁] at hs'
      have hset : (db.quotaStates.set r.projectId r₁).get? r.projectId = some s' := hs'
      rw [get?_set_self hs] at hset
      exact (some.inj hset).symm
    have hslots' : workers.map Worker.slot
        = db.cluster.slots.modify r.workerId (fun slot => slot.minus r.hold) := by
      rw [hslots, hmid₁]
      rfl
    refine ⟨r, s.book, hres, hrel, cluster_book hs, ?_, ?_, ?_, hrowsKept⟩
    · rw [hdb', hmid₅, hexecs, hrows, hmid₂, hmid₁]
      show Cluster.mk (db.tasks.map Task.job)
        ((db.reservations.set x _).map ResourceReservation.hold)
        ((db.reservationGpuDevices.mapRows _).map ReservationGpuDevice.live)
        (workers.map Worker.slot)
        (((db.quotaStates.set r.projectId r₁).set r.projectId r₂).map ProjectQuotaState.book)
        (db.taskDependencies.map TaskDependency.jobGroupId)
        ((db.executions.set x _).map TaskExecution.grant) = _
      rw [map_set, releasedLinks_live, hslots', set_set, map_set,
        hbook₂, hf, hbook₁, map_set_eq hexec]
      · rfl
      · rfl
    · rw [hdb', hmid₅, hexecs, hrows, hmid₂, hmid₁]
      rfl
    · exact ⟨_, (Prod.mk.inj htask).2.symm⟩

/-- Where there is no active reservation, nothing happens. -/
theorem releaseAndSettle_idle
    (h : releaseAndSettle now t task x final reason db = .ok (false, task') db') :
    activeReservation db x = none ∧ task' = task ∧ db' = db := by
  rw [releaseAndSettle, bind_get] at h
  cases hact : activeReservation db x with
  | none =>
    simp only [hact] at h
    obtain ⟨hpair, rfl⟩ := pure_ok.mp h
    exact ⟨rfl, (Prod.mk.inj hpair).2.symm, rfl⟩
  | some =>
    simp only [hact, bind_ok, pure_ok] at h
    obtain ⟨_, _, _, _, _, _, _, _, _, _, _, _, _, _, _, _, _, _, _, _, _, hpair, _⟩ := h
    cases (Prod.mk.inj hpair).1

end Release

/-! ## Ending an execution -/

/-- Between the release and the write of the task row: once the row is written,
    the execution of the job has ended. -/
structure Ending (R : Rules) (t : Uuid) (job : Job) (target : TaskStatus) (keep : Bool)
    (db mid : Db) : Prop where
  row : db.cluster.jobs.get? t = some job
  tasks : mid.tasks = db.tasks
  rows : QuotaRows db → QuotaRows mid
  step : ∀ userCancel, Step R db.cluster { mid.cluster with
    jobs := mid.cluster.jobs.set t (job.ended target keep userCancel) }

/-- What the release by the task's own columns leaves of a slot. -/
def Slot.clamped (task : Task) (slot : Slot) : Slot where
  session := slot.session
  running := max 0 (slot.running - 1)
  cpu := max 0 (slot.cpu - task.cpuLimit)
  memory := max 0 (slot.memory - task.memoryLimitMb)
  gpus := max 0 (slot.gpus - task.gpuCount)

section Ends

variable {R : Rules} {db mid mid' db' : Db} {now : Time} {t x : Uuid} {job : Job}
  {target : TaskStatus} {keep : Bool}

/-- A write that neither the cluster nor the quota rows see, or only the
    accounting day of a quota row. -/
def Unseen (db db' : Db) : Prop :=
  db'.tasks = db.tasks ∧ db'.cluster = db.cluster ∧ (QuotaRows db → QuotaRows db')

theorem BookMoves.unseen {p : Uuid} (h : BookMoves p id db db') : Unseen db db' := by
  refine ⟨h.tasks, ?_, h.rows⟩
  obtain ⟨book, hbook, hclus⟩ := h.cluster
  rw [hclus]
  show { db.cluster with books := db.cluster.books.set p book } = db.cluster
  rw [set_eq_self hbook]

theorem Unseen.trans (h : Unseen db mid) (h' : Unseen mid db') : Unseen db db' :=
  ⟨h'.1.trans h.1, h'.2.1.trans h.2.1, fun hrows => h'.2.2 (h.2.2 hrows)⟩

theorem Unseen.follows (h : Unseen db db') : Follows R db db' := by
  refine ⟨?_, h.2.2⟩
  rw [h.2.1]

variable (hend : Ending R t job target keep db mid)

include hend

theorem Ending.unseen (h : Unseen mid mid') :
    Ending R t job target keep db mid' := by
  refine ⟨hend.row, h.1.trans hend.tasks, fun hrows => h.2.2 (hend.rows hrows), ?_⟩
  rw [h.2.1]
  exact hend.step

theorem Ending.job_eq :
    mid.cluster.jobs.get? t = some job := by
  show (mid.tasks.map Task.job).get? t = some job
  rw [hend.tasks]
  exact hend.row

/-- The project of the job still has its quota state. -/
theorem Ending.state (hlife : Lifecycle db.cluster) :
    ∃ s, mid.quotaStates.get? job.project = some s := by
  have hbkd := (Lifecycle.step hlife (hend.step false)).booked t _ (get?_set_self hend.job_eq _)
  exact ne_none_iff_exists'.mp (fun hn => hbkd (get?_map_eq_none.mpr hn))

/-- The row of the task is written. -/
theorem Ending.saved {userCancel : Bool}
    (h : saveTask t task mid = .ok u db') (hjob : task.job = job.ended target keep userCancel) :
    Follows R db db' := by
  rw [saveTask_ok.mp h]
  refine ⟨?_, hend.rows⟩
  rw [cluster_save, hjob]
  exact .single (hend.step userCancel)

omit hend

/-- The job goes back to the queue before its row is written: the cluster takes
    the two steps one after the other. -/
theorem Ending.requeued {moved : Task} {eventType : String} {last : Db} (userCancel : Bool)
    (hend : Ending R t job target keep db mid)
    (hst : target ∈ [.failed, .timedOut, .preempted])
    (hmoves : BookMoves job.project (fun book => book.waiting 1) mid mid') {before : Task}
    (htr : transition t before .retrying now eventType mid' = .ok moved last)
    (h : saveTask t task last = .ok u db')
    (hjob : task.job = (job.ended target keep userCancel).requeued) :
    Follows R db db' := by
  obtain ⟨_, _, event, _, _, hlast⟩ := transition_ok htr
  rw [saveTask_ok.mp h, hlast]
  refine ⟨?_, fun hrows => hmoves.rows (hend.rows hrows)⟩
  obtain ⟨book, hbook, hclus⟩ := hmoves.cluster
  have hback := Step.requeue (R := R) (a := { mid.cluster with
      jobs := mid.cluster.jobs.set t (job.ended target keep userCancel) })
    t _ book (get?_set_self hend.job_eq _) hst hbook
  refine (Relation.ReflTransGen.single (hend.step userCancel)).trans
    (Relation.ReflTransGen.single ?_)
  rw [set_set] at hback
  have hlastCluster : Db.cluster { mid' with
      taskEvents := mid'.taskEvents ++ [event], tasks := mid'.tasks.set t task }
      = { mid.cluster with
          jobs := mid.cluster.jobs.set t (job.ended target keep userCancel).requeued
          books := mid.cluster.books.set job.project (book.waiting 1) } := by
    have hsave := cluster_save mid' t task
    rw [hclus, hjob] at hsave
    exact hsave
  rw [hlastCluster]
  exact hback

/-- The live hold of an execution is given back by its release. -/
theorem releaseExecution_released {w : Option WorkerId} {e : Hold}
    (he : db.cluster.holds.get? x = some e) (hlive : e.live = true)
    (h : releaseExecution now t task w x final reason db = .ok task' mid) :
    mid.cluster.Released x := by
  obtain ⟨⟨released, _⟩, _, hrel, hrest⟩ := bind_ok.mp h
  dsimp only at hrest
  cases released with
  | true =>
    rw [if_pos rfl] at hrest
    obtain ⟨_, rfl⟩ := pure_ok.mp hrest
    obtain ⟨r, _, hr, _, _, hclus, _⟩ := releaseAndSettle_released hrel
    refine ⟨{ r.hold with live := false }, ?_, rfl⟩
    rw [hclus]
    exact get?_set_self (cluster_hold hr) _
  | false =>
    -- nothing is released only where no reservation is active
    obtain ⟨r, hr, rfl⟩ := get?_map_eq_some.mp he
    have hact := activeReservation_eq_some.mpr ⟨hr, isNone_iff_eq_none.mp hlive⟩
    rw [(releaseAndSettle_idle hrel).1] at hact
    cases hact

/-- **RELEASING AN EXECUTION** is the first half of its end. -/
theorem releaseExecution_ends {w : Option WorkerId} (hcan : CanEnd R db.cluster t x job target keep)
    (h : releaseExecution now t task w x final reason db = .ok task' mid) :
    Ending R t job target keep db mid
      ∧ ∃ cost, task' = { task with estimatedCost := cost } := by
  obtain ⟨⟨released, settled⟩, between, hrel, hrest⟩ := bind_ok.mp h
  dsimp only at hrest
  cases released with
  | true =>
    rw [if_pos rfl] at hrest
    obtain ⟨rfl, rfl⟩ := pure_ok.mp hrest
    obtain ⟨r, book, hres, hlive, hbook, hclus, htasks, hcost, hrows⟩ :=
      releaseAndSettle_released hrel
    refine ⟨⟨hcan.job_eq, htasks, hrows, ?_⟩, hcost⟩
    intro userCancel
    rw [hclus]
    exact .settle t x job r.hold book target keep userCancel hcan (cluster_hold hres) (by
        show r.releasedAt.isNone = true
        rw [hlive]
        rfl) hbook
  | false =>
    rw [if_neg Bool.false_ne_true] at hrest
    obtain ⟨hidle, rfl, rfl⟩ := releaseAndSettle_idle hrel
    have hdead : ∀ h, between.cluster.holds.get? x = some h → h.live = false := by
      intro h hh
      obtain ⟨r, hr, rfl⟩ := get?_map_eq_some.mp hh
      show r.releasedAt.isNone = false
      by_contra hlive
      have hn : r.releasedAt = none := isNone_iff_eq_none.mp (by
          revert hlive
          cases r.releasedAt.isNone <;> decide)
      rw [activeReservation_eq_some.mpr ⟨hr, hn⟩] at hidle
      cases hidle
    obtain ⟨_, _, hcap, hpure⟩ := bind_ok.mp hrest
    obtain ⟨rfl, rfl⟩ := pure_ok.mp hpure
    refine ⟨?_, settled.estimatedCost, rfl⟩
    cases w with
    | none =>
      obtain ⟨_, rfl⟩ := pure_ok.mp hcap
      refine ⟨hcan.job_eq, rfl, id, ?_⟩
      intro userCancel
      have hstep := Step.abandon t x job target keep userCancel ("" : WorkerId) id hcan
        hdead (fun _ => rfl)
      rw [modify_id] at hstep
      exact hstep
    | some w =>
      rw [releaseWorkerCapacity, modify_ok] at hcap
      rw [hcap]
      refine ⟨hcan.job_eq, rfl, id, ?_⟩
      intro userCancel
      have hcomm : ∀ worker : Worker, (worker.clampedWithout settled).slot
          = Slot.clamped settled worker.slot := fun _ => rfl
      have hslots : (between.workers.modify w
          (fun worker => worker.clampedWithout settled)).map Worker.slot
          = between.cluster.slots.modify w (Slot.clamped settled) :=
        map_modify hcomm w
      have hstep := Step.abandon t x job target keep userCancel w
        (Slot.clamped settled) hcan hdead (fun _ => rfl)
      rw [← hslots] at hstep
      exact hstep

end Ends

/-! ## Retries -/

section Retries

variable {R : Rules} {db db' : Db} {now : Time} {p : Uuid}

/-- An admission that passes its check is written. -/
theorem admitQueued_error {e : Err} (h : admitQueued now p db = .error e db') :
    admitQueuedProspect now p db = .error e db' := by
  rcases bind_error.mp h with hpros | ⟨next, mid, hpros, htouch⟩
  · exact hpros
  · have hsnd := admitQueuedProspect_sound hpros
    have htouched : touchState now p next mid
        = .ok (next.touched now) (mid.withQuotaState p (next.touched now)) :=
      touchState_ok.mpr ⟨hsnd, rfl, rfl⟩
    rw [htouched] at htouch
    cases htouch

/-- A refused admission has at most rolled the quota row to the current day. -/
theorem admitQueued_refused {e : Err} (h : admitQueued now p db = .error e db') :
    Unseen db db' := by
  rcases bind_error.mp (admitQueued_error h) with hlock | ⟨snapshot, mid, hlock, hr⟩
  · rw [getLocked_error hlock]
    exact ⟨rfl, rfl, id⟩
  · rcases bind_error.mp hr with hlim | ⟨_, _, _, hpure⟩
    · rw [(checkLimit_reads _ _ _).of_error hlim]
      exact (getLocked_moves hlock).unseen
    · exact absurd hpure pure_error

/-- A retry is admitted and counted, or refused and nothing is seen. -/
theorem admitRetry_cases {admitted : Bool} (hs : db.quotaStates.get? p = some s)
    (h : admitRetry now p db = .ok admitted db') :
    (admitted = true ∧ BookMoves p (fun book => book.waiting 1) db db')
      ∨ (admitted = false ∧ Unseen db db') := by
  rw [admitRetry, bind_get] at h
  simp only [hs, isNone_some, Bool.false_eq_true, if_false] at h
  rcases catching_cases h with hadmit | ⟨e, mid, href, _, hhdr⟩
  · obtain ⟨r, _, hque, hpure⟩ := bind_ok.mp hadmit
    obtain ⟨rfl, rfl⟩ := pure_ok.mp hpure
    exact .inl ⟨rfl, admitQueued_moves hque⟩
  · obtain ⟨rfl, rfl⟩ := pure_ok.mp hhdr
    rcases bind_error.mp href with hadmit | ⟨_, _, _, hpure⟩
    · exact .inr ⟨rfl, admitQueued_refused hadmit⟩
    · exact absurd hpure pure_error

theorem retryDelaySeconds_reads (n : ℤ) (maximum : ℚ) (backoff : RetryBackoff)
    (base : ℚ) : Reads (retryDelaySeconds n maximum backoff base) :=
  .check (.check (.check (.pure _)))

theorem recordExecutionError_unseen {category : Option ErrorCategory} {code : Option ErrorCode}
    {message : Option String} (h : recordExecutionError x category code message db = .ok u db') :
    Unseen db db' := by
  rw [recordExecutionError, modify_ok] at h
  rw [h]
  refine ⟨rfl, ?_, id⟩
  show Cluster.mk _ _ _ _ _ _ ((db.executions.modify x _).map TaskExecution.grant) = _
  rw [map_modify_eq]
  · rfl
  · intro _
    rfl

/-- Complete the plans of a task that was asked to stop. -/
def closePlans (now : Time) (t : Uuid) (task : Task) : Txn Unit :=
  if task.status = .preempting then completePreemptionPlans t now else pure ()

theorem closePlans_unseen (h : closePlans now t task db = .ok u db') : Unseen db db' := by
  rw [closePlans] at h
  split_ifs at h
  · rw [completePreemptionPlans, modify_ok] at h
    rw [h]
    exact ⟨rfl, rfl, id⟩
  · obtain ⟨_, rfl⟩ := pure_ok.mp h
    exact ⟨rfl, rfl, id⟩

/-- The queue takes the task back and counts it, or nothing is seen. -/
theorem retryAdmission_cases {result : Report} {admitted : Bool}
    (hs : db.quotaStates.get? task.projectId = some s)
    (h : retryAdmission now task result db = .ok admitted db') :
    (admitted = true ∧ (task.RetriesFailure result ∨ task.RequeuesPreempted result)
        ∧ BookMoves task.projectId (fun book => book.waiting 1) db db')
      ∨ (admitted = false ∧ Unseen db db') := by
  rw [retryAdmission] at h
  split_ifs at h with hrq hretry
  · rcases admitRetry_cases hs h with ⟨ha, hmoves⟩ | href
    · exact .inl ⟨ha, .inr hrq, hmoves⟩
    · exact .inr href
  · rcases admitRetry_cases hs h with ⟨ha, hmoves⟩ | href
    · exact .inl ⟨ha, .inl hretry, hmoves⟩
    · exact .inr href
  · obtain ⟨rfl, rfl⟩ := pure_ok.mp h
    exact .inr ⟨rfl, rfl, rfl, id⟩

/-- **THE RETRY** of a report: nothing happens to the cluster, or the queue of
    the project takes the task back. -/
theorem scheduleRetry_cases {result : Report} {retried : Bool}
    (hs : db.quotaStates.get? task.projectId = some s)
    (h : scheduleRetry now t task result db = .ok (retried, task') db') :
    (task' = task ∧ Unseen db db')
      ∨ ∃ mid before moved, BookMoves task.projectId (fun book => book.waiting 1) db mid
          ∧ transition t before .retrying now "task.status_changed" mid = .ok moved db'
          ∧ before.status = task.status ∧ task'.job = task.job.requeued := by
  obtain ⟨_, mid, hadmit, hr⟩ := bind_ok.mp h
  rcases retryAdmission_cases hs hadmit with ⟨rfl, hwants, hmoves⟩ | ⟨rfl, huns⟩
  · right
    by_cases hretry : task.RetriesFailure result
    · rw [if_pos ⟨hretry, rfl⟩] at hr
      simp only [bind_ok, pure_ok] at hr
      obtain ⟨moved, _, htr, _, _, hdelay, hpair, rfl⟩ := hr
      rw [(retryDelaySeconds_reads _ _ _ _).of_ok hdelay]
      refine ⟨mid, _, moved, hmoves, htr, rfl, ?_⟩
      rw [← (Prod.mk.inj hpair).2, (transition_ok htr).2.1]
      rfl
    · have hrq : task.RequeuesPreempted result := hwants.resolve_left hretry
      rw [if_neg (fun hboth => hretry hboth.1), if_pos ⟨hrq, rfl⟩] at hr
      simp only [bind_ok, pure_ok] at hr
      obtain ⟨moved, _, htr, hpair, rfl⟩ := hr
      refine ⟨mid, _, moved, hmoves, htr, rfl, ?_⟩
      rw [← (Prod.mk.inj hpair).2, (transition_ok htr).2.1]
      rfl
  · left
    rw [if_neg (fun hboth => Bool.false_ne_true hboth.2),
      if_neg (fun hboth => Bool.false_ne_true hboth.2)] at hr
    obtain ⟨hpair, rfl⟩ := pure_ok.mp hr
    exact ⟨(Prod.mk.inj hpair).2.symm, huns⟩

end Retries

/-! ## A reported result -/

section Reports

variable {R : Rules} {db db' : Db} {now : Time} {c : Caller}

theorem Task.measured_job (task : Task) (now : Time) (report : Report) :
    (task.measured now report).job = task.job := by
  rw [Task.measured]
  cases task.startedAt with
  | none | some startedAt => rfl

/-- The row of a task that ended with a result, as a job. -/
theorem Task.reported_job (task : Task) (now : Time) (result : Report) :
    (task.reported now result).job
      = { task.job with
          userCancel := decide (result.errorCategory = some .cancelled) } := by
  rw [Task.reported, Task.measured_job]
  rfl

/-- A cancellation overrides what the worker reports. -/
theorem Task.outcome_cancelled (report : Report) (h : task.CancellationRequested) :
    (task.outcome report).target = .cancelled := by
  rw [Task.outcome, if_pos h]

theorem Task.cancelling_job (task : Task) :
    task.job.Cancelling ↔ task.CancellationRequested := by
  show (task.cancelRequested = true ∧ (task.status ≠ .preempting
      ∨ decide (task.failureCategory = some .cancelled) = true)) ↔ _
  rw [decide_eq_true_iff]
  rfl

/-- A task of the lifecycle that is active holds. -/
theorem holding_of_active (hlife : Lifecycle db.cluster) (hrow : db.tasks.get? t = some task)
    (hact : task.status ∈ activeTaskStatuses) :
    task.status ∈ holdingStatuses := by
  have hsched : task.status ≠ .scheduling := (hlife.task hrow).unscheduled
  revert hact hsched
  cases task.status <;> decide

theorem retryable_of_transition {s : TaskStatus} (h : CanTransition s .retrying) :
    s ∈ [TaskStatus.failed, .timedOut, .preempted] := by
  revert h
  cases s <;> decide

/-- The last part of a report: the task goes back to the queue or not, and its
    row is written; no hold is touched. -/
theorem finishReport_follows {mid last : Db} {job : Job} {target : TaskStatus}
    {retried userCancel : Bool} (hlife : Lifecycle db.cluster)
    (hend : Ending R t job target true db mid)
    (hjob : task.job = job.ended target true userCancel)
    (hretry : scheduleRetry now t task report mid = .ok (retried, task') last)
    (hsave : saveTask t task' last = .ok u db') :
    Follows R db db' ∧ db'.cluster.holds = mid.cluster.holds := by
  have hst : task.status = target := congrArg Job.status hjob
  have hsaved : db'.cluster.holds = last.cluster.holds := by
    rw [saveTask_ok.mp hsave]
    rfl
  have hproj : task.projectId = job.project := congrArg Job.project hjob
  obtain ⟨s, hs⟩ := hend.state hlife
  rw [← hproj] at hs
  rcases scheduleRetry_cases hs hretry with ⟨rfl, huns⟩
    | ⟨between, before, moved, hmoves, htr, hbef, hjob'⟩
  · refine ⟨(hend.unseen huns).saved hsave hjob, ?_⟩
    rw [hsaved, huns.2.1]
  · obtain ⟨halw, _, _, _, _, hlast⟩ := transition_ok htr
    rw [hbef, hst] at halw
    rw [hproj] at hmoves
    rw [hjob] at hjob'
    refine ⟨hend.requeued userCancel (retryable_of_transition halw) hmoves htr hsave hjob', ?_⟩
    obtain ⟨_, _, hbtw⟩ := hmoves.cluster
    rw [hsaved, hlast]
    show between.cluster.holds = mid.cluster.holds
    rw [hbtw]

/-- The steps of a report. -/
theorem settleReport_ok {result : ExecutionResult}
    (h : settleReport now c task report db = .ok result db') :
    ∃ moved db₁ released db₂ db₃ db₄ retried task' last,
      transition c.taskId task (task.outcome report).target now
        ("task." ++ (task.outcome report).target.value) db = .ok moved db₁
      ∧ releaseExecution now c.taskId (moved.reported now (task.outcome report))
        (some c.workerId) c.executionId (task.outcome report).target
        (task.outcome report).target.value db₁ = .ok released db₂
      ∧ recordExecutionError c.executionId (task.outcome report).errorCategory
        (task.outcome report).errorCode (task.outcome report).errorMessage db₂ = .ok () db₃
      ∧ closePlans now c.taskId task db₃ = .ok () db₄
      ∧ scheduleRetry now c.taskId released (task.outcome report) db₄ = .ok (retried, task') last
      ∧ saveTask c.taskId task' last = .ok () db' := by
  obtain ⟨moved, db₁, htr, h₁⟩ := bind_ok.mp h
  obtain ⟨released, db₂, hrel, h₂⟩ := bind_ok.mp h₁
  obtain ⟨_, db₃, hrec, h₃⟩ := bind_ok.mp h₂
  by_cases hpre : task.status = .preempting
  · simp only [if_pos hpre, bind_ok, pure_ok] at h₃
    obtain ⟨_, db₄, hplans, ⟨retried, task'⟩, last, hretry, _, _, hsave, _, rfl⟩ := h₃
    exact ⟨moved, db₁, released, db₂, db₃, db₄, retried, task', last, htr, hrel,
      hrec, by rw [closePlans, if_pos hpre]; exact hplans, hretry, hsave⟩
  · simp only [if_neg hpre, bind_ok, pure_ok] at h₃
    obtain ⟨⟨retried, task'⟩, last, hretry, _, _, hsave, _, rfl⟩ := h₃
    exact ⟨moved, db₁, released, db₂, db₃, db₃, retried, task', last, htr, hrel,
      hrec, by rw [closePlans, if_neg hpre]; rfl, hretry, hsave⟩

/-- **A REPORT** behind its fence follows the cluster, and gives the hold of its
    execution back. -/
theorem settleReport_follows {result : ExecutionResult} (hlife : Lifecycle db.cluster)
    (hfence : Fenced db c task) (hact : task.status ∈ activeTaskStatuses)
    (htgt : R.target (task.outcome report).target)
    (h : settleReport now c task report db = .ok result db') :
    Follows R db db' ∧ ∀ e, db.cluster.holds.get? c.executionId = some e →
      e.live = true → db'.cluster.Released c.executionId := by
  obtain ⟨_, db₁, released, _, _, _, _, _, _, htr, hrel,
    hrec, hplans, hretry, hsave⟩ := settleReport_ok h
  obtain ⟨hcan, hmoved, _, _, _, hdb₁⟩ := transition_ok htr
  have hends : CanEnd R db₁.cluster c.taskId c.executionId task.job
      (task.outcome report).target true := by
    rw [hdb₁]
    exact {
      job_eq := cluster_job hfence.row
      holding := holding_of_active hlife hfence.row hact
      execution := hfence.execution
      allowed := hcan
      target_ok := htgt
      cancelling := fun hc =>
        Task.outcome_cancelled report ((Task.cancelling_job task).mp hc)
      final := fun hf => by cases hf }
  obtain ⟨hending, _, hreleased⟩ := releaseExecution_ends hends hrel
  have hjob : released.job = task.job.ended (task.outcome report).target true
      (decide ((task.outcome report).errorCategory = some .cancelled)) := by
    rw [hreleased, hmoved]
    exact Task.reported_job _ _ _
  have hlife₁ : Lifecycle db₁.cluster := by
    rw [hdb₁]
    exact hlife
  have huns := (recordExecutionError_unseen hrec).trans (closePlans_unseen hplans)
  obtain ⟨hfol, hholds⟩ := finishReport_follows hlife₁ (hending.unseen huns) hjob hretry hsave
  refine ⟨(transition_follows htr).trans hfol, fun e he hlive => ?_⟩
  -- the hold is given back in the second step, and later steps leave it alone
  have he₁ : db₁.cluster.holds.get? c.executionId = some e := by
    rw [hdb₁]
    exact he
  obtain ⟨e', he', hdead⟩ := releaseExecution_released he₁ hlive hrel
  refine ⟨e', ?_, hdead⟩
  rw [hholds, huns.2.1]
  exact he'

theorem finishFence_unseen {owned : Bool} (h : finishFence now c task db = .ok owned db') :
    Unseen db db' := by
  rw [finishFence] at h
  cases hsess : c.workerSessionId with
  | none =>
    simp only [hsess] at h
    obtain ⟨_, rfl⟩ := pure_ok.mp h
    exact ⟨rfl, rfl, id⟩
  | some =>
    simp only [hsess] at h
    obtain ⟨_, _, hlock, hr⟩ := bind_ok.mp h
    rw [bind_get] at hr
    obtain ⟨_, rfl⟩ := pure_ok.mp hr
    exact (getLocked_moves hlock).unseen

/-- A report is refused, at once or behind the fence, or it is settled. -/
theorem finishExecution_ok {result : ExecutionResult}
    (h : finishExecution now c report db = .ok result db') :
    (result.accepted = false ∧ db' = db) ∨ ∃ task owned mid, currentTask db c = some task
      ∧ task.status ∈ activeTaskStatuses ∧ finishFence now c task db = .ok owned mid
      ∧ Unseen db mid ∧ (owned = false ∧ result.accepted = false ∧ db' = mid
        ∨ owned = true ∧ Fenced mid c task
          ∧ settleReport now c task report mid = .ok result db') := by
  rw [finishExecution, bind_get] at h
  cases htask : currentTask db c with
  | none =>
    simp only [htask] at h
    obtain ⟨rfl, rfl⟩ := pure_ok.mp h
    exact .inl ⟨rfl, rfl⟩
  | some task =>
    simp only [htask] at h
    split_ifs at h with hact
    · obtain ⟨owned, mid, hfence, hr⟩ := bind_ok.mp h
      have huns := finishFence_unseen hfence
      refine .inr ⟨task, owned, mid, rfl, hact, hfence, huns, ?_⟩
      split_ifs at hr with hown
      · obtain ⟨hrow, hwk, hexec⟩ := currentTask_eq_some.mp htask
        rw [← huns.1] at hrow
        exact .inr ⟨hown, ⟨hrow, hwk, hexec⟩, hr⟩
      · obtain ⟨rfl, rfl⟩ := pure_ok.mp hr
        exact .inl ⟨Bool.not_eq_true _ ▸ hown, rfl, rfl⟩
    · obtain ⟨rfl, rfl⟩ := pure_ok.mp h
      exact .inl ⟨rfl, rfl⟩

/-- **`finish_execution`** follows the cluster, given that it may come to the
    result of the report. -/
theorem finishExecution_follows {result : ExecutionResult} (hlife : Lifecycle db.cluster)
    (htgt : ∀ task, currentTask db c = some task → R.target (task.outcome report).target)
    (h : finishExecution now c report db = .ok result db') : Follows R db db' := by
  rcases finishExecution_ok h with ⟨_, rfl⟩ | ⟨task, _, mid, htask, hact, _, huns, hend⟩
  · exact .refl _
  refine huns.follows.trans ?_
  rcases hend with ⟨_, _, rfl⟩ | ⟨_, hfncd, hstt⟩
  · exact .refl _
  · rw [← huns.2.1] at hlife
    exact (settleReport_follows hlife hfncd hact (htgt task htask) hstt).1

end Reports

end MiniAiCloud
