import MiniAiCloud.ClusterProofs
import MiniAiCloud.QuotaProofs
import MiniAiCloud.Settlement

/-! # The database implements the cluster

    `Db.cluster` forgets what the cluster does not speak of.  A transaction
    `Follows` the cluster when the forgotten states are joined by steps; it then
    keeps every invariant of the cluster.  The quota rows carry more than a book
    (service counters, money), so that they stay in order is part of the same
    statement.

    This module has the relation and its rules, and what the quota calls do to
    the books. -/

namespace MiniAiCloud

open Transaction Cluster Table Option

variable {r : ProjectQuotaState} {R : Rules} {d : ResourceDemand} {snapshot : QuotaSnapshot}
  {f : Book → Book} {h : Hold} {t : Uuid}

/-! ## Forgetting -/

def Task.job (task : Task) : Job where
  project := task.projectId
  gpus := task.gpuCount
  status := task.status
  worker := task.workerId
  execution := task.executionId
  cancel := task.cancelRequested
  userCancel := decide (task.failureCategory = some .cancelled)

def ResourceReservation.hold (r : ResourceReservation) : Hold where
  project := r.projectId
  job := r.taskId
  worker := r.workerId
  session := r.workerSessionId
  cpu := r.cpuMillicores
  memory := r.memoryMb
  gpus := r.gpuCount
  vendor := r.requestedVendor
  exact := decide (r.allocationAuthority = .controlPlaneExactDevice)
    && !r.legacyUnbound
  live := r.releasedAt.isNone

def Worker.slot (worker : Worker) : Slot where
  session := worker.workerSessionId
  running := worker.runningTasks
  cpu := worker.reservedCpu
  memory := worker.reservedMemoryMb
  gpus := worker.reservedGpus

def ProjectQuotaState.book (s : ProjectQuotaState) : Book where
  queued := s.queuedTasks
  running := s.runningTasks
  cpu := s.reservedCpuMillicores
  memory := s.reservedMemoryMb
  gpus := s.reservedGpus
  nvidia := s.reservedNvidiaGpus
  ascend := s.reservedAscendNpus

def TaskExecution.grant (e : TaskExecution) : Grant where
  job := e.taskId
  cpu := e.cpuMillicores
  memory := e.memoryMb
  gpus := e.gpuCount

def ReservationGpuDevice.live (link : ReservationGpuDevice) : Bool :=
  link.releasedAt.isNone

/-- The cluster a database stands for. -/
def Db.cluster (db : Db) : Cluster where
  jobs := db.tasks.map Task.job
  holds := db.reservations.map ResourceReservation.hold
  links := db.reservationGpuDevices.map ReservationGpuDevice.live
  slots := db.workers.map Worker.slot
  books := db.quotaStates.map ProjectQuotaState.book
  edges := db.taskDependencies.map TaskDependency.jobGroupId
  executions := db.executions.map TaskExecution.grant

/-- A project with a quota state has a quota row, and its counters are sound. -/
def QuotaRows (db : Db) : Prop :=
  ∀ p s, db.quotaStates.get? p = some s → s.Sound ∧ db.quotas.get? p ≠ none

/-! ## Following the cluster -/

/-- **REFINEMENT**: the cluster takes steps, and the quota rows stay in
    order. -/
structure Follows (R : Rules) (db db' : Db) : Prop where
  steps : Steps R db.cluster db'.cluster
  rows : QuotaRows db → QuotaRows db'

namespace Follows

variable {R : Rules} {db db' db'' : Db}

theorem refl (db : Db) : Follows R db db := ⟨Relation.ReflTransGen.refl, id⟩

theorem of_pure {α : Type} {a b : α} (h : (pure a : Txn α) db = .ok b db') : Follows R db db' := by
  obtain ⟨_, rfl⟩ := pure_ok.mp h
  exact refl db

theorem trans (h : Follows R db db') (h' : Follows R db' db'') : Follows R db db'' :=
  ⟨h.steps.trans h'.steps, fun hrows => h'.rows (h.rows hrows)⟩

/-- A write the cluster does not see. -/
theorem quiet (hclus : db'.cluster = db.cluster) (hqs : db'.quotas = db.quotas)
    (hsts : db'.quotaStates = db.quotaStates) : Follows R db db' := by
  refine ⟨?_, ?_⟩
  · rw [hclus]
  · intro hrows p s hs
    rw [hsts] at hs
    rw [hqs]
    exact hrows p s hs

/-- A write that is one step. -/
theorem step (hstep : Step R db.cluster db'.cluster) (hqs : db'.quotas = db.quotas)
    (hsts : db'.quotaStates = db.quotaStates) : Follows R db db' := by
  refine ⟨.single hstep, ?_⟩
  intro hrows p s hs
  rw [hsts] at hs
  rw [hqs]
  exact hrows p s hs

/-- What the steps of the cluster keep, a call that follows them keeps. -/
theorem keeps {I : Cluster → Prop} (hstep : ∀ a b, I a → Step R a b → I b)
    (h : Follows R db db') (hdb : I db.cluster) : I db'.cluster :=
  Steps.keeps hstep h.steps hdb

theorem lifecycle (h : Follows R db db') (hdb : Lifecycle db.cluster) : Lifecycle db'.cluster :=
  h.keeps (fun _ _ => Lifecycle.step) hdb

end Follows

/-! ## Reading the cluster -/

section Reading

variable {db : Db}

theorem cluster_job {task : Task} (h : db.tasks.get? t = some task) :
    db.cluster.jobs.get? t = some task.job :=
  get?_map_of_some h _

theorem cluster_hold {x : Uuid} {r : ResourceReservation}
    (h : db.reservations.get? x = some r) : db.cluster.holds.get? x = some r.hold :=
  get?_map_of_some h _

theorem cluster_slot {w : WorkerId} {worker : Worker} (h : db.workers.get? w = some worker) :
    db.cluster.slots.get? w = some worker.slot :=
  get?_map_of_some h _

theorem cluster_book {p : Uuid} {s : ProjectQuotaState}
    (h : db.quotaStates.get? p = some s) : db.cluster.books.get? p = some s.book :=
  get?_map_of_some h _

/-- The row of a job in the lifecycle. -/
theorem Cluster.Lifecycle.task (h : Lifecycle db.cluster) {task : Task}
    (ht : db.tasks.get? t = some task) : task.job.Wellformed :=
  h.wellformed t task.job (cluster_job ht)

/-- A task of the lifecycle has a quota state. -/
theorem Cluster.Lifecycle.state (h : Lifecycle db.cluster) {task : Task}
    (ht : db.tasks.get? t = some task) :
    ∃ s, db.quotaStates.get? task.projectId = some s := by
  have hbook := h.booked t task.job (cluster_job ht)
  exact ne_none_iff_exists'.mp (fun hn => hbook (get?_map_eq_none.mpr hn))

end Reading

/-! ## What the quota calls do to the books -/

/-- A quota call rewrote the state row of the project; its book moved by `f`. -/
def BookMoves (p : Uuid) (f : Book → Book) (db db' : Db) : Prop :=
  ∃ s r, db.quotaStates.get? p = some s ∧ db' = db.withQuotaState p r
    ∧ r.book = f s.book ∧ r.Sound ∧ db.quotas.get? p ≠ none

theorem rollDailyState_book (s : ProjectQuotaState) (now : Time) :
    (rollDailyState s now).book = s.book := by
  by_cases hd : s.accountingDate ≠ now.date
  · rw [rollDailyState, if_pos hd]
    rfl
  · rw [rollDailyState, if_neg hd]

section Books

variable {now : Time} {p : Uuid} {db db' : Db}

/-- Writing a sound row keeps the quota rows in order. -/
theorem quotaRows_write (hsnd : r.Sound) (hquota : db.quotas.get? p ≠ none) (hrows : QuotaRows db) :
    QuotaRows (db.withQuotaState p r) := by
  intro q s hs
  rcases get?_set_cases hs with ⟨hqp, hsr⟩ | ⟨_, hold⟩
  · rw [hqp, hsr]
    exact ⟨hsnd, hquota⟩
  · exact hrows q s hold

theorem cluster_withQuotaState (r : ProjectQuotaState) : (db.withQuotaState p r).cluster
      = { db.cluster with books := db.cluster.books.set p r.book } := by
  show Cluster.mk _ _ _ _ ((db.quotaStates.set p r).map _) _ _ = _
  rw [map_set]
  rfl

theorem BookMoves.rows (h : BookMoves p f db db') (hrows : QuotaRows db) : QuotaRows db' := by
  obtain ⟨s, r, _, rfl, _, hsnd, hquota⟩ := h
  exact quotaRows_write hsnd hquota hrows

/-- The cluster after a quota call: the book of the project moved. -/
theorem BookMoves.cluster (h : BookMoves p f db db') : ∃ book, db.cluster.books.get? p = some book
      ∧ db'.cluster = { db.cluster with books := db.cluster.books.set p (f book) } := by
  obtain ⟨s, r, hs, rfl, hbook, _, _⟩ := h
  refine ⟨s.book, cluster_book hs, ?_⟩
  rw [cluster_withQuotaState, hbook]

/-- A quota call that leaves the book as it was is not seen by the cluster. -/
theorem BookMoves.follows (h : BookMoves p id db db') :
    Follows R db db' := by
  refine ⟨?_, h.rows⟩
  obtain ⟨book, hbook, hclus⟩ := h.cluster
  rw [hclus]
  show Steps R db.cluster { db.cluster with books := db.cluster.books.set p book }
  rw [set_eq_self hbook]

theorem getLocked_moves (h : getLocked now p db = .ok snapshot db') : BookMoves p id db db' := by
  obtain ⟨quota, s, hq, hs, hsnd, _, hdb⟩ := getLocked_ok.mp h
  exact ⟨s, rollDailyState s now, hs, hdb, rollDailyState_book s now,
    rollDailyState_sound hsnd now, by rw [hq]; exact some_ne_none quota⟩

/-- A quota call computes a row from the rolled one, checks and touches it. -/
theorem moves_of_touch {quota : ProjectQuota} {s next : ProjectQuotaState} {mid : Db}
    (hrow : Rows db p quota s) (hmid : mid = db.withQuotaState p (rollDailyState s now))
    (hbook : next.book = f (rollDailyState s now).book) (hsnd : next.Sound)
    (hr : r = next.touched now) (hdb : db' = mid.withQuotaState p r) :
    BookMoves p f db db' := by
  obtain ⟨hq, hs, _⟩ := hrow
  refine ⟨s, r, hs, ?_, ?_, ?_, ?_⟩
  · rw [hdb, hmid, withQuotaState_withQuotaState]
  · rw [hr, ← rollDailyState_book s now, ← hbook]
    rfl
  · rw [hr]
    exact { hsnd with }
  · rw [hq]
    exact some_ne_none quota

theorem admitQueued_moves (h : admitQueued now p db = .ok r db') :
    BookMoves p (fun book => book.waiting 1) db db' := by
  obtain ⟨_, _, hx, hsnd, hr, hdb⟩ := prospect_touch_ok.mp h
  obtain ⟨_, _, hrow, _, hnext, hmid⟩ := admitQueuedProspect_ok.mp hx
  exact moves_of_touch hrow hmid (by rw [hnext]; rfl) hsnd hr hdb

theorem releaseQueued_moves (h : releaseQueued now p db = .ok r db') :
    BookMoves p (fun book => book.waiting (-1)) db db' := by
  obtain ⟨_, _, hx, hsnd, hr, hdb⟩ := prospect_touch_ok.mp h
  obtain ⟨_, _, hrow, _, hnext, hmid⟩ := releaseQueuedProspect_ok.mp hx
  exact moves_of_touch hrow hmid (by rw [hnext]; rfl) hsnd hr hdb

/-- The demand a hold puts on its project. -/
def Hold.Demands (h : Hold) (d : ResourceDemand) : Prop :=
  d.cpuMillicores = h.cpu ∧ d.memoryMb = h.memory ∧ d.gpuCount = h.gpus
    ∧ d.acceleratorVendor = h.vendor.map AcceleratorVendor.value

/-- The vendor a quota call types a demand by is the one of the hold. -/
theorem Hold.Demands.share (hd : h.Demands d) {vendor : Option AcceleratorVendor}
    (hvalid : d.Valid vendor) (v : AcceleratorVendor) :
    vendorShare vendor v d.gpuCount = h.share v := by
  obtain ⟨_, _, hgpus, htext⟩ := hd
  rcases hvalid.typed with ⟨hzero, hn⟩ | ⟨_, _, hven⟩
  · rw [hn, Hold.share, ← hgpus, hzero, ite_self]
    exact if_neg (fun hne => by cases hne)
  · rw [hven, htext, hgpus, vendorShare, Hold.share]
    cases h.vendor with
    | none =>
      cases v with
      | nvidia => rfl
      | huaweiAscend => rfl
    | some named =>
      cases named with
      | nvidia =>
        cases v with
        | nvidia => rfl
        | huaweiAscend => rfl
      | huaweiAscend =>
        cases v with
        | nvidia => rfl
        | huaweiAscend => rfl

theorem reserveExecution_moves (hd : h.Demands d)
    (hok : reserveExecution now p d 0 db = .ok r db') :
    BookMoves p (fun book => book.plus h) db db' := by
  obtain ⟨_, _, hx, hsnd, hr, hdb⟩ := prospect_touch_ok.mp hok
  obtain ⟨_, _, _, hrow, hvalid, _, hnext, _, _, hmid⟩ := reserveExecutionProspect_ok hx
  refine moves_of_touch hrow hmid ?_ hsnd hr hdb
  rw [hnext, reservedRow, hd.share hvalid, hd.share hvalid, hd.1, hd.2.1]
  rfl

theorem releaseQuota_moves {settled : ℚ} {date : Option Date} (hd : h.Demands d)
    (hok : releaseQuota now p d 0 settled date db = .ok r db') :
    BookMoves p (fun book => book.minus h) db db' := by
  obtain ⟨_, _, hx, hsnd, hr, hdb⟩ := prospect_touch_ok.mp hok
  obtain ⟨_, _, _, hrow, hvalid, _, _, _, _, hnext, hmid⟩ := releaseQuotaProspect_ok.mp hx
  refine moves_of_touch hrow hmid ?_ hsnd hr hdb
  rw [hnext, releasedRow, hd.share hvalid, hd.share hvalid, hd.1, hd.2.1]
  rfl

/-! ## The calls on a project -/

/-- Opening the quota rows of a project opens its book. -/
theorem initializeQuota_follows (h : initializeQuota now p db = .ok snapshot db') :
    Follows R db db' := by
  obtain ⟨_, hq, hs, hsnd, rfl⟩ := initializeQuota_ok.mp h
  obtain ⟨hquota, _, _⟩ := rows_of_insert hq hs hsnd
  have hrows : QuotaRows db → QuotaRows { db with
      quotas := db.quotas.insert p snapshot.quota
      quotaStates := db.quotaStates.insert p snapshot.state } := by
    intro hrows r s hr
    have hkept : db.quotas.get? r ≠ none →
        (db.quotas.insert p snapshot.quota).get? r ≠ none := by
      intro hne
      obtain ⟨quota, hquota⟩ := ne_none_iff_exists'.mp hne
      rw [get?_insert_of_some hquota]
      exact some_ne_none quota
    rcases get?_insert_cases hr with ⟨hrp, hsr⟩ | hold
    · rw [hrp, hsr]
      refine ⟨hsnd, ?_⟩
      rw [hquota]
      exact some_ne_none _
    · exact ⟨(hrows r s hold).1, hkept (hrows r s hold).2⟩
  refine ⟨?_, hrows⟩
  cases hold : db.quotaStates.get? p with
  | some =>
    -- the rows were there: nothing the cluster sees is written
    have hclus : Db.cluster { db with
        quotas := db.quotas.insert p snapshot.quota
        quotaStates := db.quotaStates.insert p snapshot.state } = db.cluster := by
      show Cluster.mk _ _ _ _ ((db.quotaStates.insert p snapshot.state).map _) _ _ = _
      rw [insert_of_some hold]
      rfl
    rw [hclus]
  | none =>
    rw [hold] at hs
    have hempty : snapshot.state.book = Book.empty := by
      rw [hs]
      rfl
    have hstep : Step R db.cluster
        { db.cluster with books := db.cluster.books.insert p Book.empty } :=
      Step.openBook p (get?_map_eq_none.mpr hold)
    refine .single ?_
    rw [← hempty] at hstep
    show Step R db.cluster (Cluster.mk _ _ _ _ ((db.quotaStates.insert p snapshot.state).map _) _ _)
    rw [map_insert]
    exact hstep

theorem replaceQuota_follows {limits : QuotaLimits}
    (h : replaceQuota now p limits db = .ok snapshot db') :
    Follows R db db' := by
  obtain ⟨mid, hx, rfl⟩ := replaceQuota_ok.mp h
  obtain ⟨quota, s, ⟨hq, hs, hsnd⟩, hst, _, _, _, _, hmid⟩ :=
    replaceQuotaProspect_ok hx
  have hmoves : BookMoves p id db mid :=
    ⟨s, snapshot.state, hs, hmid, by rw [hst, rollDailyState_book]; rfl,
      by rw [hst]; exact rollDailyState_sound hsnd now,
      by rw [hq]; exact some_ne_none quota⟩
  refine (hmoves.follows).trans ⟨Relation.ReflTransGen.refl, ?_⟩
  intro hrows r s' hr
  obtain ⟨hsnd', hne⟩ := hrows r s' hr
  exact ⟨hsnd', fun hn => hne (get?_set_eq_none.mp hn)⟩

theorem lockOrInitialize_follows (h : lockOrInitialize now p db = .ok snapshot db') :
    Follows R db db' := by
  rcases catching_cases h with hlock | ⟨e, mid, hlock, _, hinit⟩
  · exact (getLocked_moves hlock).follows
  · rw [getLocked_error hlock] at hinit
    exact initializeQuota_follows hinit

/-- The commitment of a service leaves the task counters alone. -/
theorem replaceServiceCommitment_follows {current desired : ℤ}
    (h : replaceServiceCommitment now p current desired d db = .ok r db') :
    Follows R db db' := by
  obtain ⟨⟨s, next⟩, mid, hx, hr⟩ := bind_ok.mp h
  dsimp only at hr
  obtain ⟨quota, _, hlock, ⟨hq, hs, _⟩, hnext, hsnd, _⟩ := serviceCommitmentProspect_ok hx
  have hfol : Follows R db mid := lockOrInitialize_follows hlock
  split_ifs at hr with hdelta
  · obtain ⟨_, rfl⟩ := pure_ok.mp hr
    exact hfol
  · obtain ⟨_, _, hdb⟩ := touchState_ok.mp hr
    have hmoves : BookMoves p id mid db' :=
      ⟨s, next.touched now, hs, hdb, by rw [hnext]; rfl, { hsnd with },
        by rw [hq]; exact some_ne_none quota⟩
    exact hfol.trans hmoves.follows

end Books

end MiniAiCloud
