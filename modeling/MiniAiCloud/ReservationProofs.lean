import MiniAiCloud.AccountProofs
import MiniAiCloud.LifecycleProofs

/-! # Reservations are the truth, over whole runs

    The accounts of the cluster, read in the tables of the database: what a task,
    a worker and a project say about reservations is what the reservations say.
    A worker only ever reports a final status (its executor has no other), and
    that is the one thing a run has to promise here. -/

namespace MiniAiCloud

open Reachability Cluster Table Option

/-! ## The accounts of a run -/

/-- Workers report final statuses. -/
abbrev finalReports : Call → Db → Prop := fun i _ => i.op.ReportsFinal

theorem Cluster.Accounts.empty : Accounts Cluster.empty where
  lifecycle := Lifecycle.empty
  owned := Owned.empty
  placed x h hx := by cases hx
  slotRunning k r hr := by cases hr
  slotMemory k r hr := by cases hr
  slotGpus k r hr := by cases hr
  bookRunning k r hr := by cases hr
  bookCpu k r hr := by cases hr
  bookMemory k r hr := by cases hr
  bookNvidia k r hr := by cases hr
  bookAscend k r hr := by cases hr
  queues k r hr := by cases hr
  typed p book hp := by cases hp
  linked := Linked.empty
  sized x h hx := by cases hx

/-- With final reports, the accounts of every reachable state are in order. -/
theorem reach_accounts {db : Db} (h : Reach controlPlane finalReports db) : Accounts db.cluster :=
  (reach_keeps (R := reportedRules (fun _ => True)) (fun _ _ hi => reportedRules_keeps hi)
    Accounts.empty (fun _ _ _ haccs hstep => haccs.step (fun _ hs => hs) hstep) h).2

/-! ## Sums over active reservations -/

/-- The sum of an amount over the active reservations with a property. -/
def activeTotal {M : Type} [AddCommMonoid M] (db : Db) (p : ResourceReservation → Prop)
    [DecidablePred p] (amount : ResourceReservation → M) : M :=
  db.reservations.sum (fun _ r => if r.releasedAt = none ∧ p r then amount r else 0)

/-- The active reservations with a property. -/
abbrev activeCount (db : Db) (p : ResourceReservation → Prop) [DecidablePred p] : ℤ :=
  activeTotal db p (fun _ => 1)

/-- The total weight of live holds, in reservations. -/
theorem total_holds {M κ : Type} [AddCommMonoid M] [DecidableEq κ] (db : Db)
    (key : Hold → κ) (g : Hold → M) (k : κ) :
    Meter.total db.cluster.holds key (Hold.weigh g) k
      = activeTotal db (fun r => key r.hold = k) (fun r => g r.hold) := by
  show (db.reservations.map ResourceReservation.hold).sum _ = _
  rw [sum_map]
  refine sum_congr ?_
  intro x r _
  have hlive : r.hold.live = true ↔ r.releasedAt = none := isNone_iff_eq_none
  show (if key r.hold = k then (if r.hold.live = true then g r.hold else 0) else 0)
    = if r.releasedAt = none ∧ key r.hold = k then g r.hold else 0
  by_cases hkey : key r.hold = k
  · rw [if_pos hkey]
    by_cases hact : r.releasedAt = none
    · rw [if_pos (hlive.mpr hact), if_pos ⟨hact, hkey⟩]
    · rw [if_neg (fun hl => hact (hlive.mp hl)), if_neg (fun hboth => hact hboth.1)]
  · rw [if_neg hkey, if_neg (fun hboth => hkey hboth.2)]

/-- The links that are live, counted as `take_global_assignment` does. -/
theorem linkCount_cluster (db : Db) (x : Uuid) :
    linkCount db.cluster.links x = activeDeviceCount db x := by
  rw [activeDeviceCount, select_length]
  show (db.reservationGpuDevices.map ReservationGpuDevice.live).sum _ = _
  rw [sum_map]
  refine sum_congr ?_
  rintro ⟨y, d⟩ link _
  show (if y = x ∧ link.releasedAt.isNone = true then (1 : ℤ) else 0)
    = if decide (y = x ∧ link.releasedAt = none) = true then 1 else 0
  simp only [isNone_iff_eq_none, decide_eq_true_iff]

/-! ## Reservation truth -/

/-- The reservation of the execution is active. -/
def Active (db : Db) (x : Uuid) (r : ResourceReservation) : Prop :=
  db.reservations.get? x = some r ∧ r.releasedAt = none

theorem Active.hold {db : Db} {x : Uuid} {r : ResourceReservation} (h : Active db x r) :
    db.cluster.holds.get? x = some r.hold ∧ r.hold.live = true :=
  ⟨cluster_hold h.1, isNone_iff_eq_none.mpr h.2⟩

theorem active_of_hold {db : Db} {x : Uuid} {e : Hold}
    (he : db.cluster.holds.get? x = some e) (hlive : e.live = true) :
    ∃ r, Active db x r ∧ r.hold = e := by
  obtain ⟨r, hr, rfl⟩ := get?_map_eq_some.mp he
  exact ⟨r, ⟨hr, isNone_iff_eq_none.mp hlive⟩, rfl⟩

/-- What tasks, workers and device links say about the reservations is true. -/
structure ReservationTruth (db : Db) : Prop where
  held_iff : ∀ t task, db.tasks.get? t = some task →
    ((∃ x r, Active db x r ∧ r.taskId = t)
      ↔ task.status ∈ [TaskStatus.assigned, .preparing, .pulling, .starting, .running,
          .stopping, .preempting])
  current : ∀ x r, Active db x r → ∃ task, db.tasks.get? r.taskId = some task
    ∧ task.executionId = some x ∧ task.workerId = some r.workerId
  single : ∀ x y r r', Active db x r → Active db y r' → r.taskId = r'.taskId → x = y
  runningTasks : ∀ w worker, db.workers.get? w = some worker →
    worker.runningTasks = activeCount db (fun r => r.workerId = w)
  reservedMemoryMb : ∀ w worker, db.workers.get? w = some worker →
    worker.reservedMemoryMb
      = activeTotal db (fun r => r.workerId = w) (fun r => r.memoryMb)
  reservedGpus : ∀ w worker, db.workers.get? w = some worker →
    worker.reservedGpus = activeTotal db (fun r => r.workerId = w) (fun r => r.gpuCount)
  unshared : ∀ x y d link link',
    db.reservationGpuDevices.get? (x, d) = some link → link.releasedAt = none →
    db.reservationGpuDevices.get? (y, d) = some link' → link'.releasedAt = none → x = y
  exact : ∀ x r, Active db x r → r.allocationAuthority = .controlPlaneExactDevice →
    r.legacyUnbound = false → (activeDeviceCount db x : ℤ) = r.gpuCount

/-- A task of the accounts that holds has an active reservation of its current
    execution, and only such a task has one. -/
theorem Cluster.Accounts.active_iff {db : Db} (h : Accounts db.cluster) {t : Uuid}
    {task : Task} (hrow : db.tasks.get? t = some task) :
    (∃ x r, Active db x r ∧ r.taskId = t) ↔ task.status ∈ holdingStatuses := by
  constructor
  · rintro ⟨x, r, hact, ht⟩
    obtain ⟨job, hjob, hheld, _⟩ := h.owned.owner x r.hold hact.hold.1 hact.hold.2
    have hjob' : db.cluster.jobs.get? t = some job := by
      rw [← ht]
      exact hjob
    rw [cluster_job hrow] at hjob'
    rw [← some.inj hjob'] at hheld
    exact hheld
  · intro hheld
    obtain ⟨x, e, _, he, hlive, ht⟩ := h.owned.held t task.job (cluster_job hrow) hheld
    obtain ⟨r, hact, rfl⟩ := active_of_hold he hlive
    exact ⟨x, r, hact, ht⟩

theorem Cluster.Accounts.current {db : Db} (h : Accounts db.cluster) {x : Uuid}
    {r : ResourceReservation} (hact : Active db x r) :
    ∃ task, db.tasks.get? r.taskId = some task ∧ task.executionId = some x
      ∧ task.workerId = some r.workerId := by
  obtain ⟨_, hjob, _, hx, hw, _⟩ := h.owned.owner x r.hold hact.hold.1 hact.hold.2
  obtain ⟨task, htask, rfl⟩ := get?_map_eq_some.mp hjob
  exact ⟨task, htask, hx, hw⟩

/-- **RESERVATION TRUTH** in every reachable state. -/
theorem reservation_truth (db : Db) (h : Reach controlPlane finalReports db) :
    ReservationTruth db := by
  have haccs := reach_accounts h
  refine ⟨?_, ?_, ?_, ?_, ?_, ?_, ?_, ?_⟩
  · intro _ _ hrow
    exact haccs.active_iff hrow
  · intro x r hact
    exact haccs.current hact
  · intro _ _ _ _ hx hy heq
    obtain ⟨_, htask, hexec, _⟩ := haccs.current hx
    obtain ⟨_, htask', hexec', _⟩ := haccs.current hy
    rw [← heq, htask] at htask'
    rw [← some.inj htask', hexec] at hexec'
    exact some.inj hexec'
  · intro w worker hw
    exact (haccs.slotRunning w worker.slot (cluster_slot hw)).trans (total_holds db _ _ w)
  · intro w worker hw
    exact (haccs.slotMemory w worker.slot (cluster_slot hw)).trans (total_holds db _ _ w)
  · intro w worker hw
    exact (haccs.slotGpus w worker.slot (cluster_slot hw)).trans (total_holds db _ _ w)
  · intro x y d _ _ hlink hlive hlink' hlive'
    have hx : db.cluster.links.get? (x, d) = some true := by
      rw [← isNone_iff_eq_none.mpr hlive]
      exact get?_map_of_some hlink _
    have hy : db.cluster.links.get? (y, d) = some true := by
      rw [← isNone_iff_eq_none.mpr hlive']
      exact get?_map_of_some hlink' _
    exact haccs.linked.unshared x y d hx hy
  · intro x r hact hauth hbound
    have hexact : r.hold.exact = true := by
      show (decide (r.allocationAuthority = .controlPlaneExactDevice) && !r.legacyUnbound) = true
      rw [hauth, hbound]
      rfl
    rw [← linkCount_cluster]
    exact haccs.linked.exact x r.hold hact.hold.1 hact.hold.2 hexact

def gpuWorker : WorkerRegistration where
  hostname := "h"
  concurrency := 4
  cpuCount := 4
  memoryTotalMb := 4096
  gpuCount := 1

def oneGpu : InventoryItem where
  id := 50
  uuid := "GPU-0"
  index := 0
  memoryTotalMb := 16384
  memoryFreeMb := 16384
  model := "T4"

/-- A worker with one accelerator claims a task that asks for it. -/
def gpuCalls : List Call :=
  [⟨0, .register "w" gpuWorker 100⟩, ⟨1, .replaceGpuInventory "w" 100 [oneGpu]⟩,
   ⟨2, .createQueued 1 { halfCoreTask [] with gpuCount := 1 }⟩,
   ⟨3, .claim 1 "w" 11 30 none standardPrices []⟩]

def gpuCloud : Db := controlPlane.run gpuCalls freshCloud

/-- A list of calls with final reports leads to a reachable state. -/
theorem freshCloud_final (calls : List Call) (h : ∀ i ∈ calls, i.op.ReportsFinal) :
    Reach controlPlane finalReports (controlPlane.run calls freshCloud) :=
  (Reach.init freshCloud_init).run calls (allowed_of_forall _ (fun i hi _ => h i hi) _)

/-- The claimed accelerator is bound, and the worker shows it. -/
theorem reservation_truth_one_gpu :
    activeDeviceCount gpuCloud 11 = 1 ∧ ∃ worker, gpuCloud.workers.get? "w" = some worker
      ∧ worker.reservedGpus
        = activeTotal gpuCloud (fun r => r.workerId = "w") (fun r => r.gpuCount) := by
  have hwk : (gpuCloud.workers.get? "w").isSome = true := by decide +kernel
  obtain ⟨worker, hw⟩ := isSome_iff_exists.mp hwk
  exact ⟨by decide +kernel, worker, hw,
    (reservation_truth gpuCloud (freshCloud_final _ (by decide))).reservedGpus "w" worker hw⟩

/-! ## Project quota counters -/

end MiniAiCloud
