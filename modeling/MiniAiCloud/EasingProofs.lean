import MiniAiCloud.BookingProofs
import MiniAiCloud.RecoveryRefinement

/-! # The end of an execution makes room

    A report and the recovery of an expired lease release reservations and change
    nothing else the pool planner reads: not the inventory, not the services, not the
    node a task was placed on.  Each function of the two calls has one lemma here, and
    the calls are assembled from them.  The code carries the task row along and writes
    it at the end, so every lemma also says that the row keeps its node. -/

namespace MiniAiCloud

open Transaction Table Option

variable {grace : ℚ} {recovered : Bool} {attempts : ℤ} {final : TaskStatus}
  {r : ResourceReservation} {reason : String} {x : Option Uuid}

/-! ## The relation -/

/-- The tables the planner reads. -/
def Db.stock (db : Db) :=
  (db.gpuDevices, db.workers, db.modelServices, db.serviceReplicas, db.tasks,
    db.reservations)

/-- Reservations may have been released; what else the planner reads is the same. -/
structure Eases (db db' : Db) : Prop where
  inventory : SameInventory db db'
  services : db'.modelServices = db.modelServices
  replicas : db'.serviceReplicas = db.serviceReplicas
  nodes : db'.tasks.map Task.kubernetesNodeName = db.tasks.map Task.kubernetesNodeName
  releases : ∃ g, db'.reservations = db.reservations.mapRows g
    ∧ ∀ x r, (g x r).releasedAt = none → g x r = r

namespace Eases

variable {db mid db' : Db}

theorem refl (db : Db) : Eases db db :=
  ⟨⟨rfl, rfl⟩, rfl, rfl, rfl, fun _ r => r, (mapRows_id _).symm, fun _ _ _ => rfl⟩

theorem of_pure {α : Type} {a b : α} (h : (pure a : Txn α) db = .ok b db') : Eases db db' := by
  obtain ⟨_, rfl⟩ := pure_ok.mp h
  exact refl db

theorem trans (h : Eases db mid) (h' : Eases mid db') : Eases db db' where
  inventory := ⟨h'.inventory.1.trans h.inventory.1, h'.inventory.2.trans h.inventory.2⟩
  services := h'.services.trans h.services
  replicas := h'.replicas.trans h.replicas
  nodes := h'.nodes.trans h.nodes
  releases := by
    obtain ⟨g, hg, hkeep⟩ := h.releases
    obtain ⟨g', hg', hkeep'⟩ := h'.releases
    refine ⟨fun x r => g' x (g x r), by rw [hg', hg, mapRows_mapRows], ?_⟩
    intro x r hact
    have hsec := hkeep' x (g x r) hact
    have hfirst : (g x r).releasedAt = none := by
      rw [← hsec]
      exact hact
    exact hsec.trans (hkeep x r hfirst)

theorem of_stock (h : db'.stock = db.stock) : Eases db db' := by
  simp only [Db.stock, Prod.mk.injEq] at h
  obtain ⟨hdevs, hwks, hsvcs, hreps, htasks, hresv⟩ := h
  refine ⟨⟨hdevs, by rw [hwks]⟩, hsvcs, hreps, by rw [htasks], fun _ r => r, ?_, fun _ _ _ => rfl⟩
  rw [hresv, mapRows_id]

variable (h : Eases db db')

include h

/-- The row of a task is still there, on the same node. -/
theorem row {t : Uuid} {row : Task} (hrow : db.tasks.get? t = some row) :
    ∃ row', db'.tasks.get? t = some row'
      ∧ row'.kubernetesNodeName = row.kubernetesNodeName := by
  have hnode := get?_map_of_some hrow Task.kubernetesNodeName
  rw [← h.nodes] at hnode
  exact get?_map_eq_some.mp hnode

/-- Only released reservations differ. -/
theorem reservation {x : Uuid} (hget : db'.reservations.get? x = some r)
    (hact : r.releasedAt = none) :
    db.reservations.get? x = some r := by
  obtain ⟨g, hg, hkeep⟩ := h.releases
  rw [hg, get?_mapRows] at hget
  obtain ⟨old, hold, rfl⟩ := map_eq_some_iff.mp hget
  rw [hold, hkeep x old hact]

theorem drifts : Drifts db db' := Drifts.of_same h.inventory h.services h.replicas

theorem reservedNode (r : ResourceReservation) :
    reservedNode db' r = reservedNode db r := by
  have hsite := h.inventory.site r.workerId
  have hnode : (db'.tasks.get? r.taskId).map Task.kubernetesNodeName
      = (db.tasks.get? r.taskId).map Task.kubernetesNodeName := by
    rw [← get?_map, h.nodes, get?_map]
  rw [MiniAiCloud.reservedNode, MiniAiCloud.reservedNode]
  cases hw' : db'.workers.get? r.workerId with
  | none =>
    rw [hw', map_none] at hsite
    rw [map_eq_none_iff.mp hsite.symm]
    rfl
  | some w' =>
    rw [hw', map_some] at hsite
    obtain ⟨w, hw, hww⟩ := map_eq_some_iff.mp hsite.symm
    have hname : w'.nodeName = w.nodeName := (congrArg Site.nodeName hww).symm
    rw [hw]
    cases ht' : db'.tasks.get? r.taskId with
    | none =>
      rw [ht', map_none] at hnode
      rw [map_eq_none_iff.mp hnode.symm]
      rfl
    | some task' =>
      rw [ht', map_some] at hnode
      obtain ⟨task, htask, htt⟩ := map_eq_some_iff.mp hnode.symm
      rw [htask]
      show some (task'.kubernetesNodeName.getD w'.nodeName)
        = some (task.kubernetesNodeName.getD w.nodeName)
      rw [htt, hname]

/-- **MAKING ROOM**: fewer accelerators are booked. -/
theorem bookedAt_le {catalog : RuntimeProfileCatalog}
    (hkept : Contracted catalog db) (node resourceName : String) :
    bookedAt catalog db' node resourceName ≤ bookedAt catalog db node resourceName := by
  obtain ⟨g, hg, hkeep⟩ := h.releases
  rw [bookedAt, hg, sum_mapRows, bookedAt]
  refine sum_le_sum ?_
  intro x r hget
  by_cases hbooks : (g x r).BooksAt catalog db' node resourceName
  · have heq := hkeep x r hbooks.1.1
    rw [if_pos hbooks, heq, if_pos]
    rw [heq] at hbooks
    exact ⟨hbooks.1, by rw [← h.reservedNode]; exact hbooks.2.1, hbooks.2.2⟩
  · rw [if_neg hbooks]
    split
    · rename_i hold
      exact (hkept x r hget hold.1).1
    · exact le_refl _

theorem contracted {catalog : RuntimeProfileCatalog}
    (hkept : Contracted catalog db) : Contracted catalog db' := by
  intro x r hget hdef
  exact hkept x r (h.reservation hget hdef.1) hdef

end Eases

/-! ## Quota calls -/

section Quotas

variable {now : Time} {p : Uuid}

theorem getLocked_keeps : Keeps Db.stock (getLocked now p) := by
  refine Moves.of_result ?_ ?_
  · intro _ _ _ h
    obtain ⟨_, _, _, hdb, _⟩ := getLocked_moves h
    rw [hdb]
    rfl
  · intro _ _ _ h
    rw [getLocked_error h]

theorem admitRetry_keeps : Keeps Db.stock (admitRetry now p) := by
  have hqueue : Keeps Db.stock (admitQueued now p) := by
    refine Moves.of_result ?_ ?_
    · intro _ _ _ h
      obtain ⟨_, _, _, hdb, _⟩ := admitQueued_moves h
      rw [hdb]
      rfl
    · intro _ _ _ h
      have hpros : Keeps Db.stock (admitQueuedProspect now p) :=
        .bind getLocked_keeps fun _ => .bind (.of_reads (checkLimit_reads _ _ _)) fun _ =>
          .pure _
      exact hpros.of_error (admitQueued_error h)
  refine .bind .get fun db => .ite (.pure _) ?_
  exact Moves.catching (fun _ _ _ h h' => h'.trans h) (hqueue.bind fun _ => .pure _)
    (Keeps.pure _)

theorem lockProjects_keeps (projects : List Uuid) :
    Keeps Db.stock (lockProjects now projects) := by
  induction projects with
  | nil => exact .pure _
  | cons q rest ih => exact getLocked_keeps.bind fun _ => ih

end Quotas

/-! ## Carrying a task row -/

/-- The task is on the node. -/
def On (t : Uuid) (node : Option String) (db : Db) : Prop :=
  (db.tasks.get? t).map Task.kubernetesNodeName = some node

/-- The transaction makes room where the task is on the node, and what it returns has the
    property. -/
def Eased {α : Type} (t : Uuid) (node : Option String) (P : α → Prop) (m : Txn α) : Prop :=
  ∀ db a db', On t node db → m db = .ok a db' → Eases db db' ∧ P a

section Carrying

variable {α β : Type} {t : Uuid} {node : Option String} {P : α → Prop} {Q : β → Prop}
  {now : Time} {task : Task}

theorem Eases.on {db db' : Db} (h : Eases db db') (hon : On t node db) : On t node db' := by
  rw [On, ← get?_map, h.nodes, get?_map]
  exact hon

theorem Eased.bind {m : Txn α} {f : α → Txn β} (hm : Eased t node P m)
    (hf : ∀ a, P a → Eased t node Q (f a)) : Eased t node Q (m >>= f) := by
  intro db b db' hon h
  obtain ⟨a, mid, hfirst, hr⟩ := bind_ok.mp h
  obtain ⟨heases, ha⟩ := hm db a mid hon hfirst
  obtain ⟨heases', hb⟩ := hf a ha mid b db' (heases.on hon) hr
  exact ⟨heases.trans heases', hb⟩

/-- A step whose result does not matter. -/
theorem Eased.andThen {m : Txn α} {f : α → Txn β} (hm : Eased t node (fun _ => True) m)
    (hf : ∀ a, Eased t node Q (f a)) : Eased t node Q (m >>= f) :=
  hm.bind fun a _ => hf a

theorem Eased.read {f : Db → Txn β} (h : ∀ db, On t node db → Eased t node Q (f db)) :
    Eased t node Q (get >>= f) := by
  intro db b db' hon hrun
  rw [bind_get] at hrun
  exact h db hon db b db' hon hrun

theorem Eased.pure {a : α} (h : P a) : Eased t node P (pure a) := by
  intro db _ _ _ hrun
  obtain ⟨rfl, rfl⟩ := pure_ok.mp hrun
  exact ⟨.refl db, h⟩

theorem Eased.of_keeps {m : Txn α} (h : Keeps Db.stock m) : Eased t node (fun _ => True) m :=
  fun _ _ _ _ hrun => ⟨.of_stock (h.of_ok hrun), trivial⟩

theorem Eased.ite {c : Prop} [Decidable c] {m m' : Txn α} (h : c → Eased t node P m)
    (h' : ¬ c → Eased t node P m') : Eased t node P (if c then m else m') := by
  split_ifs with hc
  · exact h hc
  · exact h' hc

/-- Writing the task row on its node. -/
theorem Eased.save (hnode : task.kubernetesNodeName = node) :
    Eased t node (fun _ => True) (saveTask t task) := by
  intro db _ _ hon h
  obtain ⟨_, hrow, heq⟩ := map_eq_some_iff.mp hon
  rw [saveTask_ok.mp h]
  refine ⟨⟨⟨rfl, rfl⟩, rfl, rfl, ?_, (Eases.refl db).releases⟩, trivial⟩
  exact map_set_eq hrow (hnode.trans heq.symm)

theorem Eased.transition {target : TaskStatus} {eventType : String}
    (hnode : task.kubernetesNodeName = node) :
    Eased t node (fun task' : Task => task'.kubernetesNodeName = node)
      (transition t task target now eventType) := by
  intro _ _ _ _ h
  obtain ⟨_, rfl, _, _, _, rfl⟩ := transition_ok h
  exact ⟨.of_stock rfl, hnode⟩

end Carrying

/-! ## Releasing -/

section Releasing

variable {now : Time} {t x : Uuid} {node : Option String} {task : Task}

theorem releaseWorker_eased : Eased t node (fun _ => True) (releaseWorker r) := by
  intro db _ _ _ h
  rw [releaseWorker, bind_get] at h
  cases hw : db.workers.get? r.workerId with
  | none =>
    simp only [hw] at h
    obtain ⟨_, rfl⟩ := pure_ok.mp h
    exact ⟨.refl db, trivial⟩
  | some =>
    simp only [hw, bind_ok, raiseIf_ok, modify_ok] at h
    obtain ⟨_, _, ⟨_, rfl⟩, rfl⟩ := h
    exact ⟨⟨⟨rfl, map_set_eq hw rfl⟩, rfl, rfl, rfl, (Eases.refl _).releases⟩, trivial⟩

theorem releaseWorkerCapacity_eased (w : Option WorkerId) :
    Eased t node (fun _ => True) (releaseWorkerCapacity w task) := by
  intro db _ _ _ h
  cases w with
  | none =>
    obtain ⟨_, rfl⟩ := pure_ok.mp h
    exact ⟨.refl db, trivial⟩
  | some =>
    rw [releaseWorkerCapacity, modify_ok] at h
    rw [h]
    exact ⟨⟨⟨rfl, map_modify_eq (fun _ => rfl)⟩, rfl, rfl, rfl,
      (Eases.refl db).releases⟩, trivial⟩

theorem releaseRows_eased : Eased t node (fun _ => True) (releaseRows now x r reason) := by
  intro _ _ _ _ h
  rw [releaseRows, modify_ok] at h
  rw [h]
  refine ⟨⟨⟨rfl, rfl⟩, rfl, rfl, rfl, fun y old => if y = x then { r with
    releasedAt := some now
    releaseReason := some reason
    version := r.version + 1 } else old, rfl, ?_⟩, trivial⟩
  intro y _ hact
  dsimp only at hact ⊢
  by_cases hy : y = x
  · rw [if_pos hy] at hact
    cases hact
  · rw [if_neg hy]

theorem settleLedger_eased {execution : TaskExecution} {startedAt : Option Time} :
    Eased t node (fun _ => True) (settleLedger now t x r execution startedAt) := by
  intro _ _ _ _ h
  obtain ⟨_, rfl⟩ := settleLedger_ok h
  exact ⟨.of_stock rfl, trivial⟩

theorem releaseQuota_eased {settled : ℚ} {date : Option Date} :
    Eased t node (fun _ => True) (releaseQuota now r.projectId r.demand 0 settled date) := by
  intro _ _ _ _ h
  obtain ⟨_, _, _, hdb, _⟩ := releaseQuota_moves r.demands h
  rw [hdb]
  exact ⟨.of_stock rfl, trivial⟩

/-- Releasing a reservation carries the task along. -/
theorem releaseAndSettle_eased (hnode : task.kubernetesNodeName = node) :
    Eased t node (fun result : Bool × Task => result.2.kubernetesNodeName = node)
      (releaseAndSettle now t task x final reason) := by
  refine .read fun db _ => ?_
  split
  · exact .pure hnode
  · exact .andThen (.of_keeps getLocked_keeps) fun _ => .andThen releaseWorker_eased fun _ =>
      .andThen releaseRows_eased fun _ => .andThen (.of_keeps (.of_reads (.expect _ _))) fun _ =>
      .andThen (.of_keeps (.modify fun _ => rfl)) fun _ => .andThen settleLedger_eased fun _ =>
      .andThen releaseQuota_eased fun _ => .pure hnode

theorem releaseExecution_eased {w : Option WorkerId} (hnode : task.kubernetesNodeName = node) :
    Eased t node (fun task' : Task => task'.kubernetesNodeName = node)
      (releaseExecution now t task w x final reason) :=
  .bind (releaseAndSettle_eased hnode) fun _ hkept => .ite (fun _ => .pure hkept) fun _ =>
    .andThen (releaseWorkerCapacity_eased w) fun _ => .pure hkept

end Releasing

/-! ## A reported result -/

section Reports

variable {now : Time} {t : Uuid} {node : Option String} {task : Task} {c : Caller}

theorem recordExecutionError_keeps (x : Uuid) (category : Option ErrorCategory)
    (code : Option ErrorCode) (message : Option String) :
    Keeps Db.stock (recordExecutionError x category code message) :=
  .modify fun _ => rfl

theorem completePreemptionPlans_keeps (t : Uuid) : Keeps Db.stock (completePreemptionPlans t now) :=
  .modify fun _ => rfl

theorem Task.reported_node (task : Task) (now : Time) (result : Report) :
    (task.reported now result).kubernetesNodeName = task.kubernetesNodeName := by
  rw [Task.reported, Task.measured]
  split <;> rfl

theorem retryAdmission_keeps (result : Report) : Keeps Db.stock (retryAdmission now task result) :=
  .ite admitRetry_keeps (.ite admitRetry_keeps (.pure _))

/-- The retry of a report carries the task along. -/
theorem scheduleRetry_eased {result : Report} (hnode : task.kubernetesNodeName = node) :
    Eased t node (fun retried : Bool × Task => retried.2.kubernetesNodeName = node)
      (scheduleRetry now t task result) :=
  .andThen (.of_keeps (retryAdmission_keeps result)) fun _ => .ite
    (fun _ => .bind (.transition hnode) fun _ hkept =>
      .andThen (.of_keeps (.of_reads (retryDelaySeconds_reads _ _ _ _))) fun _ => .pure hkept)
    fun _ => .ite (fun _ => .bind (.transition hnode) fun _ hkept => .pure hkept)
      fun _ => .pure hnode

theorem settleReport_eased {report : Report} (hnode : task.kubernetesNodeName = node) :
    Eased c.taskId node (fun _ => True) (settleReport now c task report) := by
  refine .bind (.transition hnode) fun moved hmoved => ?_
  refine .bind (releaseExecution_eased ((Task.reported_node _ _ _).trans hmoved))
    fun kept hkept => ?_
  refine .andThen (.of_keeps (recordExecutionError_keeps _ _ _ _)) fun _ => ?_
  have hretry : Eased c.taskId node (fun retried : Bool × Task =>
      retried.2.kubernetesNodeName = node)
      (scheduleRetry now c.taskId kept (task.outcome report)) := scheduleRetry_eased hkept
  split_ifs
  · exact .andThen (.of_keeps (completePreemptionPlans_keeps _)) fun _ =>
      .bind hretry fun _ hrtd => .andThen (.save hrtd) fun _ => .pure trivial
  · exact .bind hretry fun _ hrtd => .andThen (.save hrtd) fun _ => .pure trivial

theorem finishFence_keeps : Keeps Db.stock (finishFence now c task) := by
  rw [finishFence]
  split
  · exact .pure _
  · exact getLocked_keeps.bind fun _ => .bind .get fun _ => .pure _

/-- **`finish_execution`** makes room. -/
theorem finishExecution_eases {db db' : Db} {report : Report} {result : ExecutionResult}
    (h : finishExecution now c report db = .ok result db') : Eases db db' := by
  rcases finishExecution_ok h with ⟨_, rfl⟩ | ⟨task, _, mid, _, _, hfence, _, hend⟩
  · exact .refl _
  refine (Eases.of_stock (finishFence_keeps.of_ok hfence)).trans ?_
  rcases hend with ⟨_, _, rfl⟩ | ⟨_, hfncd, hstt⟩
  · exact .refl _
  · exact (settleReport_eased rfl mid result db'
      (map_eq_some_iff.mpr ⟨task, hfncd.row, rfl⟩) hstt).1

end Reports

/-! ## An expired lease -/

section Recovery

variable {now : Time} {db db' : Db} {t : Uuid} {node : Option String} {task : Task}

theorem recordRecovery_keeps (x : Option Uuid) (category : ErrorCategory)
    (code : Option ErrorCode) (message : String) :
    Keeps Db.stock (recordRecovery x category code message) := by
  cases x with
  | none => exact .pure _
  | some => exact recordExecutionError_keeps _ _ _ _

theorem releaseExpired_eased (hnode : task.kubernetesNodeName = node) :
    Eased t node (fun task' : Task => task'.kubernetesNodeName = node)
      (releaseExpired now t task final) := by
  rw [releaseExpired]
  split
  · exact .andThen (releaseWorkerCapacity_eased _) fun _ => .pure hnode
  · exact releaseExecution_eased hnode

theorem requeueRecovered_eased (hnode : task.kubernetesNodeName = node) :
    Eased t node (fun _ => True) (requeueRecovered now t task grace) :=
  .bind (.transition hnode) fun _ hkept => .save hkept

theorem recoverCancelled_eased (hnode : task.kubernetesNodeName = node) :
    Eased t node (fun _ => True) (recoverCancelled now t task x) :=
  .bind (.transition hnode) fun _ hkept => .andThen (.save hkept) fun _ =>
    .andThen (.of_keeps (recordRecovery_keeps _ _ _ _)) fun _ => .pure trivial

theorem recoverEnded_eased {target : TaskStatus} {eventType message : String}
    {category : ErrorCategory} {code : Option ErrorCode} {retries : Task → Prop}
    [DecidablePred retries] {next : Task → Task} (hnode : task.kubernetesNodeName = node)
    (hnext : ∀ task, (next task).kubernetesNodeName = task.kubernetesNodeName) :
    Eased t node (fun _ => True) (recoverEnded now t task x target eventType category code
      message retries next grace) :=
  .bind (.transition hnode) fun _ hkept =>
    .andThen (.of_keeps (recordRecovery_keeps _ _ _ _)) fun _ => .ite
      (fun _ => .andThen (.of_keeps admitRetry_keeps) fun _ => .ite
        (fun _ => .andThen (requeueRecovered_eased ((hnext _).trans hkept)) fun _ =>
          .pure trivial)
        fun _ => .andThen (.save hkept) fun _ => .pure trivial)
      fun _ => .andThen (.save hkept) fun _ => .pure trivial

theorem recoverTask_eases (h : recoverTask now attempts grace t db = .ok recovered db') :
    Eases db db' := by
  cases hrow : db.tasks.get? t with
  | none =>
    rw [recoverTask, bind_get] at h
    simp only [hrow] at h
    exact .of_pure h
  | some task =>
    rw [recoverTask_eq hrow] at h
    have hon : On t task.kubernetesNodeName db := map_eq_some_iff.mpr ⟨task, hrow, rfl⟩
    have hlaps : { task with leaseExpiresAt := none }.kubernetesNodeName =
      task.kubernetesNodeName := rfl
    refine (Eased.bind (Q := fun _ => True) (releaseExpired_eased hlaps)
      (fun released hkept => ?_) db recovered db' hon h).1
    refine .andThen (.ite (fun _ => .of_keeps (completePreemptionPlans_keeps _))
      fun _ => .pure trivial) fun _ => .ite (fun _ => recoverCancelled_eased hkept) fun _ =>
        .ite (fun _ => ?_) fun _ => ?_
    · rw [recoverPreempted_eq]
      exact recoverEnded_eased hkept fun _ => rfl
    · rw [recoverFailed_eq]
      exact recoverEnded_eased hkept fun _ => rfl

theorem recoverTasks_eases : ∀ (ids : List Uuid) {recovered : List Uuid} {db : Db},
      recoverTasks now attempts grace ids db = .ok recovered db' → Eases db db' := by
  intro ids
  induction ids with
  | nil =>
    intro _ _ h
    exact .of_pure h
  | cons _ _ ih =>
    intro _ _ h
    simp only [recoverTasks, bind_ok, pure_ok] at h
    obtain ⟨_, _, hfirst, _, _, hr, _, rfl⟩ := h
    exact (recoverTask_eases hfirst).trans (ih hr)

/-- **`recover_expired`** makes room. -/
theorem recoverExpired_eases {locked : List Uuid} {limit : ℕ} {recovered : List Uuid}
    (h : recoverExpired now locked limit attempts grace db = .ok recovered db') :
    Eases db db' := by
  rw [recoverExpired, bind_get] at h
  obtain ⟨_, _, hlock, hr⟩ := bind_ok.mp h
  exact (Eases.of_stock ((lockProjects_keeps _).of_ok hlock)).trans (recoverTasks_eases _ hr)

end Recovery

end MiniAiCloud
