import MiniAiCloud.PlacementDeeds

/-! # Every run of the control plane is a sequence of deeds

    The refinement theorem over all calls (`Op.tells`), and from it the rule the
    results about records are proved with: what the deeds keep holds in every
    reachable state (`reach_records`). -/

namespace MiniAiCloud

open Transaction Reachability Cluster Chronicle

/-! ## The calls no record depends on -/

section Registry

/-- The call leaves the records alone. -/
abbrev Unrecorded {α : Type} (m : Txn α) : Prop := Keeps Db.chronicle m

theorem addDependencyLocked_unrecorded (g : Uuid) (combined : List (Uuid × Uuid))
    (d : DependencySpec) : Unrecorded (addDependencyLocked g combined d) := by
  refine .bind .get fun db => ?_
  cases (db.taskDependencies.get? d.key).filter (fun edge => edge.jobGroupId = some g) with
  | some => exact .check (.pure _)
  | none => exact .check (.check (.check (.bind (.modify fun _ => rfl) fun _ => .pure _)))

theorem addEachDependency_unrecorded (g : Uuid) (dependencies : List DependencySpec)
    (combined : List (Uuid × Uuid)) :
    Unrecorded (addEachDependency g combined dependencies) := by
  induction dependencies generalizing combined with
  | nil => exact .pure _
  | cons d _ ih => exact .bind (addDependencyLocked_unrecorded g combined d) ih

theorem addDependenciesLocked_unrecorded (g p : Uuid) (dependencies : List DependencySpec) :
    Unrecorded (addDependenciesLocked g p dependencies) :=
  .bind .get fun _ => .check (.check (.check (.check (addEachDependency_unrecorded _ _ _))))

theorem createGroup_unrecorded (now : Time) (g p : Uuid) (name policy : String)
    (dependencies : List DependencySpec) :
    Unrecorded (createGroup now g p name policy dependencies) :=
  .bind (.of_reads (lockActiveProject_reads p)) fun _ => .check (.check (.bind .get fun _ =>
    .check (.bind (.modify fun _ => rfl) fun _ =>
      .ite (addDependenciesLocked_unrecorded _ _ _) (.pure _))))

theorem addDependency_unrecorded (p g : Uuid) (d : DependencySpec) :
    Unrecorded (addDependency p g d) :=
  .bind (.of_reads (lockActiveProject_reads p)) fun _ => .bind .get fun _ =>
    .bind (.of_reads (.expect _ _)) fun _ => addDependenciesLocked_unrecorded _ _ _

theorem register_unrecorded (now : Time) (w : WorkerId) (r : WorkerRegistration)
    (fresh : Uuid) : Unrecorded (register now w r fresh) := by
  refine .bind .get fun db => ?_
  cases db.workers.get? w with
  | none | some worker => exact .modify fun _ => rfl

theorem updateWorker_unrecorded (w : WorkerId) (session : Option Uuid)
    (f : Worker → Worker) : Unrecorded (updateWorker w session f) := by
  refine .bind .get fun db => ?_
  cases db.workers.get? w with
  | none => exact .pure _
  | some => exact .ite (.pure _) (.bind (.modify fun _ => rfl) fun _ => .pure _)

theorem markStaleOffline_unrecorded (now : Time) (timeout : ℚ) (limit : Option ℤ)
    (locked : List WorkerId) : Unrecorded (markStaleOffline now timeout limit locked) :=
  .check (.bind .get fun _ => .bind (.modify fun _ => rfl) fun _ => .pure _)

theorem replaceGpuInventory_unrecorded {now : Time} {w : WorkerId} {session : Uuid}
    {items : List InventoryItem} {result : List GpuDevice} {db db' : Db}
    (h : replaceGpuInventory now w session items db = .ok result db') :
    db'.chronicle = db.chronicle := by
  rw [replaceGpuInventory, bind_get] at h
  simp only [bind_ok, expect_ok, modify_ok, get_ok, raiseIf_ok, pure_ok] at h
  obtain ⟨_, _, ⟨_, h₁⟩, _, _, hpub, _, _, h₃, _, _, ⟨_, h₄⟩, _, _, ⟨_, h₅⟩, _, rfl⟩ := h
  rw [h₁] at hpub
  obtain ⟨_, h₂⟩ := publishDevices_rows hpub
  rw [h₅, h₄, h₃, h₂]
  rfl

end Registry

/-! ## Taking over running Jobs -/

section Transfers

variable {T : Terms} {db db' : Db} {w : WorkerId} {session : Uuid}

theorem transferExecution_tells {rows : Transfer} {lease : ℚ}
    {result : RecoverableRuntimeExecution}
    (htask : db.tasks.get? rows.taskId = some rows.task)
    (hexec : db.executions.get? rows.executionId = some rows.execution)
    (hres : db.reservations.get? rows.executionId = some rows.reservation)
    (h : transferExecution T.now session lease T.grace rows db = .ok result db') :
    Tells T db db' := by
  simp only [transferExecution, bind_ok, modify_ok, pure_ok] at h
  obtain ⟨_, mid, hmid, _, _, hlease, _, _, hsave, _, rfl⟩ := h
  have hquiet : mid.chronicle = db.chronicle := by
    rw [hmid]
    show Chronicle.mk _ _ _ ((db.executions.set _ _).map _) ((db.reservations.set _ _).map _)
      _ _ = _
    rw [Table.map_set_eq hexec, Table.map_set_eq hres]
    · rfl
    · rfl
    · rfl
  have hrow : mid.tasks.get? rows.taskId = some rows.task := by
    rw [hmid]
    exact htask
  exact (Tells.quiet hquiet).trans ((tellsOf_renew hrow hlease).saved hrow hsave)

theorem transferObserved_tells {lease : ℚ} {observations : List JobObservation}
    {results : List RecoverableRuntimeExecution}
    (h : transferObserved T.now w session lease T.grace observations db = .ok results db') :
    Tells T db db' := by
  induction observations generalizing db results with
  | nil => exact .of_pure h
  | cons o _ ih =>
    rw [transferObserved, bind_get] at h
    cases hrows : transferable db w session o with
    | none =>
      simp only [hrows] at h
      exact ih h
    | some =>
      simp only [hrows, bind_ok, pure_ok] at h
      obtain ⟨_, _, hfirst, _, _, hoths, _, rfl⟩ := h
      obtain ⟨htask, hexec, hres, _⟩ := transferable_rows hrows
      exact (transferExecution_tells htask hexec hres hfirst).trans (ih hoths)

theorem transferRecoverableKubernetesExecutions_tells {lease : ℚ}
    {observations : List JobObservation} {results : List RecoverableRuntimeExecution}
    (h : transferRecoverableKubernetesExecutions T.now w session lease T.grace observations db
      = .ok results db') : Tells T db db' := by
  rw [transferRecoverableKubernetesExecutions, bind_get] at h
  split_ifs at h with hcur
  · exact transferObserved_tells h
  · exact .of_pure h

end Transfers

/-! ## Every call -/

/-- The recovery budget a call is made with. -/
def Op.recoveryBudget : Op → Option ℤ
  | .recoverExpired _ _ attempts _ => some attempts
  | _ => none

/-- The cleanup grace a call computes a lease with. -/
def Op.cleanupGrace : Op → Option ℚ
  | .transferExecutions _ _ _ grace _ => some grace
  | .markPulling _ _ grace => some grace
  | .markStarting _ _ grace => some grace
  | .markRunning _ _ grace => some grace
  | .recordRuntimeHandle _ _ grace => some grace
  | .renewLease _ _ grace => some grace
  | .preserveKubernetesHandoffLease _ grace => some grace
  | _ => none

/-- The call picks a placement up. -/
def Op.picksUp : Op → Bool
  | .takeGlobalAssignment _ _ _ _ => true
  | _ => false

/-- The call is made on these terms. -/
structure Call.Agrees (i : Call) (T : Terms) : Prop where
  now : i.now = T.now
  attempts : ∀ m ∈ i.op.recoveryBudget, m = T.attempts
  grace : ∀ g ∈ i.op.cleanupGrace, g = T.grace
  pickup : i.op.picksUp = T.pickup

/-- The terms a call is made on. -/
def Call.terms (i : Call) : Terms where
  now := i.now
  attempts := i.op.recoveryBudget.getD 0
  grace := i.op.cleanupGrace.getD 0
  pickup := i.op.picksUp

theorem Call.agrees_terms (i : Call) : i.Agrees i.terms := by
  refine ⟨rfl, ?_, ?_, rfl⟩
  · intro m hm
    show m = i.op.recoveryBudget.getD 0
    rw [Option.mem_def.mp hm]
    rfl
  · intro g hg
    show g = i.op.cleanupGrace.getD 0
    rw [Option.mem_def.mp hg]
    rfl

/-- **EVERY CALL** that commits is a sequence of deeds on its terms, given that a
    report is final. -/
theorem Op.tells {T : Terms} {op : Op} {db db' : Db} {u : Unit}
    (hlife : Lifecycle db.cluster) (hfin : op.ReportsFinal)
    (hagr : Call.Agrees ⟨T.now, op⟩ T) (h : op.run T.now db = .ok u db') :
    Tells T db db' := by
  obtain ⟨_, hatt, hgrace, hpick⟩ := hagr
  cases op with
  | register => exact .quiet ((register_unrecorded _ _ _ _).of_ok h)
  | heartbeat w session | drain w reason | setStatus w status session =>
    obtain ⟨_, hcall⟩ := void_ok h
    exact .quiet ((updateWorker_unrecorded _ _ _).of_ok hcall)
  | markStaleOffline =>
    obtain ⟨_, hcall⟩ := void_ok h
    exact .quiet ((markStaleOffline_unrecorded _ _ _ _).of_ok hcall)
  | replaceGpuInventory =>
    obtain ⟨_, hcall⟩ := void_ok h
    exact .quiet (replaceGpuInventory_unrecorded hcall)
  | transferExecutions _ _ _ grace =>
    obtain ⟨_, hcall⟩ := void_ok h
    rw [hgrace grace rfl] at hcall
    exact transferRecoverableKubernetesExecutions_tells hcall
  | initializeQuota p => exact void_elim h fun _ => initializeQuota_tells
  | replaceQuota p limits => exact void_elim h fun _ => replaceQuota_tells
  | replaceServiceCommitment =>
    exact void_elim h fun _ => replaceServiceCommitment_tells
  | createQueued t s => exact void_elim h fun _ => createQueued_tells
  | createGroup =>
    exact .quiet ((createGroup_unrecorded _ _ _ _ _ _).of_ok h)
  | addDependency => exact .quiet ((addDependency_unrecorded _ _ _).of_ok h)
  | cancel t => exact void_elim h fun _ => cancel_tells hlife
  | resolveDependencyReadiness =>
    exact void_elim h fun _ => resolveDependencyReadiness_tells
  | claim t w x lease session prices locked => exact void_elim h fun _ => claim_tells
  | place t w x request => exact void_elim h fun _ => place_tells
  | markUnschedulable t reason => exact void_elim h fun _ => markUnschedulable_tells
  | requestPreemption =>
    exact void_elim h fun _ => requestPreemption_tells
  | takeGlobalAssignment =>
    exact void_elim h fun _ => takeGlobalAssignment_tells hpick.symm
  | markPulling c lease grace | markStarting c lease grace | markRunning c lease grace =>
    obtain ⟨_, hcall⟩ := void_ok h
    rw [hgrace grace rfl] at hcall
    exact markProgress_tells (by decide) (by decide) hcall
  | recordRuntimeHandle c o grace =>
    obtain ⟨_, hcall⟩ := void_ok h
    rw [hgrace grace rfl] at hcall
    exact recordRuntimeHandle_tells hcall
  | advanceRuntimeLogCursor =>
    exact void_elim h fun _ => advanceRuntimeLogCursor_tells
  | appendLog t x stream content w session => exact void_elim h fun _ => appendLog_tells
  | renewLease _ _ grace =>
    obtain ⟨_, hcall⟩ := void_ok h
    rw [hgrace grace rfl] at hcall
    exact renewLease_tells hcall
  | preserveKubernetesHandoffLease c grace =>
    exact void_elim h fun _ => preserveKubernetesHandoffLease_tells (hgrace grace rfl).symm
  | finishExecution =>
    obtain ⟨_, hcall⟩ := void_ok h
    exact (finishExecution_tells hlife hcall).resolve_right (fun hmis => hmis.1 (hfin _ rfl))
  | releaseDueRetries locked limit => exact void_elim h fun _ => releaseDueRetries_tells hlife
  | recoverExpired _ _ attempts =>
    obtain ⟨_, hcall⟩ := void_ok h
    rw [hatt attempts rfl] at hcall
    exact recoverExpired_tells hlife hcall

/-- A step of the control plane: a call that raises leaves nothing behind. -/
theorem step_tells {T : Terms} {i : Call} {db : Db} (hlife : Lifecycle db.cluster)
    (hfin : i.op.ReportsFinal) (hagr : i.Agrees T) :
    Tells T db (controlPlane.step i db) := by
  obtain ⟨now, op⟩ := i
  obtain rfl : now = T.now := hagr.now
  show Tells T db (commit (op.run T.now) db)
  rw [commit]
  cases hrun : op.run T.now db with
  | ok => exact Op.tells hlife hfin hagr hrun
  | error => exact .refl db

/-- A step without any promise: a misreport at most follows the deeds. -/
theorem step_told {T : Terms} {i : Call} {db : Db} (hlife : Lifecycle db.cluster)
    (hagr : i.Agrees T) :
    Tells T db (controlPlane.step i db) ∨ ∃ mid t e e' event,
      Tells T db mid ∧ e'.status ∈ i.op.reported
        ∧ Misreports T t e e' event mid.chronicle (controlPlane.step i db).chronicle := by
  by_cases hfin : i.op.ReportsFinal
  · exact .inl (step_tells hlife hfin hagr)
  obtain ⟨now, op⟩ := i
  obtain rfl : now = T.now := hagr.now
  show Tells _ db (commit (op.run T.now) db) ∨ _
  cases hrun : op.run T.now db with
  | error =>
    left
    rw [commit, hrun]
    exact .refl db
  | ok u db' =>
    have hstep : controlPlane.step ⟨T.now, op⟩ db = db' := by
      show commit (op.run T.now) db = db'
      rw [commit, hrun]
    rw [hstep, commit, hrun]
    cases op with
    | finishExecution =>
      obtain ⟨_, hcall⟩ := void_ok hrun
      rcases finishExecution_tells hlife hcall with
        htells | ⟨_, mid, t, e, e', event, htells, hst, hmis⟩
      · exact .inl htells
      · exact .inr ⟨mid, t, e, e', event, htells, congrArg some hst.symm, hmis⟩
    | _ => exact absurd (fun s hs => by cases hs) hfin

/-! ## Runs -/

/-- The records of a database that knows only its projects. -/
def Chronicle.empty : Chronicle := ⟨.empty, [], [], .empty, .empty, .empty, .empty⟩

theorem deeds_keep {T : Terms} {I : Chronicle → Prop} {c c' : Chronicle}
    (h : Deeds T c c') (hdeed : ∀ c c', I c → Deed T c c' → I c') (hI : I c) : I c' := by
  induction h with
  | refl => exact hI
  | tail _ hlast ih => exact hdeed _ _ ih hlast

/-- What every deed keeps, every call keeps. -/
theorem Tells.keeps {T : Terms} {I : Chronicle → Prop} {db db' : Db} (h : Tells T db db')
    (hdeed : ∀ c c', I c → Deed T c c' → I c') (hI : I db.chronicle) : I db'.chronicle :=
  deeds_keep h hdeed hI

/-- **RUNS**: what holds of the empty records and survives every deed holds in every
    reachable state. -/
theorem reach_records {I : Chronicle → Prop} {ok : Call → Db → Prop} (terms : Call → Terms)
    (hfin : ∀ i db, ok i db → i.op.ReportsFinal)
    (hagr : ∀ i db, ok i db → i.Agrees (terms i)) (hinit : I Chronicle.empty)
    (hdeed : ∀ i c c', I c → Deed (terms i) c c' → I c') {db : Db}
    (h : Reach controlPlane ok db) : Lifecycle db.cluster ∧ I db.chronicle := by
  refine h.invariant (I := fun s => Lifecycle s.cluster ∧ I s.chronicle) ?_ ?_
  · rintro _ ⟨_, rfl⟩
    exact ⟨Lifecycle.empty, hinit⟩
  · intro i s hs hi
    have hfol : Follows anyRules s (controlPlane.step i s) := step_follows hs.1 (anyRules_keeps i s)
    exact ⟨hfol.lifecycle hs.1, (step_tells hs.1 (hfin i s hi) (hagr i s hi)).keeps (hdeed i) hs.2⟩

end MiniAiCloud
