import MiniAiCloud.QuotaProofs

/-! # Hard limits over whole histories

    A project starts without quota rows.  Whatever quota calls are then made,
    for this project and for others, every limit of the project bounds its
    usage in every state reached.

    A call has two parts: everything up to its last check, which moves at most
    the daily fields and creates at most empty rows (`Quiet`), and the write.
    Only the write needs an argument about the limits. -/

namespace MiniAiCloud

open Transaction Reachability Table

variable {p : Uuid} {now : Time} {s : ProjectQuotaState} {db db' : Db} {quota : ProjectQuota}
  {d : ResourceDemand} {e : Err}

/-! ## The invariant of one project -/

/-- Every limit of the quota row bounds its usage. -/
structure WithinLimits (quota : ProjectQuota) (s : ProjectQuotaState) : Prop
    extends Capped quota s where
  queued : Within quota.maxQueuedTasks s.queuedTasks
  services : Within quota.maxServices s.serviceCount
  replicas : Within quota.maxServiceReplicas s.serviceReplicas

/-- The project has no quota rows yet, or sound ones within its limits. -/
def Bounded (db : Db) (p : Uuid) : Prop :=
  db.quotas.get? p = none ∧ db.quotaStates.get? p = none
    ∨ ∃ quota s, Rows db p quota s ∧ WithinLimits quota s

theorem Bounded.withinLimits (h : Bounded db p) (hr : Rows db p quota s) :
    WithinLimits quota s := by
  obtain ⟨hq, hs, -⟩ := hr
  rcases h with ⟨hn, -⟩ | ⟨quota', s', ⟨hq', hs', -⟩, hw⟩
  · rw [hn] at hq
    cases hq
  · rw [hq] at hq'
    rw [hs] at hs'
    cases hq'
    cases hs'
    exact hw

/-- What no daily roll-over changes: the row with its daily fields masked. -/
def ProjectQuotaState.counters (s : ProjectQuotaState) : ProjectQuotaState :=
  { s with
    accountingDate := 0
    dailyReservedCost := 0
    dailySettledCost := 0
    version := 0
    updatedAt := 0 }

/-- The usage of a project; without a row it uses nothing. -/
def usage (db : Db) (p : Uuid) : ProjectQuotaState :=
  ((db.quotaStates.get? p).getD { accountingDate := 0, updatedAt := 0 }).counters

theorem rollDailyState_counters (s : ProjectQuotaState) (now : Time) :
    (rollDailyState s now).counters = s.counters := by
  unfold rollDailyState
  by_cases hd : s.accountingDate ≠ now.date
  · rw [if_pos hd]
    rfl
  · rw [if_neg hd]

theorem withinLimits_roll (h : WithinLimits quota s) (now : Time) :
    WithinLimits quota (rollDailyState s now) := by
  unfold rollDailyState
  split_ifs with hd
  · exact ⟨⟨h.running, h.cpu, h.memory, h.gpus, h.nvidia, h.ascend⟩, h.queued,
      h.services, h.replicas⟩
  · exact h

/-- Default limits bound the usage of nothing. -/
theorem withinLimits_default (t t' : Time) (d : Date) :
    WithinLimits { updatedAt := t } { accountingDate := d, updatedAt := t' } := by
  have hnull : ∀ n, Within none n := fun n bound hb => nomatch hb
  refine ⟨⟨hnull _, hnull _, hnull _, hnull _, hnull _, ?_⟩, hnull _, hnull _, hnull _⟩
  intro _ hb
  cases hb
  exact le_refl 0

theorem default_sound (t : Time) (d : Date) :
    ({ accountingDate := d, updatedAt := t } : ProjectQuotaState).Sound := by
  constructor <;> simp

/-- Writing a row within the limits keeps every project bounded. -/
theorem Bounded.write {r : ProjectQuotaState} (hrow : Rows db p quota s) (hr : r.Sound)
    (hw : WithinLimits quota s → WithinLimits quota r) {p' : Uuid} (h : Bounded db p') :
    Bounded (db.withQuotaState p r) p' := by
  by_cases hp : p' = p
  · subst hp
    exact .inr ⟨quota, r, rows_withQuotaState hrow hr, hw (h.withinLimits hrow)⟩
  · have hget : (db.quotaStates.set p r).get? p' = db.quotaStates.get? p' :=
      get?_set_ne _ _ hp
    rcases h with ⟨hq, hs⟩ | ⟨quota', s', ⟨hq', hs', hsnd⟩, hw'⟩
    · exact .inl ⟨hq, hget.trans hs⟩
    · exact .inr ⟨quota', s', ⟨hq', hget.trans hs', hsnd⟩, hw'⟩

/-! ## The quiet part of a call -/

/-- No project leaves its limits and no usage changes. -/
structure Quiet (db db' : Db) : Prop where
  bounded : ∀ p, Bounded db p → Bounded db' p
  usage : ∀ p, usage db' p = usage db p

theorem Quiet.refl (db : Db) : Quiet db db := ⟨fun _ h => h, fun _ => rfl⟩

theorem Quiet.trans {a b c : Db} (h : Quiet a b) (h' : Quiet b c) : Quiet a c :=
  ⟨fun p hp => h'.bounded p (h.bounded p hp),
    fun p => (h'.usage p).trans (h.usage p)⟩

theorem usage_write_same {r : ProjectQuotaState} (hs : db.quotaStates.get? p = some s)
    (hc : r.counters = s.counters) (p' : Uuid) :
    usage (db.withQuotaState p r) p' = usage db p' := by
  show ((((db.quotaStates.set p r).get? p').getD _).counters) = _
  by_cases hp : p' = p
  · subst hp
    rw [get?_set_self hs]
    show r.counters = usage db p'
    unfold usage
    rw [hs]
    exact hc
  · rw [get?_set_ne _ _ hp]
    rfl

theorem getLocked_quiet (now : Time) (p : Uuid) : Moves Quiet (getLocked now p) := by
  refine Moves.of_result ?_ ?_
  · intro db _ _ h
    obtain ⟨quota, s, hq, hs, hsnd, -, rfl⟩ := getLocked_ok.mp h
    have hrow : Rows db p quota s := ⟨hq, hs, hsnd⟩
    exact ⟨fun _ => Bounded.write hrow (rollDailyState_sound hsnd now)
        (fun hw => withinLimits_roll hw now),
      usage_write_same hs (rollDailyState_counters s now)⟩
  · intro db _ _ h
    rw [getLocked_error h]
    exact .refl db

/-- Creating the missing rows of a project is quiet: they are empty. -/
theorem insert_quiet (db : Db) (p : Uuid) (now : Time) :
    Quiet db { db with
      quotas := db.quotas.insert p ((db.quotas.get? p).getD { updatedAt := now })
      quotaStates := db.quotaStates.insert p ((db.quotaStates.get? p).getD
          { accountingDate := now.date, updatedAt := now }) } := by
  constructor
  · intro p' hb
    by_cases hp : p' = p
    · subst hp
      rcases hb with ⟨hq, hs⟩ | ⟨quota, s, ⟨hq, hs, hsnd⟩, hw⟩
      · refine .inr ⟨_, _, rows_of_insert rfl rfl ?_, ?_⟩
        · rw [hs]
          exact default_sound now now.date
        · rw [hq, hs]
          exact withinLimits_default now now now.date
      · exact .inr ⟨quota, s, ⟨get?_insert_of_some hq _,
          get?_insert_of_some hs _, hsnd⟩, hw⟩
    · rcases hb with ⟨hq, hs⟩ | ⟨quota, s, ⟨hq, hs, hsnd⟩, hw⟩
      · exact .inl ⟨(get?_insert_ne _ _ hp).trans hq,
          (get?_insert_ne _ _ hp).trans hs⟩
      · exact .inr ⟨quota, s, ⟨(get?_insert_ne _ _ hp).trans hq,
          (get?_insert_ne _ _ hp).trans hs, hsnd⟩, hw⟩
  · intro p'
    unfold usage
    by_cases hp : p' = p
    · subst hp
      cases hs : db.quotaStates.get? p' with
      | none =>
        show ((((db.quotaStates.insert p' _).get? p').getD _).counters) = _
        rw [get?_insert_self hs]
        rfl
      | some =>
        show ((((db.quotaStates.insert p' _).get? p').getD _).counters) = _
        rw [get?_insert_of_some hs]
    · show ((((db.quotaStates.insert p _).get? p').getD _).counters) = _
      rw [get?_insert_ne _ _ hp]

theorem initializeQuota_quiet (now : Time) (p : Uuid) :
    Moves Quiet (initializeQuota now p) := by
  refine Moves.of_result ?_ ?_
  · intro db _ _ h
    obtain ⟨-, hq, hs, -, rfl⟩ := initializeQuota_ok.mp h
    rw [hq, hs]
    exact insert_quiet db p now
  · intro _ _ _ h
    unfold initializeQuota at h
    simp only [bind_error, get_error, get_ok, raiseIf_error, raiseIf_ok, modify_ok,
      modify_error, pure_error, false_or, and_false, exists_false, or_false] at h
    obtain ⟨_, _, ⟨rfl, rfl⟩, ⟨-, -, rfl⟩ | ⟨_, _, ⟨-, rfl⟩, _, _, rfl, h⟩⟩ := h
    · exact .refl _
    · rw [(assertStateNonnegative_reads _).of_error h]
      exact insert_quiet _ p now

/-! The checks of a call lock a quota row and read; so they move along whatever relation
    the locking moves along. -/

section Checks

variable {R : Db → Db → Prop} (hrefl : ∀ db, R db db)
  (htrans : ∀ a b c, R a b → R b c → R a c) (hlock : Moves R (getLocked now p))

include hrefl htrans hlock

theorem admitQueuedProspect_moves : Moves R (admitQueuedProspect now p) :=
  .bind htrans hlock fun _ => .of_reads hrefl
    (.bind (checkLimit_reads _ _ _) fun _ => .pure _)

theorem releaseQueuedProspect_moves : Moves R (releaseQueuedProspect now p) :=
  .bind htrans hlock fun _ => .of_reads hrefl (.check (.pure _))

theorem reserveExecutionProspect_moves {cost : ℚ} :
    Moves R (reserveExecutionProspect now p d cost) :=
  .bind htrans (.of_reads hrefl (.raiseIf _ _)) fun _ =>
    .bind htrans hlock fun _ => .of_reads hrefl <|
      .bind (normalizeAcceleratorVendor_reads _ _) fun _ =>
      .check (.bind (checkLimits_reads _) fun _ =>
      .bind (checkCostLimit_reads _ _) fun _ => .pure _)

theorem releaseQuotaProspect_moves {reserved settled : ℚ} {date : Option Date} :
    Moves R (releaseQuotaProspect now p d reserved settled date) :=
  .bind htrans (.of_reads hrefl (.raiseIf _ _)) fun _ =>
    .bind htrans (.of_reads hrefl (.raiseIf _ _)) fun _ =>
    .bind htrans hlock fun _ => .of_reads hrefl <|
      .bind (normalizeAcceleratorVendor_reads _ _) fun _ => .check (.check (.pure _))

theorem serviceCommitmentProspect_moves {current desired : ℤ}
    (hinit : Moves R (initializeQuota now p)) :
    Moves R (serviceCommitmentProspect now p current desired d) :=
  .bind htrans (.of_reads hrefl (.raiseIf _ _)) fun _ =>
    .bind htrans (.catching htrans hlock hinit) fun _ => .of_reads hrefl <|
      .bind (normalizeAcceleratorVendor_reads _ _) fun _ =>
      .check (.bind (checkLimits_reads _) fun _ => .pure _)

theorem replaceQuotaProspect_moves {limits : QuotaLimits} :
    Moves R (replaceQuotaProspect now p limits) :=
  .bind htrans (.of_reads hrefl (refuseNegative_reads _)) fun _ =>
    .bind htrans hlock fun _ => .of_reads hrefl <|
      .bind (checkLimits_reads _) fun _ => .bind (checkCostLimit_reads _ _) fun _ => .pure _

end Checks

theorem quiet_trans (a b c : Db) : Quiet a b → Quiet b c → Quiet a c := Quiet.trans

theorem admitQueuedProspect_quiet (now : Time) (p : Uuid) :
    Moves Quiet (admitQueuedProspect now p) :=
  admitQueuedProspect_moves Quiet.refl quiet_trans (getLocked_quiet now p)

theorem releaseQueuedProspect_quiet (now : Time) (p : Uuid) :
    Moves Quiet (releaseQueuedProspect now p) :=
  releaseQueuedProspect_moves Quiet.refl quiet_trans (getLocked_quiet now p)

theorem reserveExecutionProspect_quiet (now : Time) (p : Uuid) (d : ResourceDemand) (cost : ℚ) :
    Moves Quiet (reserveExecutionProspect now p d cost) :=
  reserveExecutionProspect_moves Quiet.refl quiet_trans (getLocked_quiet now p)

theorem releaseQuotaProspect_quiet (now : Time) (p : Uuid) (d : ResourceDemand)
    (reserved settled : ℚ) (date : Option Date) :
    Moves Quiet (releaseQuotaProspect now p d reserved settled date) :=
  releaseQuotaProspect_moves Quiet.refl quiet_trans (getLocked_quiet now p)

theorem serviceCommitmentProspect_quiet (now : Time) (p : Uuid)
    (current desired : ℤ) (d : ResourceDemand) :
    Moves Quiet (serviceCommitmentProspect now p current desired d) :=
  serviceCommitmentProspect_moves Quiet.refl quiet_trans (getLocked_quiet now p)
    (initializeQuota_quiet now p)

theorem replaceQuotaProspect_quiet (now : Time) (p : Uuid)
    (limits : QuotaLimits) : Moves Quiet (replaceQuotaProspect now p limits) :=
  replaceQuotaProspect_moves Quiet.refl quiet_trans (getLocked_quiet now p)

/-- A sound row is never refused by `_touch_state`. -/
theorem touchState_sound (hs : s.Sound) :
    ¬ touchState now p s db = .error e db' := by
  intro h
  rw [touchState_ok.mpr ⟨hs, rfl, rfl⟩] at h
  cases h

/-- A call that raises was still in its quiet part. -/
theorem prospect_touch_error {x : Txn ProjectQuotaState} (hquiet : Moves Quiet x)
    (hsnd : ∀ {db next mid}, x db = .ok next mid → next.Sound)
    (h : (x >>= touchState now p) db = .error e db') : Quiet db db' := by
  rcases bind_error.mp h with hx | ⟨next, mid, hx, ht⟩
  · exact hquiet.of_error hx
  · exact absurd ht (touchState_sound (hsnd hx))

/-! ## The calls -/

/-- A call of the quota repository. -/
inductive QuotaCall where
  | initializeQuota (projectId : Uuid)
  | admitQueued (projectId : Uuid)
  | releaseQueued (projectId : Uuid)
  | reserveExecution (projectId : Uuid) (demand : ResourceDemand)
      (estimatedCost : ℚ)
  | replaceServiceCommitment (projectId : Uuid)
      (currentReplicas desiredReplicas : ℤ) (demand : ResourceDemand)
  | release (projectId : Uuid) (demand : ResourceDemand)
      (reservedCost settledCost : ℚ) (accountingDate : Option Date)
  | replace (projectId : Uuid) (limits : QuotaLimits)

def QuotaCall.run (now : Time) : QuotaCall → Txn Unit
  | .initializeQuota p => do
      let _ ← MiniAiCloud.initializeQuota now p
  | .admitQueued p => do
      let _ ← MiniAiCloud.admitQueued now p
  | .releaseQueued p => do
      let _ ← MiniAiCloud.releaseQueued now p
  | .reserveExecution p d cost => do
      let _ ← MiniAiCloud.reserveExecution now p d cost
  | .replaceServiceCommitment p current desired d => do
      let _ ← MiniAiCloud.replaceServiceCommitment now p current desired d
  | .release p d reserved settled date => do
      let _ ← releaseQuota now p d reserved settled date
  | .replace p limits => do
      let _ ← replaceQuota now p limits

/-- A call that raises changes no usage and takes no project out of its
    limits, also when its caller does not roll back. -/
theorem QuotaCall.run_error {call : QuotaCall} (h : call.run now db = .error e db') :
    Quiet db db' := by
  cases call with
  | initializeQuota p =>
    exact (initializeQuota_quiet now p).of_error (void_error h)
  | admitQueued p =>
    exact prospect_touch_error (admitQueuedProspect_quiet now p)
      admitQueuedProspect_sound (void_error h)
  | releaseQueued p =>
    exact prospect_touch_error (releaseQueuedProspect_quiet now p)
      releaseQueuedProspect_sound (void_error h)
  | reserveExecution p d cost =>
    refine prospect_touch_error (reserveExecutionProspect_quiet now p d cost) ?_ (void_error h)
    intro _ _ _ hx
    obtain ⟨_, _, _, -, -, -, -, -, hsnd, -⟩ := reserveExecutionProspect_ok hx
    exact hsnd
  | replaceServiceCommitment p current desired d =>
    rcases bind_error.mp (void_error h) with hx | ⟨⟨s, next⟩, mid, hx, ht⟩
    · exact (serviceCommitmentProspect_quiet now p current desired d).of_error hx
    · obtain ⟨_, _, -, -, -, hsnd, -⟩ := serviceCommitmentProspect_ok hx
      dsimp only at ht
      split_ifs at ht with hdelta
      · exact absurd ht pure_error
      · exact absurd ht (touchState_sound hsnd)
  | release p d reserved settled date =>
    exact prospect_touch_error (releaseQuotaProspect_quiet now p d reserved settled date)
      releaseQuotaProspect_sound (void_error h)
  | replace p limits =>
    rcases bind_error.mp (void_error h) with hx | ⟨_, _, -, hx⟩
    · exact (replaceQuotaProspect_quiet now p limits).of_error hx
    rcases bind_error.mp hx with hx | ⟨_, _, -, hx⟩
    · exact absurd hx modify_error
    · exact absurd hx pure_error

theorem touched_sound (h : s.Sound) (now : Time) : (s.touched now).Sound := { h with }

theorem withinLimits_touched (h : WithinLimits quota s) (now : Time) :
    WithinLimits quota (s.touched now) :=
  ⟨⟨h.running, h.cpu, h.memory, h.gpus, h.nvidia, h.ascend⟩, h.queued, h.services, h.replicas⟩

/-- Giving resources back keeps a row within its limits. -/
theorem withinLimits_released {vendor : Option AcceleratorVendor} {today settled : ℚ}
    (h : WithinLimits quota s) (hs : s.Sound) (hv : d.Valid vendor) :
    WithinLimits quota (releasedRow s vendor d today settled) := by
  have hcpu := hv.cpu
  have hmem := hv.memory
  have htotal := hs.taskTotal
  have hn : 0 ≤ vendorShare vendor .nvidia d.gpuCount := vendorShare_nonneg hv.gpu
  have ha : 0 ≤ vendorShare vendor .huaweiAscend d.gpuCount := vendorShare_nonneg hv.gpu
  refine ⟨⟨h.running.mono ?_, h.cpu.mono ?_, h.memory.mono ?_, h.gpus.mono ?_,
    h.nvidia.mono ?_, h.ascend.mono ?_⟩, h.queued, h.services, h.replicas⟩
  all_goals
    simp only [releasedRow]
    omega

/-- **ONE CALL**: a call that returns keeps every project within its limits. -/
theorem QuotaCall.run_ok {call : QuotaCall} {u : Unit} (h : call.run now db = .ok u db')
    {p' : Uuid} (hb : Bounded db p') :
    Bounded db' p' := by
  cases call with
  | initializeQuota p =>
    obtain ⟨_, h⟩ := void_ok h
    exact ((initializeQuota_quiet now p).of_ok h).bounded p' hb
  | admitQueued =>
    obtain ⟨_, h⟩ := void_ok h
    obtain ⟨_, _, hrow, hw, rfl, rfl⟩ := admitQueued_ok.mp h
    have hroll := rollDailyState_sound hrow.2.2 now
    refine Bounded.write hrow (touched_sound ?_ now) (fun hl => withinLimits_touched ?_ now) hb
    · exact { hroll with queuedTasks := add_nonneg hroll.queuedTasks zero_le_one }
    · have hl' := withinLimits_roll hl now
      exact ⟨⟨hl'.running, hl'.cpu, hl'.memory, hl'.gpus, hl'.nvidia, hl'.ascend⟩,
        hw, hl'.services, hl'.replicas⟩
  | releaseQueued =>
    obtain ⟨_, h⟩ := void_ok h
    obtain ⟨_, _, hrow, hw, rfl, rfl⟩ := releaseQueued_ok.mp h
    have hroll := rollDailyState_sound hrow.2.2 now
    refine Bounded.write hrow (touched_sound ?_ now) (fun hl => withinLimits_touched ?_ now) hb
    · exact { hroll with queuedTasks := sub_nonneg.mpr hw }
    · have hl' := withinLimits_roll hl now
      exact ⟨⟨hl'.running, hl'.cpu, hl'.memory, hl'.gpus, hl'.nvidia, hl'.ascend⟩,
        hl'.queued.mono (by show _ - 1 ≤ _; omega), hl'.services, hl'.replicas⟩
  | reserveExecution =>
    obtain ⟨_, h⟩ := void_ok h
    obtain ⟨_, _, _, hrow, -, -, hcap, hsnd, rfl, rfl⟩ := reserveExecution_ok h
    refine Bounded.write hrow (touched_sound hsnd now) (fun hl => withinLimits_touched ?_ now) hb
    have hl' := withinLimits_roll hl now
    exact ⟨hcap, hl'.queued.mono (by simp only [reservedRow]; omega), hl'.services, hl'.replicas⟩
  | replaceServiceCommitment p current desired d =>
    obtain ⟨_, h⟩ := void_ok h
    obtain ⟨⟨_, _⟩, _, hx, ht⟩ := bind_ok.mp h
    have hmid := ((serviceCommitmentProspect_quiet now p current desired d).of_ok hx).bounded p' hb
    dsimp only at ht
    split_ifs at ht with hdelta
    · rw [← (pure_ok.mp ht).2]
      exact hmid
    · obtain ⟨hsnd, -, rfl⟩ := touchState_ok.mp ht
      obtain ⟨_, _, -, hrow, rfl, -, hcap, hcnt, hrep⟩ := serviceCommitmentProspect_ok hx
      exact Bounded.write hrow (touched_sound hsnd now)
        (fun hl => withinLimits_touched ⟨hcap, hl.queued, hcnt, hrep⟩ now) hmid
  | release p d reserved settled date =>
    obtain ⟨_, h⟩ := void_ok h
    have hpros := prospect_touch_ok.mp h
    obtain ⟨_, _, hx, hsnd, rfl, rfl⟩ := hpros
    have hmid := ((releaseQuotaProspect_quiet now p d reserved settled date).of_ok hx).bounded p' hb
    obtain ⟨_, _, _, hrow, hv, -, -, -, -, rfl, rfl⟩ := releaseQuotaProspect_ok.mp hx
    have hroll := rollDailyState_sound hrow.2.2 now
    exact Bounded.write (rows_withQuotaState hrow hroll) (touched_sound hsnd now)
      (fun hl => withinLimits_touched (withinLimits_released hl hroll hv) now)
      hmid
  | replace p limits =>
    obtain ⟨snapshot, h⟩ := void_ok h
    obtain ⟨_, hx, rfl⟩ := replaceQuota_ok.mp h
    have hmid := ((replaceQuotaProspect_quiet now p limits).of_ok hx).bounded p' hb
    obtain ⟨quota, s, hrow, hst, hcap, hq, hsvc, hrep, rfl⟩ :=
      replaceQuotaProspect_ok hx
    have hsnd : snapshot.state.Sound := by
      rw [hst]
      exact rollDailyState_sound hrow.2.2 now
    have hrow' := rows_withQuotaState hrow hsnd
    by_cases hp : p' = p
    · subst hp
      exact .inr ⟨snapshot.quota, snapshot.state,
        ⟨get?_set_self hrow'.1 _, hrow'.2⟩, ⟨hcap, hq, hsvc, hrep⟩⟩
    · have hget := get?_set_ne db.quotas snapshot.quota hp
      rcases hmid with ⟨hn, hs⟩ | ⟨quota', s', ⟨hq', hs'⟩, hw'⟩
      · exact .inl ⟨hget.trans hn, hs⟩
      · exact .inr ⟨quota', s', ⟨hget.trans hq', hs'⟩, hw'⟩

/-! ## Whole histories -/

/-- One call at one moment, by a caller that rolls a failed call back or not. -/
structure QuotaStep where
  now : Time
  call : QuotaCall
  rolledBack : Bool

/-- The histories of a project that starts without quota rows. -/
def quotaSystem (p : Uuid) : System Db QuotaStep where
  init db := db.quotas.get? p = none ∧ db.quotaStates.get? p = none
  step i db :=
    if i.rolledBack then commit (i.call.run i.now) db
    else leaves (i.call.run i.now) db

theorem quotaSystem_step_bounded (p p' : Uuid) (i : QuotaStep) (db : Db)
    (hb : Bounded db p') : Bounded ((quotaSystem p).step i db) p' := by
  show Bounded (if i.rolledBack then commit (i.call.run i.now) db
    else leaves (i.call.run i.now) db) p'
  unfold commit leaves
  cases hrun : i.call.run i.now db with
  | ok =>
    rw [ite_self]
    exact QuotaCall.run_ok hrun hb
  | error =>
    split_ifs with hrb
    · exact hb
    · exact (QuotaCall.run_error hrun).bounded p' hb

/-- **HARD LIMITS**: in every state a project reaches, each non-null limit
    bounds its usage and no counter is negative; and from there a call that
    raises leaves every counter but the daily ones as it was. -/
theorem hard_limits_never_exceeded (p : Uuid) (db : Db)
    (h : Reach (quotaSystem p) (fun _ _ => True) db) :
    (∀ quota s, db.quotas.get? p = some quota → db.quotaStates.get? p = some s →
      WithinLimits quota s ∧ s.Sound)
    ∧ ∀ now (call : QuotaCall) e db', call.run now db = .error e db' →
        ∀ p', usage db' p' = usage db p' := by
  have hb : Bounded db p := h.invariant (I := fun s => Bounded s p) (fun _ h0 => .inl h0)
      (fun i s hs _ => quotaSystem_step_bounded p p i s hs)
  refine ⟨?_, fun now call e db' hrun => (QuotaCall.run_error hrun).usage⟩
  intro _ _ hq hs
  rcases hb with ⟨hn, -⟩ | ⟨quota', s', ⟨hq', hs', hsnd⟩, hw⟩
  · rw [hn] at hq
    cases hq
  · rw [hq] at hq'
    rw [hs] at hs'
    cases hq'
    cases hs'
    exact ⟨hw, hsnd⟩

/-- A project that is opened, gets a limit of one running task, queues two and
    starts one; a second start is refused. -/
def oneRunningTask : List QuotaStep :=
  let limits : QuotaLimits := ⟨none, some 1, none, none, none, none, some 0, none,
    none, none, none⟩
  let demand : ResourceDemand := ⟨500, 256, 0, none⟩
  [⟨0, .initializeQuota 7, true⟩, ⟨1, .replace 7 limits, true⟩,
   ⟨2, .admitQueued 7, true⟩, ⟨3, .admitQueued 7, false⟩,
   ⟨4, .reserveExecution 7 demand 0, true⟩,
   ⟨5, .reserveExecution 7 demand 0, false⟩]

/-- The state after that run, from a database that only knows the project. -/
def afterOneRunningTask : Db :=
  (quotaSystem 7).run oneRunningTask
    (Db.ofProjects (Table.empty.insert 7 .active))

/-- The run above ends with both rows present and one task running. -/
theorem hard_limits_one_running_task : ∃ quota s, afterOneRunningTask.quotas.get? 7 = some quota
      ∧ afterOneRunningTask.quotaStates.get? 7 = some s
      ∧ s.runningTasks = 1 ∧ WithinLimits quota s ∧ s.Sound := by
  have hq : (afterOneRunningTask.quotas.get? 7).isSome = true := by
    decide +kernel
  have hs : (afterOneRunningTask.quotaStates.get? 7).map
      (·.runningTasks) = some 1 := by decide +kernel
  obtain ⟨quota, hquota⟩ := Option.isSome_iff_exists.mp hq
  obtain ⟨s, hst, hrun⟩ := Option.map_eq_some_iff.mp hs
  have hinit : (quotaSystem 7).init (Db.ofProjects (Table.empty.insert 7 .active)) := ⟨rfl, rfl⟩
  have hreach : Reach (quotaSystem 7) (fun _ _ => True) afterOneRunningTask :=
    (Reach.init hinit).run oneRunningTask (allowed_of_forall _ (fun _ _ _ => trivial) _)
  exact ⟨quota, s, hquota, hst, hrun, (hard_limits_never_exceeded 7 _ hreach).1 quota s hquota hst⟩

end MiniAiCloud
