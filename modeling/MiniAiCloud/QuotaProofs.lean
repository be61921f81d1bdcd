import MiniAiCloud.Reachability
import MiniAiCloud.Quotas

/-! # What the quota calls do, and that limits are never exceeded

    First one specification lemma for each call: when it returns, which checks
    it passed and which row it wrote.  Every later argument about quota rows
    rests on these and never opens a call again.

    Then the invariant of one project over whole histories: every limit bounds
    its usage and every counter is non-negative, whatever calls are made in
    whatever order, and whether or not the caller rolls a failed call back. -/

namespace MiniAiCloud

open Transaction Table

variable {db db' : Db} {s next r : ProjectQuotaState} {d : ResourceDemand} {u : Unit}
  {vendor : Option AcceleratorVendor} {snapshot : QuotaSnapshot} {cost settled reserved : ℚ}
  {n : ℤ} {p : Uuid} {date : Option Date} {now : Time}

/-! ## The rows -/

/-- What `_assert_state_nonnegative` accepts. -/
structure ProjectQuotaState.Sound (s : ProjectQuotaState) : Prop where
  queuedTasks : 0 ≤ s.queuedTasks
  runningTasks : 0 ≤ s.runningTasks
  reservedCpuMillicores : 0 ≤ s.reservedCpuMillicores
  reservedMemoryMb : 0 ≤ s.reservedMemoryMb
  reservedGpus : 0 ≤ s.reservedGpus
  reservedNvidiaGpus : 0 ≤ s.reservedNvidiaGpus
  reservedAscendNpus : 0 ≤ s.reservedAscendNpus
  serviceCount : 0 ≤ s.serviceCount
  serviceReplicas : 0 ≤ s.serviceReplicas
  serviceReservedCpuMillicores : 0 ≤ s.serviceReservedCpuMillicores
  serviceReservedMemoryMb : 0 ≤ s.serviceReservedMemoryMb
  serviceReservedGpus : 0 ≤ s.serviceReservedGpus
  serviceReservedNvidiaGpus : 0 ≤ s.serviceReservedNvidiaGpus
  serviceReservedAscendNpus : 0 ≤ s.serviceReservedAscendNpus
  artifactBytes : 0 ≤ s.artifactBytes
  dailyReservedCost : 0 ≤ s.dailyReservedCost
  dailySettledCost : 0 ≤ s.dailySettledCost
  taskTotal : s.reservedGpus = s.reservedNvidiaGpus + s.reservedAscendNpus
  serviceTotal : s.serviceReservedGpus
    = s.serviceReservedNvidiaGpus + s.serviceReservedAscendNpus

/-- A limit bounds an amount: a null limit bounds everything. -/
def Within (limit : Option ℤ) (amount : ℤ) : Prop :=
  ∀ bound ∈ limit, amount ≤ bound

theorem Within.mono {limit : Option ℤ} {a b : ℤ} (h : Within limit b)
    (hab : a ≤ b) : Within limit a :=
  fun bound hb => le_trans hab (h bound hb)

/-- The database with another quota state row for one project. -/
def Db.withQuotaState (db : Db) (p : Uuid) (s : ProjectQuotaState) : Db :=
  { db with quotaStates := db.quotaStates.set p s }

@[simp] theorem withQuotaState_withQuotaState (db : Db) (p : Uuid) (s s' : ProjectQuotaState) :
    (db.withQuotaState p s).withQuotaState p s' = db.withQuotaState p s' := by
  unfold Db.withQuotaState
  rw [set_set]

theorem rollDailyState_sound (h : s.Sound) (now : Time) :
    (rollDailyState s now).Sound := by
  unfold rollDailyState
  split_ifs with hd
  · exact { h with dailyReservedCost := le_refl 0, dailySettledCost := le_refl 0 }
  · exact h

/-! ## The checks -/

theorem checkLimit_ok {r : String} {limit : Option ℤ} {x : ℤ} :
    checkLimit r limit x db = .ok u db' ↔ Within limit x ∧ db' = db := by
  cases limit with
  | none =>
    show (pure () : Txn Unit) db = .ok u db' ↔ _
    rw [pure_ok]
    exact ⟨fun h => ⟨fun _ hb => (nomatch hb), h.2.symm⟩, fun h => ⟨rfl, h.2.symm⟩⟩
  | some bound =>
    show raiseIf (bound < x) _ db = .ok u db' ↔ _
    rw [raiseIf_ok]
    constructor
    · rintro ⟨h, rfl⟩
      refine ⟨?_, rfl⟩
      intro b hb
      cases hb
      exact not_lt.mp h
    · rintro ⟨h, rfl⟩
      exact ⟨not_lt.mpr (h bound rfl), rfl⟩

theorem checkLimits_ok : ∀ {checks : List (String × Option ℤ × ℤ)},
      checkLimits checks db = .ok u db'
        ↔ (∀ c ∈ checks, Within c.2.1 c.2.2) ∧ db' = db := by
  intro checks
  induction checks with
  | nil =>
    show (pure () : Txn Unit) db = .ok u db' ↔ _
    rw [pure_ok]
    exact ⟨fun h => ⟨fun _ hc => (nomatch hc), h.2.symm⟩, fun h => ⟨rfl, h.2.symm⟩⟩
  | cons c rest ih =>
    obtain ⟨r, limit, x⟩ := c
    show (checkLimit r limit x >>= fun _ => checkLimits rest) db = _ ↔ _
    rw [bind_ok, List.forall_mem_cons]
    constructor
    · rintro ⟨_, _, h1, h2⟩
      obtain ⟨hw, rfl⟩ := checkLimit_ok.mp h1
      obtain ⟨hr, hdb⟩ := ih.mp h2
      exact ⟨⟨hw, hr⟩, hdb⟩
    · rintro ⟨⟨hw, hr⟩, hdb⟩
      exact ⟨(), db, checkLimit_ok.mpr ⟨hw, rfl⟩, ih.mpr ⟨hr, hdb⟩⟩

theorem checkCostLimit_unchanged {limit : Option ℚ} {x : ℚ}
    (h : checkCostLimit limit x db = .ok u db') : db' = db := by
  cases limit with
  | none => exact (pure_ok.mp h).2.symm
  | some => exact (raiseIf_ok.mp h).2

theorem validateReservation_ok {cpu memory gpus : ℤ} :
    validateReservation cpu memory gpus cost db = .ok u db'
      ↔ (0 ≤ cpu ∧ 0 ≤ memory ∧ 0 ≤ gpus ∧ 0 ≤ cost) ∧ db' = db := by
  unfold validateReservation
  rw [raiseIf_ok]
  simp only [not_or, not_lt]

/-- The counters by name are non-negative exactly when each of them is. -/
theorem numericValues_nonneg (s : ProjectQuotaState) :
    ((numericValues s).filter (·.2 < 0)).map Prod.fst = []
      ↔ ∀ entry ∈ numericValues s, 0 ≤ entry.2 := by
  rw [List.map_eq_nil_iff, List.filter_eq_nil_iff]
  simp only [decide_eq_true_eq, not_lt]

theorem assertStateNonnegative_ok :
    assertStateNonnegative s db = .ok u db' ↔ s.Sound ∧ db' = db := by
  unfold assertStateNonnegative
  simp only [bind_ok, raiseIf_ok, not_not, numericValues_nonneg]
  constructor
  · rintro ⟨_, _, ⟨hn, rfl⟩, _, _, ⟨ht, rfl⟩, hs, rfl⟩
    simp only [numericValues, List.forall_mem_cons, Int.cast_nonneg_iff,
      List.not_mem_nil, false_implies, implies_true, and_true] at hn
    obtain ⟨h1, h2, h3, h4, h5, h6, h7, h8, h9, h10, h11, h12, h13, h14, h15, h16, h17⟩ := hn
    exact ⟨⟨h1, h2, h3, h4, h5, h6, h7, h8, h9, h10, h11, h12, h13, h14, h15,
      h16, h17, ht, hs⟩, rfl⟩
  · rintro ⟨h, rfl⟩
    refine ⟨(), db', ⟨?_, rfl⟩, (), db', ⟨h.taskTotal, rfl⟩, h.serviceTotal, rfl⟩
    simp only [numericValues, List.forall_mem_cons, Int.cast_nonneg_iff,
      List.not_mem_nil, false_implies, implies_true, and_true]
    exact ⟨h.1, h.2, h.3, h.4, h.5, h.6, h.7, h.8, h.9, h.10, h.11, h.12, h.13,
      h.14, h.15, h.16, h.17⟩

/-- A demand of `n` accelerators is typed by the vendor its text names. -/
theorem normalizeAcceleratorVendor_ok {value : Option String} {v : Option AcceleratorVendor} :
    normalizeAcceleratorVendor value n db = .ok v db'
      ↔ (n = 0 ∧ v = none ∨ n ≠ 0 ∧ v ≠ none ∧ v = vendorOf value) ∧ db' = db := by
  unfold normalizeAcceleratorVendor
  by_cases hn : n = 0
  · rw [if_pos hn, pure_ok]
    constructor
    · rintro ⟨rfl, rfl⟩
      exact ⟨Or.inl ⟨hn, rfl⟩, rfl⟩
    · rintro ⟨⟨-, rfl⟩ | ⟨h0, -⟩, rfl⟩
      · exact ⟨rfl, rfl⟩
      · exact absurd hn h0
  · rw [if_neg hn]
    simp only [bind_ok, expect_ok, pure_ok]
    constructor
    · rintro ⟨vendor, _, ⟨hv, rfl⟩, rfl, rfl⟩
      exact ⟨Or.inr ⟨hn, Option.some_ne_none vendor, hv.symm⟩, rfl⟩
    · rintro ⟨⟨h0, -⟩ | ⟨-, hne, hv⟩, rfl⟩
      · exact absurd h0 hn
      · obtain ⟨vendor, rfl⟩ := Option.ne_none_iff_exists'.mp hne
        exact ⟨vendor, _, ⟨hv.symm, rfl⟩, rfl, rfl⟩

theorem assertStateNonnegative_reads (s : ProjectQuotaState) : Reads (assertStateNonnegative s) :=
  .check (.check (.raiseIf _ _))

theorem checkLimit_reads (r : String) (limit : Option ℤ) (x : ℤ) :
    Reads (checkLimit r limit x) := by
  cases limit with
  | none => exact .pure _
  | some => exact .raiseIf _ _

theorem checkLimits_reads (checks : List (String × Option ℤ × ℤ)) :
    Reads (checkLimits checks) := by
  induction checks with
  | nil => exact .pure _
  | cons c rest ih => exact .bind (checkLimit_reads _ _ _) fun _ => ih

theorem checkCostLimit_reads (limit : Option ℚ) (x : ℚ) :
    Reads (checkCostLimit limit x) := by
  cases limit with
  | none => exact .pure _
  | some => exact .raiseIf _ _

theorem normalizeAcceleratorVendor_reads (value : Option String) (n : ℤ) :
    Reads (normalizeAcceleratorVendor value n) :=
  .ite (.pure _) (.bind (.expect _ _) fun _ => .pure _)

theorem refuseNegative_reads (values : List (String × Option ℚ)) :
    Reads (refuseNegative values) := by
  induction values with
  | nil => exact .pure _
  | cons v rest ih => exact .check ih

/-! ## Locking and writing a row -/

theorem writeState_ok : writeState p s db = .ok u db' ↔ db' = db.withQuotaState p s := modify_ok

/-- **THE LOCK**: `get_locked` reads both rows, accepts a sound state and rolls
    its daily counters over. -/
theorem getLocked_ok : getLocked now p db = .ok snapshot db'
      ↔ ∃ quota state, db.quotas.get? p = some quota
        ∧ db.quotaStates.get? p = some state ∧ state.Sound
        ∧ snapshot = ⟨quota, rollDailyState state now⟩
        ∧ db' = db.withQuotaState p (rollDailyState state now) := by
  unfold getLocked
  simp only [bind_ok, get_ok, expect_ok, assertStateNonnegative_ok, writeState_ok, pure_ok]
  constructor
  · rintro ⟨_, _, ⟨rfl, rfl⟩, quota, _, ⟨hq, rfl⟩, state, _, ⟨hs, rfl⟩, _, _,
      ⟨hsnd, rfl⟩, _, _, rfl, hsnap, rfl⟩
    exact ⟨quota, state, hq, hs, hsnd, hsnap.symm, rfl⟩
  · rintro ⟨quota, state, hq, hs, hsnd, rfl, rfl⟩
    exact ⟨db, db, ⟨rfl, rfl⟩, quota, db, ⟨hq, rfl⟩, state, db, ⟨hs, rfl⟩, (),
      db, ⟨hsnd, rfl⟩, (), _, rfl, rfl, rfl⟩

/-- A lock that is refused changes nothing. -/
theorem getLocked_error {e : Err} (h : getLocked now p db = .error e db') : db' = db := by
  unfold getLocked at h
  simp only [bind_error, get_error, get_ok, expect_error, expect_ok, writeState,
    modify_error, pure_error, false_or, and_false, exists_false, or_false] at h
  obtain ⟨_, _, ⟨rfl, rfl⟩, ⟨-, -, rfl⟩ | ⟨_, _, ⟨-, rfl⟩, ⟨-, -, rfl⟩ | ⟨s, _, ⟨-, rfl⟩, h⟩⟩⟩ := h
  · rfl
  · rfl
  · exact (assertStateNonnegative_reads s).of_error h

/-- The row `_touch_state` leaves. -/
def ProjectQuotaState.touched (s : ProjectQuotaState) (now : Time) :
    ProjectQuotaState :=
  { s with version := s.version + 1, updatedAt := now }

theorem touchState_ok : touchState now p s db = .ok r db'
      ↔ s.Sound ∧ r = s.touched now ∧ db' = db.withQuotaState p (s.touched now) := by
  unfold touchState
  simp only [bind_ok, writeState_ok, assertStateNonnegative_ok, pure_ok]
  constructor
  · rintro ⟨_, _, rfl, _, _, ⟨hs, rfl⟩, _, _, rfl, rfl, rfl⟩
    exact ⟨hs, rfl, withQuotaState_withQuotaState _ _ _ _⟩
  · rintro ⟨hs, rfl, rfl⟩
    exact ⟨(), _, rfl, (), _, ⟨hs, rfl⟩, (), _, rfl, rfl, (withQuotaState_withQuotaState _ _ _ _)⟩

/-! ## The rows the calls write are sound

    The checks of a call come before its write, so `_touch_state` never refuses
    the row: what was sound under the lock stays sound. -/

theorem vendorShare_total (h : vendor = none → n = 0) :
    vendorShare vendor .nvidia n + vendorShare vendor .huaweiAscend n = n := by
  cases vendor with
  | none =>
    have hn := h rfl
    subst hn
    rfl
  | some v => cases v <;> simp [vendorShare]

theorem vendorShare_nonneg {v : AcceleratorVendor} (h : 0 ≤ n) : 0 ≤ vendorShare vendor v n := by
  unfold vendorShare
  by_cases hv : vendor = some v
  · rw [if_pos hv]
    exact h
  · rw [if_neg hv]

theorem reservedRow_sound (h : s.Sound) (hcpu : 0 ≤ d.cpuMillicores) (hmem : 0 ≤ d.memoryMb)
    (hgpu : 0 ≤ d.gpuCount) (hcost : 0 ≤ cost) (hq : 1 ≤ s.queuedTasks) :
    (reservedRow s vendor d cost).Sound := by
  have hn : 0 ≤ s.reservedNvidiaGpus + vendorShare vendor .nvidia d.gpuCount :=
    add_nonneg h.reservedNvidiaGpus (vendorShare_nonneg hgpu)
  have ha : 0 ≤ s.reservedAscendNpus + vendorShare vendor .huaweiAscend d.gpuCount :=
    add_nonneg h.reservedAscendNpus (vendorShare_nonneg hgpu)
  exact { h with
    queuedTasks := by show 0 ≤ s.queuedTasks - 1; omega
    runningTasks := add_nonneg h.runningTasks zero_le_one
    reservedCpuMillicores := add_nonneg h.reservedCpuMillicores hcpu
    reservedMemoryMb := add_nonneg h.reservedMemoryMb hmem
    reservedGpus := add_nonneg hn ha
    reservedNvidiaGpus := hn
    reservedAscendNpus := ha
    dailyReservedCost := add_nonneg h.dailyReservedCost hcost
    taskTotal := rfl }

/-- What `release` demands of the row before it subtracts. -/
def Covers (s : ProjectQuotaState) (vendor : Option AcceleratorVendor)
    (d : ResourceDemand) : Prop :=
  1 ≤ s.runningTasks ∧ d.cpuMillicores ≤ s.reservedCpuMillicores
    ∧ d.memoryMb ≤ s.reservedMemoryMb ∧ d.gpuCount ≤ s.reservedGpus
    ∧ d.gpuCount ≤ typedReserved s vendor

theorem vendorShare_le_typed (h : s.Sound) (hn : n ≤ typedReserved s vendor) :
    vendorShare vendor .nvidia n ≤ s.reservedNvidiaGpus
      ∧ vendorShare vendor .huaweiAscend n ≤ s.reservedAscendNpus := by
  cases vendor with
  | none => exact ⟨h.reservedNvidiaGpus, h.reservedAscendNpus⟩
  | some v =>
    cases v with
    | nvidia => exact ⟨hn, h.reservedAscendNpus⟩
    | huaweiAscend => exact ⟨h.reservedNvidiaGpus, hn⟩

theorem releasedRow_sound {today : ℚ} (h : s.Sound) (hc : Covers s vendor d)
    (htoday : 0 ≤ today) (hsett : 0 ≤ settled) :
    (releasedRow s vendor d today settled).Sound := by
  obtain ⟨_, hcpu, hmem, -, htyped⟩ := hc
  obtain ⟨hn, ha⟩ := vendorShare_le_typed h htyped
  exact { h with
    runningTasks := by show 0 ≤ s.runningTasks - 1; omega
    reservedCpuMillicores := sub_nonneg.mpr hcpu
    reservedMemoryMb := sub_nonneg.mpr hmem
    reservedGpus := add_nonneg (sub_nonneg.mpr hn) (sub_nonneg.mpr ha)
    reservedNvidiaGpus := sub_nonneg.mpr hn
    reservedAscendNpus := sub_nonneg.mpr ha
    dailyReservedCost := htoday
    dailySettledCost := add_nonneg h.dailySettledCost hsett
    taskTotal := rfl }

/-! ## One lemma for each call -/

section Calls

variable {now : Time} {p : Uuid} {db db' : Db}

/-- The quota rows of `p`: its limits and its sound counters. -/
def Rows (db : Db) (p : Uuid) (quota : ProjectQuota) (s : ProjectQuotaState) :
    Prop :=
  db.quotas.get? p = some quota ∧ db.quotaStates.get? p = some s ∧ s.Sound

/-- A call is its checks followed by the write of the row they end with. -/
theorem prospect_touch_ok {x : Txn ProjectQuotaState} : (x >>= touchState now p) db = .ok r db'
      ↔ ∃ next mid, x db = .ok next mid ∧ next.Sound ∧ r = next.touched now
        ∧ db' = mid.withQuotaState p r := by
  simp only [bind_ok, touchState_ok]
  constructor
  · rintro ⟨next, mid, hx, hs, rfl, rfl⟩
    exact ⟨next, mid, hx, hs, rfl, rfl⟩
  · rintro ⟨next, mid, hx, hs, rfl, rfl⟩
    exact ⟨next, mid, hx, hs, rfl, rfl⟩

theorem admitQueuedProspect_ok : admitQueuedProspect now p db = .ok next db'
      ↔ ∃ quota s, Rows db p quota s
        ∧ Within quota.maxQueuedTasks ((rollDailyState s now).queuedTasks + 1)
        ∧ next = { rollDailyState s now with
            queuedTasks := (rollDailyState s now).queuedTasks + 1 }
        ∧ db' = db.withQuotaState p (rollDailyState s now) := by
  unfold admitQueuedProspect
  simp only [bind_ok, getLocked_ok, checkLimit_ok, pure_ok]
  constructor
  · rintro ⟨_, _, ⟨quota, s, hq, hs, hsnd, rfl, rfl⟩, _, _, ⟨hw, rfl⟩, rfl, rfl⟩
    exact ⟨quota, s, ⟨hq, hs, hsnd⟩, hw, rfl, rfl⟩
  · rintro ⟨quota, s, ⟨hq, hs, hsnd⟩, hw, rfl, rfl⟩
    exact ⟨_, _, ⟨quota, s, hq, hs, hsnd, rfl, rfl⟩, (), _, ⟨hw, rfl⟩, rfl, rfl⟩

theorem admitQueuedProspect_sound (h : admitQueuedProspect now p db = .ok next db') :
    next.Sound := by
  obtain ⟨_, _, ⟨-, -, hsnd⟩, -, rfl, -⟩ := admitQueuedProspect_ok.mp h
  have hr := rollDailyState_sound hsnd now
  exact { hr with queuedTasks := add_nonneg hr.queuedTasks zero_le_one }

/-- Admitting one more queued task. -/
theorem admitQueued_ok : admitQueued now p db = .ok r db' ↔ ∃ quota s, Rows db p quota s
        ∧ Within quota.maxQueuedTasks ((rollDailyState s now).queuedTasks + 1)
        ∧ r = ({ rollDailyState s now with
            queuedTasks := (rollDailyState s now).queuedTasks + 1 } : ProjectQuotaState).touched now
        ∧ db' = db.withQuotaState p r := by
  unfold admitQueued
  rw [prospect_touch_ok]
  constructor
  · rintro ⟨_, _, hx, -, rfl, rfl⟩
    obtain ⟨quota, s, hrow, hw, rfl, rfl⟩ := admitQueuedProspect_ok.mp hx
    exact ⟨quota, s, hrow, hw, rfl, withQuotaState_withQuotaState _ _ _ _⟩
  · rintro ⟨quota, s, hrow, hw, rfl, rfl⟩
    have hx := admitQueuedProspect_ok.mpr ⟨quota, s, hrow, hw, rfl, rfl⟩
    exact ⟨_, _, hx, admitQueuedProspect_sound hx, rfl,
      (withQuotaState_withQuotaState _ _ _ _).symm⟩

theorem releaseQueuedProspect_ok : releaseQueuedProspect now p db = .ok next db'
      ↔ ∃ quota s, Rows db p quota s ∧ 1 ≤ (rollDailyState s now).queuedTasks
        ∧ next = { rollDailyState s now with
            queuedTasks := (rollDailyState s now).queuedTasks - 1 }
        ∧ db' = db.withQuotaState p (rollDailyState s now) := by
  unfold releaseQueuedProspect
  simp only [bind_ok, getLocked_ok, raiseIf_ok, pure_ok, not_lt]
  constructor
  · rintro ⟨_, _, ⟨quota, s, hq, hs, hsnd, rfl, rfl⟩, _, _, ⟨hw, rfl⟩, rfl, rfl⟩
    exact ⟨quota, s, ⟨hq, hs, hsnd⟩, hw, rfl, rfl⟩
  · rintro ⟨quota, s, ⟨hq, hs, hsnd⟩, hw, rfl, rfl⟩
    exact ⟨_, _, ⟨quota, s, hq, hs, hsnd, rfl, rfl⟩, (), _, ⟨hw, rfl⟩, rfl, rfl⟩

theorem releaseQueuedProspect_sound (h : releaseQueuedProspect now p db = .ok next db') :
    next.Sound := by
  obtain ⟨_, _, ⟨-, -, hsnd⟩, hw, rfl, -⟩ := releaseQueuedProspect_ok.mp h
  exact { rollDailyState_sound hsnd now with queuedTasks := sub_nonneg.mpr hw }

/-- Taking one queued task off the queue. -/
theorem releaseQueued_ok : releaseQueued now p db = .ok r db'
      ↔ ∃ quota s, Rows db p quota s ∧ 1 ≤ (rollDailyState s now).queuedTasks
        ∧ r = ({ rollDailyState s now with
            queuedTasks := (rollDailyState s now).queuedTasks - 1 } : ProjectQuotaState).touched now
        ∧ db' = db.withQuotaState p r := by
  unfold releaseQueued
  rw [prospect_touch_ok]
  constructor
  · rintro ⟨_, _, hx, -, rfl, rfl⟩
    obtain ⟨quota, s, hrow, hw, rfl, rfl⟩ := releaseQueuedProspect_ok.mp hx
    exact ⟨quota, s, hrow, hw, rfl, withQuotaState_withQuotaState _ _ _ _⟩
  · rintro ⟨quota, s, hrow, hw, rfl, rfl⟩
    have hx := releaseQueuedProspect_ok.mpr ⟨quota, s, hrow, hw, rfl, rfl⟩
    exact ⟨_, _, hx, releaseQueuedProspect_sound hx, rfl,
      (withQuotaState_withQuotaState _ _ _ _).symm⟩

/-- The demand of an execution is non-negative, its vendor is known. -/
structure ResourceDemand.Valid (d : ResourceDemand)
    (vendor : Option AcceleratorVendor) : Prop where
  cpu : 0 ≤ d.cpuMillicores
  memory : 0 ≤ d.memoryMb
  gpu : 0 ≤ d.gpuCount
  typed : d.gpuCount = 0 ∧ vendor = none
    ∨ d.gpuCount ≠ 0 ∧ vendor ≠ none ∧ vendor = vendorOf d.acceleratorVendor

theorem ResourceDemand.Valid.untyped (h : d.Valid vendor) :
    vendor = none → d.gpuCount = 0 := by
  intro hv
  rcases h.typed with ⟨h0, -⟩ | ⟨-, hne, -⟩
  · exact h0
  · exact absurd hv hne

/-- The limits `reserve_execution` and `replace_service_commitment` check
    against the row they are about to write. -/
structure Capped (quota : ProjectQuota) (s : ProjectQuotaState) : Prop where
  running : Within quota.maxRunningTasks (s.runningTasks + s.serviceReplicas)
  cpu : Within quota.maxCpuMillicores
    (s.reservedCpuMillicores + s.serviceReservedCpuMillicores)
  memory : Within quota.maxMemoryMb
    (s.reservedMemoryMb + s.serviceReservedMemoryMb)
  gpus : Within quota.maxGpus (s.reservedGpus + s.serviceReservedGpus)
  nvidia : Within quota.maxNvidiaGpus
    (s.reservedNvidiaGpus + s.serviceReservedNvidiaGpus)
  ascend : Within quota.maxAscendNpus
    (s.reservedAscendNpus + s.serviceReservedAscendNpus)

/-- **RESERVING**: an execution is charged only when the row it leads to is
    within the limits. -/
theorem reserveExecutionProspect_ok (h : reserveExecutionProspect now p d cost db = .ok next db') :
    ∃ quota s vendor, Rows db p quota s ∧ d.Valid vendor
      ∧ 1 ≤ (rollDailyState s now).queuedTasks
      ∧ next = reservedRow (rollDailyState s now) vendor d cost
      ∧ Capped quota next ∧ next.Sound
      ∧ db' = db.withQuotaState p (rollDailyState s now) := by
  unfold reserveExecutionProspect at h
  simp only [bind_ok, getLocked_ok, raiseIf_ok, pure_ok, not_lt,
    validateReservation_ok, normalizeAcceleratorVendor_ok, checkLimits_ok,
    List.forall_mem_cons, List.not_mem_nil, false_implies, implies_true,
    and_true] at h
  obtain ⟨_, _, ⟨⟨hcpu, hmem, hgpu, hcost⟩, rfl⟩, _, _,
    ⟨quota, s, hq, hs, hsnd, rfl, rfl⟩, vendor, _, ⟨htyped, rfl⟩, _, _,
    ⟨hque, rfl⟩, _, _, ⟨⟨hrun, hcpus, hmems, hgpus, hnv, hasc⟩, rfl⟩, _, _,
    hmoney, rfl, rfl⟩ := h
  have hv : d.Valid vendor := ⟨hcpu, hmem, hgpu, htyped⟩
  have hroll := rollDailyState_sound hsnd now
  refine ⟨quota, s, vendor, ⟨hq, hs, hsnd⟩, hv, hque, rfl, ?_,
    reservedRow_sound hroll hcpu hmem hgpu hcost hque,
    checkCostLimit_unchanged hmoney⟩
  have htotal := hroll.taskTotal
  have hshare := vendorShare_total hv.untyped
  -- The checks add the demand last; the row adds it to the task counter.
  exact ⟨hrun.mono (by simp only [reservedRow]; omega),
    hcpus.mono (by simp only [reservedRow]; omega),
    hmems.mono (by simp only [reservedRow]; omega),
    hgpus.mono (by simp only [reservedRow]; omega), hnv, hasc⟩

theorem reserveExecution_ok (h : reserveExecution now p d cost db = .ok r db') :
    ∃ quota s vendor, Rows db p quota s ∧ d.Valid vendor
      ∧ 1 ≤ (rollDailyState s now).queuedTasks
      ∧ Capped quota (reservedRow (rollDailyState s now) vendor d cost)
      ∧ (reservedRow (rollDailyState s now) vendor d cost).Sound
      ∧ r = (reservedRow (rollDailyState s now) vendor d cost).touched now
      ∧ db' = db.withQuotaState p r := by
  obtain ⟨_, _, hx, hsnd, rfl, rfl⟩ := prospect_touch_ok.mp h
  obtain ⟨quota, s, vendor, hrow, hv, hq, rfl, hcap, -, rfl⟩ := reserveExecutionProspect_ok hx
  exact ⟨quota, s, vendor, hrow, hv, hq, hcap, hsnd, rfl, withQuotaState_withQuotaState _ _ _ _⟩

/-- The reservation's daily cost still counts on the current accounting day. -/
abbrev CountsToday (date : Option Date) (s : ProjectQuotaState) : Prop :=
  date = none ∨ date = some s.accountingDate

/-- What is left of the daily reserved cost after a release. -/
def remainingCost (date : Option Date) (s : ProjectQuotaState) (reserved : ℚ) :
    ℚ :=
  if CountsToday date s then s.dailyReservedCost - reserved
  else s.dailyReservedCost

theorem releaseQuotaProspect_ok :
    releaseQuotaProspect now p d reserved settled date db = .ok next db'
      ↔ ∃ quota s vendor, Rows db p quota s ∧ d.Valid vendor ∧ 0 ≤ reserved
        ∧ 0 ≤ settled ∧ Covers (rollDailyState s now) vendor d
        ∧ (CountsToday date (rollDailyState s now) →
            reserved ≤ (rollDailyState s now).dailyReservedCost)
        ∧ next = releasedRow (rollDailyState s now) vendor d
            (remainingCost date (rollDailyState s now) reserved) settled
        ∧ db' = db.withQuotaState p (rollDailyState s now) := by
  unfold releaseQuotaProspect
  simp only [bind_ok, getLocked_ok, raiseIf_ok, pure_ok, not_lt,
    validateReservation_ok, normalizeAcceleratorVendor_ok, not_or, not_and]
  constructor
  · rintro ⟨_, _, ⟨⟨hcpu, hmem, hgpu, hres⟩, rfl⟩, _, _, ⟨hset, rfl⟩, _, _,
      ⟨quota, s, hq, hs, hsnd, rfl, rfl⟩, vendor, _, ⟨htyped, rfl⟩, _, _,
      ⟨hcov, rfl⟩, _, _, ⟨hday, rfl⟩, rfl, rfl⟩
    exact ⟨quota, s, vendor, ⟨hq, hs, hsnd⟩, ⟨hcpu, hmem, hgpu, htyped⟩, hres,
      hset, hcov, hday, rfl, rfl⟩
  · rintro ⟨quota, s, vendor, ⟨hq, hs, hsnd⟩, hv, hres, hset, hcov, hday, rfl, rfl⟩
    exact ⟨(), db, ⟨⟨hv.cpu, hv.memory, hv.gpu, hres⟩, rfl⟩, (), db,
      ⟨hset, rfl⟩, _, _, ⟨quota, s, hq, hs, hsnd, rfl, rfl⟩, vendor, _,
      ⟨hv.typed, rfl⟩, (), _, ⟨hcov, rfl⟩, (), _, ⟨hday, rfl⟩, rfl, rfl⟩

theorem releaseQuotaProspect_sound
    (h : releaseQuotaProspect now p d reserved settled date db = .ok next db') :
    next.Sound := by
  obtain ⟨_, _, _, ⟨-, -, hsnd⟩, -, -, hset, hcov, hday, rfl, -⟩ := releaseQuotaProspect_ok.mp h
  have hroll := rollDailyState_sound hsnd now
  refine releasedRow_sound hroll hcov ?_ hset
  unfold remainingCost
  split_ifs with hd
  · exact sub_nonneg.mpr (hday hd)
  · exact hroll.dailyReservedCost

/-- **RELEASING**: the row covers the demand, and the demand is subtracted. -/
theorem releaseQuota_ok : releaseQuota now p d reserved settled date db = .ok r db'
      ↔ ∃ quota s vendor, Rows db p quota s ∧ d.Valid vendor ∧ 0 ≤ reserved
        ∧ 0 ≤ settled ∧ Covers (rollDailyState s now) vendor d
        ∧ (CountsToday date (rollDailyState s now) →
            reserved ≤ (rollDailyState s now).dailyReservedCost)
        ∧ r = (releasedRow (rollDailyState s now) vendor d
            (remainingCost date (rollDailyState s now) reserved) settled).touched now
        ∧ db' = db.withQuotaState p r := by
  unfold releaseQuota
  rw [prospect_touch_ok]
  constructor
  · rintro ⟨_, _, hx, -, rfl, rfl⟩
    obtain ⟨quota, s, vendor, hrow, hv, hres, hset, hcov, hday, rfl, rfl⟩ :=
      releaseQuotaProspect_ok.mp hx
    exact ⟨quota, s, vendor, hrow, hv, hres, hset, hcov, hday, rfl,
      withQuotaState_withQuotaState _ _ _ _⟩
  · rintro ⟨quota, s, vendor, hrow, hv, hres, hset, hcov, hday, rfl, rfl⟩
    have hx := releaseQuotaProspect_ok.mpr
      ⟨quota, s, vendor, hrow, hv, hres, hset, hcov, hday, rfl, rfl⟩
    exact ⟨_, _, hx, releaseQuotaProspect_sound hx, rfl,
      (withQuotaState_withQuotaState _ _ _ _).symm⟩

theorem initializeQuota_ok : initializeQuota now p db = .ok snapshot db'
      ↔ db.projects.get? p = some .active
        ∧ snapshot.quota = (db.quotas.get? p).getD { updatedAt := now }
        ∧ snapshot.state = (db.quotaStates.get? p).getD
            { accountingDate := now.date, updatedAt := now }
        ∧ snapshot.state.Sound
        ∧ db' = { db with
            quotas := db.quotas.insert p snapshot.quota
            quotaStates := db.quotaStates.insert p snapshot.state } := by
  unfold initializeQuota
  simp only [bind_ok, get_ok, raiseIf_ok, not_not, modify_ok, assertStateNonnegative_ok, pure_ok]
  constructor
  · rintro ⟨_, _, ⟨rfl, rfl⟩, _, _, ⟨hp, rfl⟩, _, _, rfl, _, _, ⟨hs, rfl⟩, rfl, rfl⟩
    exact ⟨hp, rfl, rfl, hs, rfl⟩
  · obtain ⟨_, _⟩ := snapshot
    rintro ⟨hp, rfl, rfl, hs, rfl⟩
    exact ⟨db, db, ⟨rfl, rfl⟩, (), db, ⟨hp, rfl⟩, ⟨⟩, _, rfl, (), _, ⟨hs, rfl⟩, rfl, rfl⟩

/-- After the rows are inserted where they were missing, they are there. -/
theorem rows_of_insert {quota : ProjectQuota} {dq : ProjectQuota} {ds : ProjectQuotaState}
    (hq : quota = (db.quotas.get? p).getD dq) (hs : s = (db.quotaStates.get? p).getD ds)
    (hsnd : s.Sound) :
    Rows { db with
      quotas := db.quotas.insert p quota
      quotaStates := db.quotaStates.insert p s } p quota s := by
  refine ⟨?_, ?_, hsnd⟩
  · show (db.quotas.insert p quota).get? p = some quota
    cases hg : db.quotas.get? p with
    | none => exact get?_insert_self hg _
    | some =>
      rw [hg] at hq
      rw [get?_insert_of_some hg, hq, Option.getD_some]
  · show (db.quotaStates.insert p s).get? p = some s
    cases hg : db.quotaStates.get? p with
    | none => exact get?_insert_self hg _
    | some =>
      rw [hg] at hs
      rw [get?_insert_of_some hg, hs, Option.getD_some]

theorem rows_withQuotaState {quota : ProjectQuota} (h : Rows db p quota s) (hr : r.Sound) :
    Rows (db.withQuotaState p r) p quota r :=
  ⟨h.1, get?_set_self h.2.1 _, hr⟩

/-- Whether locking finds the rows or has to create them, they are there. -/
theorem lockOrInitialize_rows (h : lockOrInitialize now p db = .ok snapshot db') :
    Rows db' p snapshot.quota snapshot.state := by
  rcases catching_cases h with hg | ⟨_, mid, -, -, hi⟩
  · obtain ⟨_, _, hq, hs, hsnd, rfl, rfl⟩ := getLocked_ok.mp hg
    exact rows_withQuotaState ⟨hq, hs, hsnd⟩ (rollDailyState_sound hsnd now)
  · obtain ⟨-, hq, hs, hsnd, rfl⟩ := initializeQuota_ok.mp hi
    exact rows_of_insert hq hs hsnd

/-- The service counters `replace_service_commitment` is about to write are
    non-negative and within the limits; the task counters are untouched. -/
theorem serviceCommitmentProspect_ok {current desired : ℤ}
    (h : serviceCommitmentProspect now p current desired d db = .ok (s, next) db') :
    ∃ quota vendor, lockOrInitialize now p db = .ok ⟨quota, s⟩ db'
      ∧ Rows db' p quota s
      ∧ next = serviceRow s vendor current desired d.cpuMillicores d.memoryMb d.gpuCount
      ∧ next.Sound ∧ Capped quota next
      ∧ Within quota.maxServices next.serviceCount
      ∧ Within quota.maxServiceReplicas next.serviceReplicas := by
  unfold serviceCommitmentProspect validateServiceCommitment at h
  simp only [bind_ok, raiseIf_ok, pure_ok, normalizeAcceleratorVendor_ok,
    checkLimits_ok, List.forall_mem_cons, List.not_mem_nil, false_implies,
    implies_true, and_true, not_or, not_lt] at h
  obtain ⟨_, _, ⟨-, rfl⟩, ⟨quota, _⟩, _, hlock, vendor, _, ⟨-, rfl⟩, _, _,
    ⟨⟨hcnt, hrep, hcpu, hmem, hgpu, hnv, hasc⟩, rfl⟩, _, _,
    ⟨⟨wcount, wrep, wrun, wcpu, wmem, wgpu, wnv, wasc⟩, rfl⟩, hpair, rfl⟩ := h
  cases hpair
  have hrow := lockOrInitialize_rows hlock
  have hsnd := hrow.2.2
  refine ⟨quota, vendor, hlock, hrow, rfl, ?_, ?_, wcount, wrep⟩
  · exact { hsnd with
      serviceCount := hcnt
      serviceReplicas := hrep
      serviceReservedCpuMillicores := hcpu
      serviceReservedMemoryMb := hmem
      serviceReservedGpus := hgpu
      serviceReservedNvidiaGpus := hnv
      serviceReservedAscendNpus := hasc
      serviceTotal := rfl }
  · exact ⟨wrun, wcpu, wmem, wgpu, wnv, wasc⟩

/-- What `replace` accepts as new limits: they bound the current usage. -/
theorem replaceQuotaProspect_ok {limits : QuotaLimits}
    (h : replaceQuotaProspect now p limits db = .ok snapshot db') :
    ∃ quota s, Rows db p quota s
      ∧ snapshot.state = rollDailyState s now
      ∧ Capped snapshot.quota snapshot.state
      ∧ Within snapshot.quota.maxQueuedTasks snapshot.state.queuedTasks
      ∧ Within snapshot.quota.maxServices snapshot.state.serviceCount
      ∧ Within snapshot.quota.maxServiceReplicas snapshot.state.serviceReplicas
      ∧ db' = db.withQuotaState p snapshot.state := by
  unfold replaceQuotaProspect at h
  simp only [bind_ok, getLocked_ok, checkLimits_ok, pure_ok,
    List.forall_mem_cons, List.not_mem_nil, false_implies, implies_true,
    and_true] at h
  obtain ⟨_, mid, hneg, _, _, ⟨quota, s, hq, hs, hsnd, rfl, rfl⟩, _, _,
    ⟨⟨wq, wrun, wcpu, wmem, wgpu, wnv, wasc, wsvc, wrep, -⟩, rfl⟩, _, _, hmoney,
    rfl, rfl⟩ := h
  have hmid : mid = db := (refuseNegative_reads _).of_ok hneg
  subst hmid
  exact ⟨quota, s, ⟨hq, hs, hsnd⟩, rfl, ⟨wrun, wcpu, wmem, wgpu, wnv, wasc⟩, wq,
    wsvc, wrep, checkCostLimit_unchanged hmoney⟩

theorem replaceQuota_ok {limits : QuotaLimits} :
    replaceQuota now p limits db = .ok snapshot db'
      ↔ ∃ mid, replaceQuotaProspect now p limits db = .ok snapshot mid
        ∧ db' = { mid with quotas := mid.quotas.set p snapshot.quota } := by
  unfold replaceQuota
  simp only [bind_ok, modify_ok, pure_ok]
  constructor
  · rintro ⟨_, mid, hx, _, _, rfl, rfl, rfl⟩
    exact ⟨mid, hx, rfl⟩
  · rintro ⟨mid, hx, rfl⟩
    exact ⟨snapshot, mid, hx, ⟨⟩, _, rfl, rfl, rfl⟩

end Calls

end MiniAiCloud
