import MiniAiCloud.ReservationProofs

/-! # Releasing an owned execution

    `release_and_settle` refuses to give back more than the worker and the project
    show.  Where the counters are exact it never refuses; they are exact in every
    run in which a claim charges whole millicores.  A claim adds `cpu_limit` to
    `reserved_cpu` and a release subtracts `cpu_millicores / 1000`, so a task whose
    CPU limit was rounded up leaves its worker short. -/

namespace MiniAiCloud

open Transaction Reachability Cluster

variable {db' db : Db} {task : Task} {x : Uuid} {e : Err} {execution : TaskExecution}
  {final : TaskStatus} {reason : String}

/-! ## What the counters cover -/

/-- The book of a project covers a hold. -/
structure Book.Covers (b : Book) (e : Hold) : Prop where
  running : 1 ≤ b.running
  cpu : e.cpu ≤ b.cpu
  memory : e.memory ≤ b.memory
  nvidia : e.share .nvidia ≤ b.nvidia
  ascend : e.share .huaweiAscend ≤ b.ascend
  total : b.gpus = b.nvidia + b.ascend

theorem Hold.weigh_nonneg {M : Type} [Zero M] [Preorder M] {g : Hold → M} {e : Hold}
    (h : 0 ≤ g e) : 0 ≤ e.weigh g := by
  rw [Hold.weigh]
  by_cases hlive : e.live = true
  · rw [if_pos hlive]
    exact h
  · rw [if_neg hlive]

theorem Hold.share_nonneg {e : Hold} (h : 0 ≤ e.gpus) (v : AcceleratorVendor) :
    0 ≤ e.share v := by
  rw [Hold.share]
  by_cases hv : e.vendor.getD .nvidia = v
  · rw [if_pos hv]
    exact h
  · rw [if_neg hv]

namespace Cluster

variable {a : Cluster} {x : Uuid} {e : Hold}

/-- A counter row covers a live hold. -/
theorem covers_live {M ρ κ : Type} [AddCommMonoid M] [PartialOrder M] [IsOrderedAddMonoid M]
    [DecidableEq κ] {g : Hold → M} {key : Hold → κ} {rows : Table κ ρ} {shown : ρ → M}
    (h : Meter.Shows a.holds rows key (Hold.weigh g) shown)
    (hnn : ∀ y e', a.holds.get? y = some e' → 0 ≤ g e') (he : a.holds.get? x = some e)
    (hlive : e.live = true) {r : ρ} (hr : rows.get? (key e) = some r) : g e ≤ shown r := by
  have hle := h.covers (fun y e' hy => Hold.weigh_nonneg (hnn y e' hy)) he hr
  rw [Hold.weigh_live g hlive] at hle
  exact hle

/-- The book of the accounts covers every live hold. -/
theorem Accounts.book_covers (h : Accounts a) (he : a.holds.get? x = some e)
    (hlive : e.live = true) {book : Book} (hbook : a.books.get? e.project = some book) :
    book.Covers e := by
  have hgpus : ∀ y e', a.holds.get? y = some e' → 0 ≤ e'.gpus :=
    fun y e' hy => (h.sized y e' hy).gpus
  exact {
    running := covers_live h.bookRunning (fun _ _ _ => zero_le_one) he hlive hbook
    cpu := covers_live h.bookCpu (fun y e' hy => (h.sized y e' hy).cpu.le) he hlive hbook
    memory := covers_live h.bookMemory (fun y e' hy => (h.sized y e' hy).memory.le) he hlive hbook
    nvidia := covers_live h.bookNvidia (fun y e' hy => Hold.share_nonneg (hgpus y e' hy) _)
      he hlive hbook
    ascend := covers_live h.bookAscend (fun y e' hy => Hold.share_nonneg (hgpus y e' hy) _)
      he hlive hbook
    total := h.typed e.project book hbook }

end Cluster

/-! ## What a release needs -/

/-- A reservation that can be released: its worker, its project and its execution
    are as the release expects them. -/
structure Releasable (db : Db) (x : Uuid) (r : ResourceReservation) : Prop where
  active : Active db x r
  cpu : 0 ≤ r.cpuMillicores
  memory : 0 ≤ r.memoryMb
  gpus : 0 ≤ r.gpuCount
  typed : r.gpuCount = 0 ∨ r.requestedVendor ≠ none
  worker : ∀ worker, db.workers.get? r.workerId = some worker → ¬ worker.Below r
  quota : ∃ quota s, Rows db r.projectId quota s ∧ s.book.Covers r.hold
  execution : ∃ execution, db.executions.get? x = some execution
    ∧ 0 ≤ execution.cpuMillicores ∧ 0 ≤ execution.memoryMb ∧ 0 ≤ execution.gpuCount

section Returns

variable {db : Db} {now : Time} {x t : Uuid} {r : ResourceReservation}

/-- The demand of a reservation is valid, typed by its vendor. -/
theorem ResourceReservation.demand_valid (hcpu : 0 ≤ r.cpuMillicores)
    (hmm : 0 ≤ r.memoryMb) (hgpus : 0 ≤ r.gpuCount)
    (htyped : r.gpuCount = 0 ∨ r.requestedVendor ≠ none) :
    r.demand.Valid (if r.gpuCount = 0 then none else r.requestedVendor) := by
  refine ⟨hcpu, hmm, hgpus, ?_⟩
  show r.gpuCount = 0 ∧ _ ∨ r.gpuCount ≠ 0 ∧ _ ∧ _
    = vendorOf (r.requestedVendor.map AcceleratorVendor.value)
  split_ifs with hzero
  · exact Or.inl ⟨hzero, rfl⟩
  · have hven := htyped.resolve_left hzero
    refine Or.inr ⟨hzero, hven, ?_⟩
    cases hv : r.requestedVendor with
    | none => exact absurd hv hven
    | some v =>
      cases v with
      | nvidia => rfl
      | huaweiAscend => rfl

/-- A row whose book covers the hold covers the demand. -/
theorem covers_of_book {s : ProjectQuotaState} (h : s.book.Covers r.hold)
    (htyped : r.gpuCount = 0 ∨ r.requestedVendor ≠ none) :
    MiniAiCloud.Covers s (if r.gpuCount = 0 then none else r.requestedVendor) r.demand := by
  have htotal : r.gpuCount ≤ s.reservedGpus := by
    have hsum : r.hold.share .nvidia + r.hold.share .huaweiAscend = r.gpuCount := r.hold.share_total
    have hgpus' : s.reservedGpus = s.reservedNvidiaGpus + s.reservedAscendNpus := h.total
    have hn : r.hold.share .nvidia ≤ s.reservedNvidiaGpus := h.nvidia
    have ha : r.hold.share .huaweiAscend ≤ s.reservedAscendNpus := h.ascend
    omega
  refine ⟨h.running, h.cpu, h.memory, htotal, ?_⟩
  show r.gpuCount ≤ _
  by_cases hzero : r.gpuCount = 0
  · rw [if_pos hzero, hzero]
    exact le_refl 0
  · rw [if_neg hzero]
    have hven := htyped.resolve_left hzero
    have hshare : ∀ v, r.requestedVendor = some v → r.hold.share v = r.gpuCount := by
      intro v hv
      show (if r.requestedVendor.getD .nvidia = v then r.gpuCount else 0) = r.gpuCount
      rw [hv]
      exact if_pos rfl
    cases hv : r.requestedVendor with
    | none => exact absurd hv hven
    | some v =>
      rw [← hshare v hv]
      cases v with
      | nvidia => exact h.nvidia
      | huaweiAscend => exact h.ascend

/-- The worker step raises only where the worker shows too little. -/
theorem releaseWorker_error (h : releaseWorker r db = .error e db') :
    ∃ worker, db.workers.get? r.workerId = some worker ∧ worker.Below r := by
  rw [releaseWorker, bind_get] at h
  cases hw : db.workers.get? r.workerId with
  | none =>
    simp only [hw] at h
    exact absurd h pure_error
  | some worker =>
    simp only [hw] at h
    rcases bind_error.mp h with hbelow | ⟨_, _, _, hwrite⟩
    · exact ⟨worker, rfl, (raiseIf_error.mp hbelow).1⟩
    · exact absurd hwrite modify_error

theorem ledgerEntry_cost_nonneg (hcpu : 0 ≤ execution.cpuMillicores)
    (hmm : 0 ≤ execution.memoryMb) (hgpus : 0 ≤ execution.gpuCount) (started : Time) :
    0 ≤ (ledgerEntry t r execution started now).cost := by
  have hdur : (0 : ℚ) ≤ max 0 (now - started) := le_max_left _ _
  have hcpu' : (0 : ℚ) ≤ execution.cpuMillicores := Int.cast_nonneg hcpu
  have hmm' : (0 : ℚ) ≤ execution.memoryMb := Int.cast_nonneg hmm
  have hgpus' : (0 : ℚ) ≤ execution.gpuCount := Int.cast_nonneg hgpus
  have hp := execution.prices.cpu_nonneg
  have hm := execution.prices.memory_nonneg
  have hg := execution.prices.gpu_nonneg
  show 0 ≤ _ * execution.prices.cpuPerHour / 3600
    + _ * execution.prices.memoryPerGbHour / 3600 + _ * execution.prices.gpuPerHour / 3600
  positivity

/-- What the ledger step settles is no credit. -/
theorem settleLedger_nonneg {startedAt : Option Time} {settled : Option ℚ}
    (hcpu : 0 ≤ execution.cpuMillicores) (hmm : 0 ≤ execution.memoryMb)
    (hgpus : 0 ≤ execution.gpuCount)
    (h : settleLedger now t x r execution startedAt db = .ok settled db') :
    0 ≤ settled.getD 0 := by
  rw [settleLedger, bind_get] at h
  cases startedAt with
  | none =>
    obtain ⟨rfl, _⟩ := pure_ok.mp h
    exact le_refl 0
  | some started =>
    by_cases hsett : (db.usageLedger.get? x).isSome = true
    · simp only [hsett, if_true] at h
      obtain ⟨rfl, _⟩ := pure_ok.mp h
      exact le_refl 0
    · simp only [hsett, Bool.false_eq_true, if_false, bind_ok, pure_ok] at h
      obtain ⟨_, _, _, _, _, _, rfl, _⟩ := h
      exact ledgerEntry_cost_nonneg hcpu hmm hgpus started

/-- The ledger step raises only where the execution would end before it
    started. -/
theorem settleLedger_error {startedAt : Option Time}
    (h : settleLedger now t x r execution startedAt db = .error e db') :
    e = .integrityError "period" ∧ ∃ started, startedAt = some started ∧ now < started := by
  rw [settleLedger, bind_get] at h
  cases startedAt with
  | none => exact absurd h pure_error
  | some started =>
    by_cases hsett : (db.usageLedger.get? x).isSome = true
    · simp only [hsett, if_true] at h
      exact absurd h pure_error
    · simp only [hsett, Bool.false_eq_true, if_false] at h
      rcases bind_error.mp h with hperiod | ⟨_, _, _, hr⟩
      · obtain ⟨hlt, rfl, _⟩ := raiseIf_error.mp hperiod
        exact ⟨rfl, started, rfl, hlt⟩
      · rcases bind_error.mp hr with hwrite | ⟨_, _, _, hpure⟩
        · exact absurd hwrite modify_error
        · exact absurd hpure pure_error

/-- Nothing but an active reservation is released, and it always is. -/
theorem releaseAndSettle_true {task' : Task} {released : Bool} (hact : Active db x r)
    (h : releaseAndSettle now t task x final reason db = .ok (released, task') db') :
    released = true := by
  rw [releaseAndSettle, bind_get, activeReservation_eq_some.mpr hact] at h
  simp only [bind_ok, pure_ok, Prod.mk.injEq] at h
  obtain ⟨_, _, _, _, _, _, _, _, _, _, _, _, _, _, _, _, _, _, _, _, _, ⟨rfl, _⟩, _⟩ := h
  rfl

/-- The books of a releasable reservation take the demand back. -/
theorem Releasable.releaseQuota_returns (h : Releasable db x r) {mid : Db}
    (hqs : mid.quotas = db.quotas)
    (hsts : ∀ s, db.quotaStates.get? r.projectId = some s →
      mid.quotaStates.get? r.projectId = some (rollDailyState s now))
    {settled : ℚ} (hsett : 0 ≤ settled) (date : Option Date) :
    ∃ row mid', releaseQuota now r.projectId r.demand 0 settled date mid = .ok row mid' := by
  obtain ⟨quota, s, ⟨hquota, hst, hsnd⟩, hcov⟩ := h.quota
  have hrol := rollDailyState_sound hsnd now
  refine ⟨_, _, releaseQuota_ok.mpr ⟨quota, rollDailyState s now, _, ⟨?_, ?_, ?_⟩,
    ResourceReservation.demand_valid h.cpu h.memory h.gpus h.typed, le_refl 0, hsett, ?_,
    ?_, rfl, rfl⟩⟩
  · rw [hqs]
    exact hquota
  · exact hsts s hst
  · exact hrol
  · refine covers_of_book ?_ h.typed
    rw [rollDailyState_book, rollDailyState_book]
    exact hcov
  · intro _
    exact (rollDailyState_sound hrol now).dailyReservedCost

/-- **RELEASING RETURNS**: a releasable reservation is released, unless its
    execution would end before it started. -/
theorem Releasable.error (h : Releasable db x r)
    (hrun : releaseAndSettle now t task x final reason db = .error e db') :
    e = .integrityError "period"
      ∧ ∃ started, task.startedAt = some started ∧ now < started := by
  obtain ⟨quota, s, ⟨hquota, hst, hsnd⟩, _⟩ := h.quota
  obtain ⟨execution, hexec, hcpu, hmm, hgpus⟩ := h.execution
  rw [releaseAndSettle, bind_get, activeReservation_eq_some.mpr h.active] at hrun
  rcases bind_error.mp hrun with hfail | ⟨_, mid₁, hlock, hrun⟩
  · rw [getLocked_ok.mpr ⟨quota, s, hquota, hst, hsnd, rfl, rfl⟩] at hfail
    cases hfail
  obtain ⟨_, s', _, hs', _, _, hmid₁⟩ := getLocked_ok.mp hlock
  rcases bind_error.mp hrun with hfail | ⟨_, mid₂, hwk, hrun⟩
  · rw [hmid₁] at hfail
    obtain ⟨worker, hw, hbelow⟩ := releaseWorker_error hfail
    exact absurd hbelow (h.worker worker hw)
  obtain ⟨_, hmid₂, _⟩ := releaseWorker_ok hwk
  rcases bind_error.mp hrun with hfail | ⟨_, mid₃, hrows, hrun⟩
  · exact absurd hfail modify_error
  rcases bind_error.mp hrun with hfail | ⟨execution', _, hf, hrun⟩
  · have hmiss := (expect_error.mp hfail).1
    rw [hexec] at hmiss
    cases hmiss
  obtain ⟨hf, rfl⟩ := expect_ok.mp hf
  rw [hexec] at hf
  cases hf
  rcases bind_error.mp hrun with hfail | ⟨_, mid₄, hended, hrun⟩
  · exact absurd hfail modify_error
  rcases bind_error.mp hrun with hfail | ⟨settled, mid₅, hledg, hrun⟩
  · exact settleLedger_error hfail
  obtain ⟨_, hmid₅⟩ := settleLedger_ok hledg
  rcases bind_error.mp hrun with hfail | ⟨_, _, _, hrun⟩
  · -- the row the books are taken from is the locked one
    have hmid : mid₅.quotas = db.quotas
        ∧ mid₅.quotaStates = db.quotaStates.set r.projectId (rollDailyState s' now) := by
      rw [hmid₅, modify_ok.mp hended, modify_ok.mp hrows, hmid₂, hmid₁]
      exact ⟨rfl, rfl⟩
    have hlckd : ∀ s₀, db.quotaStates.get? r.projectId = some s₀ →
        mid₅.quotaStates.get? r.projectId = some (rollDailyState s₀ now) := by
      intro _ hs₀
      rw [hs'] at hs₀
      rw [hmid.2, ← Option.some.inj hs₀]
      exact Table.get?_set_self hs' _
    obtain ⟨_, _, hrel⟩ := h.releaseQuota_returns hmid.1 hlckd
      (settleLedger_nonneg hcpu hmm hgpus hledg) (some r.createdAt.date)
    rw [hrel] at hfail
    cases hfail
  · exact absurd hrun pure_error

end Returns

/-! ## Runs that charge whole millicores -/

/-- Workers report final statuses and claim whole millicores. -/
abbrev wholeClaims : Call → Db → Prop :=
  fun i db => i.op.ReportsFinal ∧ i.op.ClaimsWhole db

/-- What a release relies on: the accounts, the CPU of the workers and the quota
    rows. -/
structure Settled (db : Db) : Prop where
  accounts : Accounts db.cluster
  cpu : CpuExact db.cluster
  rows : QuotaRows db

/-- What follows the cluster with whole charges stays settled. -/
theorem Settled.follows (h : Settled db) (hfol : Follows wholeRules db db') :
    Settled db' := by
  have hboth : ∀ a b, Accounts a ∧ CpuExact a → Step wholeRules a b →
      Accounts b ∧ CpuExact b := fun a b ha hstep =>
    ⟨ha.1.step (fun _ hs => hs) hstep, ha.2.step (fun _ _ hc => hc) ha.1 hstep⟩
  obtain ⟨haccs, hcpu⟩ := hfol.keeps hboth ⟨h.accounts, h.cpu⟩
  exact ⟨haccs, hcpu, hfol.rows h.rows⟩

/-- With whole claims, every reachable state is settled. -/
theorem reach_settled (h : Reach controlPlane wholeClaims db) : Settled db := by
  refine h.invariant (I := Settled) ?_ ?_
  · rintro _ ⟨_, rfl⟩
    refine ⟨Accounts.empty, ?_, ?_⟩
    · intro _ _ hslot
      cases hslot
    · intro _ _ hrow
      cases hrow
  · intro i s hs hi
    exact hs.follows (step_follows hs.accounts.lifecycle (wholeRules_keeps hi.1 hi.2))

/-- The worker of an active reservation shows enough to give it back. -/
theorem Settled.not_below (h : Settled db) {r : ResourceReservation} (hact : Active db x r) :
    ∀ worker, db.workers.get? r.workerId = some worker → ¬ worker.Below r := by
  obtain ⟨he, hlive⟩ := hact.hold
  have hall := h.accounts.sized
  intro worker hw hbelow
  have hslot := cluster_slot hw
  have hrng := covers_live h.accounts.slotRunning (fun _ _ _ => zero_le_one) he hlive hslot
  have hcpu := covers_live h.cpu
    (fun y e hy => div_nonneg (Int.cast_nonneg (hall y e hy).cpu.le) (by norm_num))
    he hlive hslot
  have hmm := covers_live h.accounts.slotMemory (fun y e hy => (hall y e hy).memory.le)
    he hlive hslot
  have hgpus := covers_live h.accounts.slotGpus (fun y e hy => (hall y e hy).gpus) he hlive hslot
  rcases hbelow with hlt | hlt | hlt | hlt
  · exact absurd hrng (not_le.mpr hlt)
  · have htolerance : worker.reservedCpu ≤ worker.reservedCpu + cpuTolerance :=
      le_add_of_nonneg_right (by norm_num [cpuTolerance])
    exact absurd (le_trans hcpu htolerance) (not_le.mpr hlt)
  · exact absurd hmm (not_le.mpr hlt)
  · exact absurd hgpus (not_le.mpr hlt)

/-- In a settled state every active reservation can be released. -/
theorem Settled.releasable (h : Settled db) {r : ResourceReservation} (hact : Active db x r) :
    Releasable db x r := by
  obtain ⟨he, hlive⟩ := hact.hold
  have hsized := h.accounts.sized x r.hold he
  obtain ⟨_, hjob, _, _, _, hproj, _⟩ := h.accounts.owned.owner x r.hold he hlive
  obtain ⟨_, hrow, rfl⟩ := Table.get?_map_eq_some.mp hjob
  obtain ⟨s, hs⟩ := h.accounts.lifecycle.state hrow
  have hs' : db.quotaStates.get? r.projectId = some s := by
    rw [← hs]
    exact congrArg _ hproj.symm
  obtain ⟨hsnd, hquota⟩ := h.rows _ s hs'
  obtain ⟨quota, hquota⟩ := Option.ne_none_iff_exists'.mp hquota
  obtain ⟨execution, hexec, hgrant⟩ := Table.get?_map_eq_some.mp hsized.minted
  refine ⟨hact, hsized.cpu.le, hsized.memory.le, hsized.gpus, hsized.typed, ?_,
    ⟨quota, s, ⟨hquota, hs', hsnd⟩, h.accounts.book_covers he hlive (cluster_book hs')⟩,
    execution, hexec, ?_, ?_, ?_⟩
  · exact h.not_below hact
  · exact le_of_le_of_eq hsized.cpu.le (congrArg Grant.cpu hgrant).symm
  · exact le_of_le_of_eq hsized.memory.le (congrArg Grant.memory hgrant).symm
  · exact le_of_le_of_eq hsized.gpus (congrArg Grant.gpus hgrant).symm

/-- The active reservation of the current execution. -/
theorem Settled.current (h : Settled db) {t : Uuid} (hrow : db.tasks.get? t = some task)
    (hact : task.status ∈ activeTaskStatuses) (hx : task.executionId = some x) :
    ∃ r, Active db x r := by
  have hheld := holding_of_active h.accounts.lifecycle hrow hact
  obtain ⟨e, he, hlive, _⟩ := h.accounts.owned.hold (cluster_job hrow) hheld hx
  obtain ⟨r, hr, _⟩ := active_of_hold he hlive
  exact ⟨r, hr⟩

/-- A release keeps the CPU of the workers exact. -/
theorem Settled.released_cpu (h : Settled db) {now : Time} {t : Uuid} {task' : Task}
    (hrun : releaseAndSettle now t task x final reason db = .ok (true, task') db')
    {w : WorkerId} {worker : Worker} (hw : db'.workers.get? w = some worker) :
    worker.reservedCpu = activeTotal db' (·.workerId = w)
      (fun r => (r.cpuMillicores : ℚ) / 1000) := by
  obtain ⟨r, book, hr, hn, _, hclus, _⟩ := releaseAndSettle_released hrun
  have hact : Active db x r := ⟨hr, hn⟩
  have hcpu : CpuExact db'.cluster := by
    rw [hclus]
    exact (slotCpu (R := wholeRules) (fun _ _ hc => hc)).release h.cpu hact.hold.1
      hact.hold.2 book
  exact (hcpu w worker.slot (cluster_slot hw)).trans (total_holds db' _ _ w)

/-- **RELEASING AN OWNED EXECUTION**: in every run of whole claims, releasing the
    current execution of an active task raises no violated invariant, and leaves
    every worker with the CPU of its remaining reservations.  The one thing it may
    refuse is a clock before the start of the task. -/
theorem releasing_owned_execution (db : Db) (h : Reach controlPlane wholeClaims db)
    (t x : Uuid) (task : Task) (hrow : db.tasks.get? t = some task)
    (hact : task.status ∈ activeTaskStatuses) (hx : task.executionId = some x)
    (now : Time) (final : TaskStatus) (reason : String) :
    match releaseAndSettle now t task x final reason db with
    | .ok result db' => result.1 = true
        ∧ ∀ w worker, db'.workers.get? w = some worker →
            worker.reservedCpu = activeTotal db' (fun r => r.workerId = w)
              (fun r => (r.cpuMillicores : ℚ) / 1000)
    | .error e _ => e = .integrityError "period"
        ∧ ∃ started, task.startedAt = some started ∧ now < started := by
  have hsett := reach_settled h
  obtain ⟨r, hr⟩ := hsett.current hrow hact hx
  cases hrun : releaseAndSettle now t task x final reason db with
  | ok result =>
    obtain ⟨_, _⟩ := result
    obtain rfl := releaseAndSettle_true hr hrun
    exact ⟨rfl, fun w worker hw => hsett.released_cpu hrun hw⟩
  | error => exact (hsett.releasable hr).error hrun

/-- The worker releases what it claimed. -/
theorem releasing_half_core :
    ∃ task, afterClaim.tasks.get? 1 = some task ∧ task.status ∈ activeTaskStatuses
      ∧ task.executionId = some 11
      ∧ match releaseAndSettle 4 1 task 11 .failed "failed" afterClaim with
        | .ok result db' => result.1 = true
            ∧ ∀ w worker, db'.workers.get? w = some worker →
                worker.reservedCpu = activeTotal db' (fun r => r.workerId = w)
                  (fun r => (r.cpuMillicores : ℚ) / 1000)
        | .error e _ => e = .integrityError "period"
            ∧ ∃ started, task.startedAt = some started ∧ 4 < started := by
  have hclaim : (afterClaim.tasks.get? 1).map (fun task => (task.status, task.executionId))
      = some (.pulling, some 11) := by decide +kernel
  obtain ⟨task, hrow, hpair⟩ := Option.map_eq_some_iff.mp hclaim
  obtain ⟨hpull, hx⟩ := Prod.mk.inj hpair
  have hact : task.status ∈ activeTaskStatuses := by
    rw [hpull]
    decide
  have hrun : Reach controlPlane wholeClaims afterClaim :=
    (Reach.init freshCloud_init).run claimedCalls (by decide +kernel)
  exact ⟨task, hrow, hact, hx,
    releasing_owned_execution afterClaim hrun 1 11 task hrow hact hx 4 .failed "failed"⟩

/-- A worker claims a task of 0.5006 cores, which the task row rounds up to 501
    millicores. -/
def fractionCalls : List Call :=
  [⟨0, registerWorker⟩, ⟨1, .createQueued 1 { halfCoreTask [] with cpuLimit := 5006 / 10000 }⟩,
   ⟨2, .claim 1 "w" 11 30 none standardPrices []⟩]

def fractionCloud : Db := controlPlane.run fractionCalls freshCloud

/-- The claim charged 0.5006 cores to the worker and the release asks for 0.501, so
    the release of the running execution is refused. -/
theorem fraction_not_released : Reach controlPlane finalReports fractionCloud
      ∧ ∃ task, fractionCloud.tasks.get? 1 = some task ∧ task.status = .assigned
        ∧ task.executionId = some 11
        ∧ ∃ db', releaseAndSettle 3 1 task 11 .failed "failed" fractionCloud
          = .error (.resourceInvariantViolation
              "worker w aggregate capacity is below active reservation") db' := by
  refine ⟨freshCloud_final _ (by decide), ?_⟩
  have hclaim : (fractionCloud.tasks.get? 1).map (fun task => (task.status, task.executionId,
        raised (releaseAndSettle 3 1 task 11 .failed "failed") fractionCloud))
      = some (.assigned, some 11, some (.resourceInvariantViolation
          "worker w aggregate capacity is below active reservation")) := by decide +kernel
  obtain ⟨task, hrow, hf⟩ := Option.map_eq_some_iff.mp hclaim
  simp only [Prod.mk.injEq] at hf
  exact ⟨task, hrow, hf.1, hf.2.1, raised_eq_some.mp hf.2.2⟩

end MiniAiCloud
