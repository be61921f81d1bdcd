import MiniAiCloud.ChronicleProofs
import MiniAiCloud.ReservationProofs

/-! # Attempts are bounded by their budgets

    An execution is minted for a queued task, and a task gets back to the queue
    only on a budget: a retry, a recovery or a preemption.  The counters are
    charged at different moments (a preemption when it is asked for, a retry when
    it is admitted), so the bound is kept together with the status. -/

namespace MiniAiCloud

open Reachability Cluster Chronicle Table List Entry

/-! ## Counting -/

/-- The numbers from one to `n`. -/
def upTo (n : ℕ) : List ℤ := (List.range n).map (fun k : ℕ => (k : ℤ) + 1)

theorem upTo_length (n : ℕ) : (upTo n).length = n := by
  rw [upTo, length_map, length_range]

theorem upTo_succ (n : ℕ) : upTo (n + 1) = upTo n ++ [(n : ℤ) + 1] := by
  rw [upTo, range_succ, map_append]
  rfl

/-- The last of the numbers is the greatest. -/
theorem upTo_max (n : ℕ) : (upTo n).foldl max 0 = (n : ℤ) := by
  induction n with
  | zero => rfl
  | succ n ih =>
    rw [upTo_succ, foldl_append, ih]
    show max (n : ℤ) ((n : ℤ) + 1) = ((n + 1 : ℕ) : ℤ)
    omega

/-- The attempt numbers of a task, in the order they were minted. -/
def Chronicle.attempts (c : Chronicle) (t : Uuid) : List ℤ :=
  (c.bills.select (fun _ bill => bill.task = t)).map (fun row => row.2.attempt)

/-- The current attempt of a task in this status is not charged to a counter. -/
def uncharged (s : TaskStatus) : ℤ :=
  if s ∈ [TaskStatus.pending, .queued, .scheduling, .retrying, .preempting, .preempted]
  then 0 else 1

/-- How many executions a task may have had. -/
def Entry.allowance (e : Entry) : ℤ :=
  e.retries + e.recoveries + e.preemptions + uncharged e.status

/-- The attempts are numbered without gaps and stay below the allowance. -/
structure Chronicle.Budgeted (M : ℤ) (c : Chronicle) : Prop where
  minted : ∀ t, ∃ n : ℕ, c.attempts t = upTo n
    ∧ (n : ℤ) ≤ ((c.entries.get? t).map allowance).getD 0
  retries : ∀ t e, c.entries.get? t = some e → 0 ≤ e.spec.maxRetries →
    e.retries ≤ e.spec.maxRetries
  recoveries : ∀ t e, c.entries.get? t = some e → 0 ≤ M → e.recoveries ≤ M

/-! ## What the status says -/

theorem uncharged_nonneg (s : TaskStatus) : 0 ≤ uncharged s := by
  cases s <;> decide

/-- A task that waits or launches changes without a charge. -/
theorem Entry.Changes.uncharged_le {T : Terms} {e e' : Entry} {target : TaskStatus}
    (h : e.Changes T target e') : uncharged e.status ≤ uncharged target := by
  rcases h.kind with ⟨hwaits, _⟩ | ⟨hlau, htgt⟩
  · have hzero : uncharged e.status = 0 := by
      revert hwaits
      cases e.status <;> decide
    rw [hzero]
    exact uncharged_nonneg target
  · have hone : uncharged target = 1 := by
      revert htgt
      cases target <;> decide
    rw [hone]
    cases e.status <;> decide

/-- Only the request to stop uncharges a running attempt: a task ends as preempted
    where it was asked to. -/
theorem uncharged_move : ∀ s ∈ holdingStatuses, ∀ u ∈ allowedTransitions s,
    u ≠ .preempting → uncharged s ≤ uncharged u := by
  decide

theorem final_ne_preempting : ∀ s ∈ finalTaskStatuses, s ≠ .preempting := by
  decide

section Deeds

variable {M : ℤ} {T : Terms} {c c' : Chronicle} {u : Uuid} {e e' : Entry}

/-- No execution is minted, and the entry of one task may have more than before. -/
theorem Chronicle.Budgeted.set (h : c.Budgeted M) (hbills : c'.bills = c.bills)
    (hent : c.entries.get? u = some e) (hents : c'.entries = c.entries.set u e')
    (hallow : e.allowance ≤ e'.allowance)
    (hrtr : 0 ≤ e'.spec.maxRetries → e'.retries ≤ e'.spec.maxRetries)
    (hrecs : 0 ≤ M → e'.recoveries ≤ M) : c'.Budgeted M := by
  refine ⟨?_, ?_, ?_⟩
  · intro t
    obtain ⟨n, hatt, hn⟩ := h.minted t
    refine ⟨n, by rw [Chronicle.attempts, hbills]; exact hatt, ?_⟩
    rw [hents]
    by_cases htu : t = u
    · rw [htu, get?_set_self hent]
      rw [htu, hent] at hn
      exact hn.trans hallow
    · rw [get?_set_ne _ _ htu]
      exact hn
  · intro t found hf
    rw [hents] at hf
    rcases get?_set_cases hf with ⟨_, rfl⟩ | ⟨_, hold⟩
    · exact hrtr
    · exact h.retries t found hold
  · intro t found hf
    rw [hents] at hf
    rcases get?_set_cases hf with ⟨_, rfl⟩ | ⟨_, hold⟩
    · exact hrecs
    · exact h.recoveries t found hold

/-- The same for an entry that keeps its counters. -/
theorem Chronicle.Budgeted.moved (h : c.Budgeted M) (hbills : c'.bills = c.bills)
    (hent : c.entries.get? u = some e) (hents : c'.entries = c.entries.set u e')
    (heq : e.Same e') (hst : uncharged e.status ≤ uncharged e'.status) :
    c'.Budgeted M := by
  refine h.set hbills hent hents ?_ ?_ ?_
  · rw [allowance, allowance, heq.retries, heq.recoveries, heq.preemptions]
    omega
  · rw [heq.spec, heq.retries]
    exact h.retries u e hent
  · rw [heq.recoveries]
    exact h.recoveries u e hent

/-- **MINTING**: the attempt of a queued task is the next one. -/
theorem Chronicle.Budgeted.assigned {x : Uuid} {events : List TaskEvent} {bill : Bill}
    {stub : Stub} (h : c.Budgeted M) (hassigns : c.Assigns u x e e' events bill stub)
    (hbills : c'.bills = c.bills.insert x bill)
    (hents : c'.entries = c.entries.set u e') : c'.Budgeted M := by
  have hrows : c'.bills.rows = c.bills.rows ++ [(x, bill)] := by
    rw [hbills, insert_rows hassigns.bill_fresh]
  have hatt : ∀ t, c'.attempts t
      = c.attempts t ++ if u = t then [c.lastAttempt u + 1] else [] := by
    intro t
    rw [Chronicle.attempts, Chronicle.attempts, Table.select, Table.select, hrows,
      filter_append, map_append]
    congr 1
    by_cases hut : u = t
    · rw [if_pos hut, filter_cons, if_pos (decide_eq_true (hassigns.bill_task.trans hut))]
      show [bill.attempt] = _
      rw [hassigns.bill_attempt]
    · rw [if_neg hut, filter_cons, if_neg]
      · rfl
      · exact fun heq => hut (hassigns.bill_task.symm.trans (of_decide_eq_true heq))
  refine ⟨?_, ?_, ?_⟩
  · intro t
    obtain ⟨n, hn, hle⟩ := h.minted t
    rw [hents, hatt t, hn]
    by_cases hut : u = t
    · subst hut
      have hlast : c.lastAttempt u = (n : ℤ) := by
        show (c.attempts u).foldl max 0 = (n : ℤ)
        rw [hn, upTo_max]
      refine ⟨n + 1, by rw [if_pos rfl, hlast, upTo_succ], ?_⟩
      rw [hassigns.entry] at hle
      have hle' : (n : ℤ) ≤ e.allowance := hle
      rw [get?_set_self hassigns.entry]
      show ((n + 1 : ℕ) : ℤ) ≤ e'.allowance
      rw [allowance, hassigns.queued] at hle'
      rw [allowance, hassigns.status, hassigns.retries, hassigns.recoveries, hassigns.preemptions]
      have hque : uncharged .queued = 0 := by decide
      have hasg : uncharged .assigned = 1 := by decide
      rw [hque] at hle'
      rw [hasg]
      omega
    · refine ⟨n, by rw [if_neg hut, append_nil], ?_⟩
      rw [get?_set_ne _ _ (fun htu => hut htu.symm)]
      exact hle
  · intro t found hf
    rw [hents] at hf
    rcases get?_set_cases hf with ⟨_, rfl⟩ | ⟨_, hold⟩
    · rw [hassigns.spec, hassigns.retries]
      exact h.retries u e hassigns.entry
    · exact h.retries t found hold
  · intro t found hf
    rw [hents] at hf
    rcases get?_set_cases hf with ⟨_, rfl⟩ | ⟨_, hold⟩
    · rw [hassigns.recoveries]
      exact h.recoveries u e hassigns.entry
    · exact h.recoveries t found hold

/-- A requeue moves the current attempt from the status to a counter. -/
theorem Entry.Charges.allowance {charged : Entry} (h : e.Charges T charged)
    (hent' : e'.retries = charged.retries ∧ e'.recoveries = charged.recoveries
      ∧ e'.preemptions = charged.preemptions) (hst : e'.status = .retrying) :
    e.allowance ≤ e'.allowance := by
  obtain ⟨hrtr, hrecs, hpre⟩ := hent'
  rw [Entry.allowance, Entry.allowance, hrtr, hrecs, hpre, hst]
  have hfail : uncharged .failed = 1 := by decide
  have htimedOut : uncharged .timedOut = 1 := by decide
  have hpreempted : uncharged .preempted = 0 := by decide
  have hretry : uncharged .retrying = 0 := by decide
  rw [hretry]
  cases h with
  | retry hs =>
    rcases hs with hs | hs
    · rw [hs, hfail]
      dsimp only
      omega
    · rw [hs, htimedOut]
      dsimp only
      omega
  | recovery hs =>
    rw [hs, hfail]
    dsimp only
    omega
  | preempted hs =>
    rw [hs, hpreempted]

/-- **EVERY DEED** keeps to the budgets. -/
theorem Chronicle.Budgeted.deed (hT : T.attempts = M) (h : c.Budgeted M)
    (hdeed : Deed T c c') : c'.Budgeted M := by
  cases hdeed with
  | openDay p hnew | roll p day hday => exact ⟨h.minted, h.retries, h.recoveries⟩
  | create t e _ hnew hst _ _ hcnts =>
    obtain ⟨hrtr, hrecs, hpreemptions⟩ := hcnts
    refine ⟨?_, ?_, ?_⟩
    · intro u
      obtain ⟨n, hatt, hn⟩ := h.minted u
      refine ⟨n, hatt, ?_⟩
      show (n : ℤ) ≤ (((c.entries.insert t e).get? u).map allowance).getD 0
      by_cases hut : u = t
      · rw [hut, get?_insert_self hnew]
        rw [hut, hnew] at hn
        have hpend : uncharged .pending = 0 := by decide
        show (n : ℤ) ≤ e.allowance
        rw [allowance, hrtr, hrecs, hpreemptions, hst, hpend]
        exact hn
      · rw [get?_insert_ne _ _ hut]
        exact hn
    · intro u found hf
      rcases get?_insert_cases hf with ⟨_, rfl⟩ | hold
      · rw [hrtr]
        exact id
      · exact h.retries u found hold
    · intro u found hf
      rcases get?_insert_cases hf with ⟨_, rfl⟩ | hold
      · rw [hrecs]
        exact id
      · exact h.recoveries u found hold
  | adjust _ _ _ hent hadj =>
    exact h.moved rfl hent rfl hadj.toSame (by rw [hadj.status])
  | change _ _ _ _ _ hent hchg =>
    refine h.moved rfl hent rfl hchg.toSame ?_
    rw [hchg.status]
    exact hchg.uncharged_le
  | assign _ _ _ _ _ _ _ hasg => exact h.assigned hasg rfl rfl
  | preempt t _ _ e _ hent hlau =>
    refine h.set rfl hent rfl ?_ (h.retries t e hent) (h.recoveries t e hent)
    have hlaud : uncharged e.status = 1 := by
      revert hlau
      cases e.status <;> decide
    have hpre : uncharged .preempting = 0 := by decide
    rw [allowance, allowance, hlaud, hpre]
    dsimp only
    omega
  | finish _ _ _ _ hent hhol halw hfin =>
    exact h.moved rfl hent rfl ⟨rfl, rfl, rfl, rfl, Or.inl rfl⟩
      (uncharged_move _ hhol _ halw (final_ne_preempting _ hfin))
  | release =>
    exact ⟨h.minted, h.retries, h.recoveries⟩
  | requeue t e _ _ hent hchs =>
    refine h.set rfl hent rfl (hchs.allowance ⟨rfl, rfl, rfl⟩ rfl) ?_ ?_
    · cases hchs with
      | retry _ hbud => exact fun _ => hbud
      | recovery => exact h.retries t e hent
      | preempted => exact h.retries t e hent
    · cases hchs with
      | retry => exact h.recoveries t e hent
      | recovery _ hbud =>
        intro _
        rw [← hT]
        exact hbud
      | preempted => exact h.recoveries t e hent

theorem Chronicle.Budgeted.misreport {event : TaskEvent} (h : c.Budgeted M)
    (hmis : Misreports T u e e' event c c') (hoth : e'.status ≠ .preempting) :
    c'.Budgeted M :=
  h.moved hmis.bills hmis.entry hmis.entries hmis.same
    (uncharged_move _ hmis.holding _ hmis.allowed hoth)

end Deeds

/-! ## Runs -/

theorem Chronicle.Budgeted.empty (M : ℤ) : Chronicle.empty.Budgeted M := by
  refine ⟨fun t => ⟨0, rfl, le_refl _⟩, ?_, ?_⟩
  · intro t e he
    cases he
  · intro t e he
    cases he

/-- Every recovery has the same budget, and what a worker reports is not a request
    to preempt, which only the scheduler makes. -/
def budgetedCalls (M : ℤ) (i : Call) (_ : Db) : Prop :=
  TaskStatus.preempting ∉ i.op.reported ∧ ∀ m ∈ i.op.recoveryBudget, m = M

theorem reach_budgeted {M : ℤ} {db : Db} (h : Reach controlPlane (budgetedCalls M) db) :
    db.chronicle.Budgeted M := by
  refine (h.invariant (I := fun s => Lifecycle s.cluster ∧ s.chronicle.Budgeted M) ?_ ?_).2
  · rintro _ ⟨_, rfl⟩
    exact ⟨Lifecycle.empty, Budgeted.empty M⟩
  · rintro i s ⟨hlife, hbudg⟩ ⟨hrpt, hbud⟩
    have hfol : Follows anyRules s (controlPlane.step i s) :=
      step_follows hlife (anyRules_keeps i s)
    have hagr : i.Agrees { i.terms with attempts := M } := ⟨rfl, hbud, i.agrees_terms.grace, rfl⟩
    refine ⟨hfol.lifecycle hlife, ?_⟩
    rcases step_told hlife hagr with htells | ⟨mid, t, e, e', event, htells, hst, hmis⟩
    · exact htells.keeps (fun _ _ hc hdeed => hc.deed rfl hdeed) hbudg
    · have hmid : mid.chronicle.Budgeted M :=
        htells.keeps (fun _ _ hc hdeed => hc.deed rfl hdeed) hbudg
      refine hmid.misreport hmis ?_
      rintro hpre
      rw [hpre] at hst
      exact hrpt hst

/-- The attempt numbers of the executions of a task. -/
def attemptNumbers (db : Db) (t : Uuid) : List ℤ :=
  (db.executions.select (fun _ execution => execution.taskId = t)).map
    (fun row => row.2.attempt)

theorem chronicle_attempts (db : Db) (t : Uuid) :
    db.chronicle.attempts t = attemptNumbers db t := by
  show ((db.executions.map TaskExecution.bill).select _).map _ = _
  rw [select_map, map_map]
  rfl

/-- The executions of a task against its budgets; a negative budget allows nothing
    and bounds nothing. -/
structure AttemptsBounded (M : ℤ) (db : Db) (t : Uuid) (task : Task) : Prop where
  minted : ((attemptNumbers db t).length : ℤ)
    ≤ 1 + task.retryCount + task.recoveryCount + task.preemptionCount
  retries : 0 ≤ task.maxRetries → task.retryCount ≤ task.maxRetries
  recoveries : 0 ≤ M → task.recoveryCount ≤ M
  numbered : attemptNumbers db t = upTo (attemptNumbers db t).length
  unpreempted : 0 ≤ task.maxRetries → 0 ≤ M → task.preemptionCount = 0 →
    ((attemptNumbers db t).length : ℤ) ≤ 1 + task.maxRetries + M

/-- **ATTEMPTS ARE BOUNDED** in every reachable state. -/
theorem attempts_bounded (M : ℤ) (db : Db) (h : Reach controlPlane (budgetedCalls M) db)
    (t : Uuid) (task : Task) (hrow : db.tasks.get? t = some task) :
    AttemptsBounded M db t task := by
  have hbudg := reach_budgeted h
  obtain ⟨n, hn, hle⟩ := hbudg.minted t
  rw [chronicle_attempts] at hn
  rw [chronicle_entry hrow] at hle
  have hlen : (attemptNumbers db t).length = n := by rw [hn, upTo_length]
  have hallow : (n : ℤ) ≤ task.retryCount + task.recoveryCount + task.preemptionCount
      + uncharged task.status := hle
  have hone : uncharged task.status ≤ 1 := by cases task.status <;> decide
  have hrtr : 0 ≤ task.maxRetries → task.retryCount ≤ task.maxRetries :=
    hbudg.retries t task.entry (chronicle_entry hrow)
  have hrecs : 0 ≤ M → task.recoveryCount ≤ M :=
    hbudg.recoveries t task.entry (chronicle_entry hrow)
  rw [← hlen] at hallow
  refine ⟨by omega, hrtr, hrecs, by rw [hlen]; exact hn, ?_⟩
  intro hmax hM _
  have hr := hrtr hmax
  have hm := hrecs hM
  omega

/-- The first attempt of a task fails, the second one is claimed, and its lease
    expires. -/
def retriedCalls : List Call :=
  [⟨0, registerWorker⟩, ⟨1, .createQueued 1 { halfCoreTask [] with maxRetries := 1 }⟩,
   ⟨2, .claim 1 "w" 11 30 none standardPrices []⟩,
   ⟨3, .finishExecution firstOwner { succeededReport with
     target := .failed, exitCode := none, errorCategory := some .infraError }⟩,
   ⟨100, .releaseDueRetries [] 10⟩, ⟨101, .claim 1 "w" 12 30 none standardPrices []⟩,
   ⟨200, .recoverExpired [] 10 3 5⟩, ⟨300, .releaseDueRetries [] 10⟩,
   ⟨301, .claim 1 "w" 13 30 none standardPrices []⟩]

def retriedCloud : Db := controlPlane.run retriedCalls freshCloud

/-- Three attempts: the first one, a retry and a recovery. -/
theorem attempts_of_a_retried_task : ∃ task,
    retriedCloud.tasks.get? 1 = some task ∧ task.retryCount = 1 ∧ task.recoveryCount = 1
      ∧ attemptNumbers retriedCloud 1 = [1, 2, 3]
      ∧ ((attemptNumbers retriedCloud 1).length : ℤ) ≤ 1 + task.maxRetries + 3 := by
  have hcnts : (retriedCloud.tasks.get? 1).map (fun task =>
      (task.retryCount, task.recoveryCount, task.preemptionCount, task.maxRetries))
        = some (1, 1, 0, 1) := by decide +kernel
  obtain ⟨task, hrow, hall⟩ := Option.map_eq_some_iff.mp hcnts
  obtain ⟨hretry, hrecovery, hpreemption, hmax⟩ : task.retryCount = 1
      ∧ task.recoveryCount = 1 ∧ task.preemptionCount = 0 ∧ task.maxRetries = 1 := by
    simpa only [Prod.mk.injEq] using hall
  have hreach : Reach controlPlane (budgetedCalls 3) retriedCloud :=
    (Reach.init freshCloud_init).run retriedCalls
      (allowed_of_forall _ (fun i hi db => by
        revert i
        show ∀ i ∈ retriedCalls, TaskStatus.preempting ∉ i.op.reported
          ∧ ∀ m ∈ i.op.recoveryBudget, m = 3
        decide) _)
  have hbdd := attempts_bounded 3 retriedCloud hreach 1 task hrow
  exact ⟨task, hrow, hretry, hrecovery, by decide +kernel,
    hbdd.unpreempted (by rw [hmax]; decide) (by decide) hpreemption⟩

end MiniAiCloud
