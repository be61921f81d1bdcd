import MiniAiCloud.Chronicle
import MiniAiCloud.ControlPlaneProofs

/-! # Every call is a sequence of deeds

    The chronicle of a database forgets the columns no record depends on.  A call
    works on a task row it holds in memory and writes back at the end; the deeds
    are told of the chronicle as the call sees it, with the row it holds in place
    of the stored one. -/

namespace MiniAiCloud

open Transaction Cluster Chronicle Table

variable {task task' old : Task} {u : Unit} {target : TaskStatus} {r : ProjectQuotaState}
  {snapshot : QuotaSnapshot} {t : Uuid} {eventType : String} {lease : ℚ} {locked : List Uuid}
  {mid : Db}

/-! ## Forgetting -/

def Task.entry (task : Task) : Entry where
  spec := task.toTaskSpec
  status := task.status
  version := task.version
  execution := task.executionId
  startedAt := task.startedAt
  lease := task.leaseExpiresAt
  handled := task.runtimeHandle.isSome
  retries := task.retryCount
  recoveries := task.recoveryCount
  preemptions := task.preemptionCount

def TaskExecution.bill (execution : TaskExecution) : Bill where
  task := execution.taskId
  attempt := execution.attempt
  cpu := execution.cpuMillicores
  memory := execution.memoryMb
  gpus := execution.gpuCount
  runtime := execution.runtimeType

def ResourceReservation.stub (r : ResourceReservation) : Stub where
  task := r.taskId
  project := r.projectId
  releasedAt := r.releasedAt

def ProjectQuotaState.day (s : ProjectQuotaState) : Day where
  date := s.accountingDate
  settled := s.dailySettledCost

/-- The chronicle a database stands for. -/
def Db.chronicle (db : Db) : Chronicle where
  entries := db.tasks.map Task.entry
  events := db.taskEvents
  plans := db.preemptionPlans
  bills := db.executions.map TaskExecution.bill
  stubs := db.reservations.map ResourceReservation.stub
  ledger := db.usageLedger
  days := db.quotaStates.map ProjectQuotaState.day

/-- The chronicle with this entry for a task. -/
def Chronicle.having (c : Chronicle) (t : Uuid) (e : Entry) : Chronicle :=
  { c with entries := c.entries.set t e }

/-- **REFINEMENT**: what a call tells the chronicle. -/
def Tells (T : Terms) (db db' : Db) : Prop := Deeds T db.chronicle db'.chronicle

/-- What a call tells between two rows of a task it holds. -/
def TellsOf (T : Terms) (t : Uuid) (task : Task) (db : Db) (task' : Task) (db' : Db) :
    Prop :=
  Deeds T (db.chronicle.having t task.entry) (db'.chronicle.having t task'.entry)

section Reading

variable {T : Terms} {db db' db'' : Db} {t x : Uuid} {task task' : Task}

theorem chronicle_entry (h : db.tasks.get? t = some task) :
    db.chronicle.entries.get? t = some task.entry :=
  get?_map_of_some h _

theorem chronicle_bill {execution : TaskExecution} (h : db.executions.get? x = some execution) :
    db.chronicle.bills.get? x = some execution.bill :=
  get?_map_of_some h _

theorem chronicle_stub {r : ResourceReservation} (h : db.reservations.get? x = some r) :
    db.chronicle.stubs.get? x = some r.stub :=
  get?_map_of_some h _

theorem chronicle_save (db : Db) (t : Uuid) (task : Task) :
    Db.chronicle { db with tasks := db.tasks.set t task }
      = db.chronicle.having t task.entry := by
  show Chronicle.mk ((db.tasks.set t task).map _) _ _ _ _ _ _ = _
  rw [map_set]
  rfl

/-- The stored row in hand is the chronicle itself. -/
theorem chronicle_having (h : db.tasks.get? t = some task) :
    db.chronicle.having t task.entry = db.chronicle := by
  rw [Chronicle.having, set_eq_self (chronicle_entry h)]

theorem Tells.refl (db : Db) : Tells T db db := Relation.ReflTransGen.refl

theorem Tells.of_pure {α : Type} {a b : α} (h : (pure a : Txn α) db = .ok b db') :
    Tells T db db' := by
  obtain ⟨_, rfl⟩ := pure_ok.mp h
  exact .refl db

theorem Tells.trans (h : Tells T db db') (h' : Tells T db' db'') : Tells T db db'' :=
  Relation.ReflTransGen.trans h h'

/-- A write no record depends on. -/
theorem Tells.quiet (h : db'.chronicle = db.chronicle) : Tells T db db' := by
  rw [Tells, h]

theorem TellsOf.trans {task'' : Task} (h : TellsOf T t task db task' db')
    (h' : TellsOf T t task' db' task'' db'') : TellsOf T t task db task'' db'' :=
  Relation.ReflTransGen.trans h h'

/-- From the stored row to the row a call writes back. -/
theorem TellsOf.saved (h : TellsOf T t task db task' mid) (hrow : db.tasks.get? t = some task)
    (hsave : saveTask t task' mid = .ok u db') :
    Tells T db db' := by
  rw [TellsOf, chronicle_having hrow] at h
  rw [Tells, saveTask_ok.mp hsave, chronicle_save]
  exact h

/-- What happens elsewhere happens with the row in hand as well. -/
theorem TellsOf.quiet (hent : task'.entry = task.entry)
    (h : db'.chronicle = db.chronicle) : TellsOf T t task db task' db' := by
  rw [TellsOf, hent, h]

/-- The entry in hand, where the task has a row. -/
theorem having_entry (h : db.tasks.get? t = some old) :
    (db.chronicle.having t task.entry).entries.get? t = some task.entry :=
  get?_set_self (chronicle_entry h) _

theorem having_having (c : Chronicle) (t : Uuid) (e e' : Entry) :
    (c.having t e).having t e' = c.having t e' := by
  rw [Chronicle.having, Chronicle.having, set_set]
  rfl

/-- An event is logged and the row in hand is replaced. -/
theorem having_logged (db : Db) (event : TaskEvent) (t : Uuid) (e e' : Entry) :
    Chronicle.having (Db.chronicle { db with taskEvents := db.taskEvents ++ [event] }) t e'
      = { (db.chronicle.having t e) with
          entries := (db.chronicle.having t e).entries.set t e'
          events := db.taskEvents ++ [event] } := by
  show { db.chronicle with
      entries := db.chronicle.entries.set t e'
      events := db.taskEvents ++ [event] } = _
  rw [← set_set db.chronicle.entries t e e']
  rfl

end Reading

/-! ## The row in hand -/

section Rows

variable {T : Terms} {db db' : Db} {t : Uuid} {task task' : Task}

/-- A write that leaves the status, the start and the counters alone. -/
theorem tellsOf_adjust (hrow : db.tasks.get? t = some old)
    (hadj : task.entry.Adjusts task'.entry) (hlease : task'.entry.lease = task.entry.lease
        ∧ task'.entry.handled = task.entry.handled
      ∨ task'.entry.Leased T ∨ task.entry.status ∉ holdingStatuses
      ∨ ∃ x bill, task.entry.execution = some x ∧ db.chronicle.bills.get? x = some bill
        ∧ bill.runtime ≠ .kubernetes) : TellsOf T t task db task' db := by
  have hdeed := Deed.adjust (T := T) t task.entry task'.entry (having_entry hrow) hadj hlease
  rw [TellsOf, ← having_having db.chronicle t task.entry task'.entry]
  exact .single hdeed

/-- The same for a row that is written at once. -/
theorem saveTask_adjusts (hsave : saveTask t task' db = .ok u db')
    (hrow : db.tasks.get? t = some task) (hadj : task.entry.Adjusts task'.entry)
    (hlease : task'.entry.lease = task.entry.lease
        ∧ task'.entry.handled = task.entry.handled
      ∨ task'.entry.Leased T ∨ task.entry.status ∉ holdingStatuses
      ∨ ∃ x bill, task.entry.execution = some x ∧ db.chronicle.bills.get? x = some bill
        ∧ bill.runtime ≠ .kubernetes) : Tells T db db' :=
  (tellsOf_adjust hrow hadj hlease).saved hrow hsave

/-- `_transition` logs the status change. -/
theorem transition_logs (h : transition t task target T.now eventType db = .ok task' db') :
    CanTransition task.status target ∧ task' = task.transitioned target T.now
      ∧ ∃ event, Logs T t task.entry target event
        ∧ db' = { db with taskEvents := db.taskEvents ++ [event] } := by
  simp only [transition, ensureTransition, recordEvent, bind_ok, raiseIf_ok, modify_ok,
    pure_ok, not_not] at h
  obtain ⟨_, _, ⟨hcan, rfl⟩, _, _, rfl, rfl, rfl⟩ := h
  exact ⟨hcan, rfl, _, ⟨rfl, rfl, rfl, rfl, fun _ => rfl, rfl⟩, rfl⟩

/-- A status change of a task that waits or launches, with the columns that are
    written along with it. -/
theorem tellsOf_change {moved : Task} (hrow : db.tasks.get? t = some old)
    (h : transition t task target T.now eventType db = .ok moved db')
    (hchg : CanTransition task.status target → task.entry.Changes T target task'.entry) :
    TellsOf T t task db task' db' := by
  obtain ⟨hcan, _, event, hlogs, rfl⟩ := transition_logs h
  have hdeed := Deed.change (T := T) t task.entry task'.entry target event
    (having_entry hrow) (hchg hcan) hlogs
  rw [TellsOf, having_logged db event t task.entry task'.entry]
  exact .single hdeed

end Rows

/-! ## The days of a project -/

/-- A quota call rewrote the state row of the project: the row was rolled to the
    current day, and the cost was settled on that day. -/
def DayMoves (now : Time) (p : Uuid) (cost : ℚ) (db db' : Db) : Prop :=
  ∃ s r, db.quotaStates.get? p = some s ∧ db' = db.withQuotaState p r
    ∧ r.day = (s.day.rolled now).plus cost

theorem rollDailyState_day (s : ProjectQuotaState) (now : Time) :
    (rollDailyState s now).day = s.day.rolled now := by
  by_cases hd : s.accountingDate ≠ now.date
  · rw [rollDailyState, if_pos hd, Day.rolled]
    exact (if_pos hd).symm
  · rw [rollDailyState, if_neg hd, Day.rolled]
    exact (if_neg hd).symm

theorem Day.plus_zero (day : Day) : day.plus 0 = day := by
  rw [Day.plus, add_zero]

section Days

variable {T : Terms} {now : Time} {p : Uuid} {db db' : Db}

theorem chronicle_withQuotaState (r : ProjectQuotaState) : (db.withQuotaState p r).chronicle
      = { db.chronicle with days := db.chronicle.days.set p r.day } := by
  show Chronicle.mk _ _ _ _ _ _ ((db.quotaStates.set p r).map _) = _
  rw [map_set]
  rfl

theorem DayMoves.chronicle {cost : ℚ} (h : DayMoves now p cost db db') :
    ∃ day, db.chronicle.days.get? p = some day
      ∧ db'.chronicle = { db.chronicle with
          days := db.chronicle.days.set p ((day.rolled now).plus cost) } := by
  obtain ⟨s, r, hs, rfl, hday⟩ := h
  refine ⟨s.day, get?_map_of_some hs _, ?_⟩
  rw [chronicle_withQuotaState, hday]

/-- A quota call that settles nothing rolls the day. -/
theorem DayMoves.tellsOf (h : DayMoves T.now p 0 db db') :
    TellsOf T t task db task db' := by
  obtain ⟨day, hday, hlast⟩ := h.chronicle
  rw [Day.plus_zero] at hlast
  rw [TellsOf, hlast]
  exact .single (.roll p day hday)

theorem DayMoves.tells (h : DayMoves T.now p 0 db db') : Tells T db db' := by
  obtain ⟨day, hday, hlast⟩ := h.chronicle
  rw [Day.plus_zero] at hlast
  rw [Tells, hlast]
  exact .single (.roll p day hday)

theorem getLocked_day (h : getLocked now p db = .ok snapshot db') : DayMoves now p 0 db db' := by
  obtain ⟨_, s, _, hs, _, _, hdb⟩ := getLocked_ok.mp h
  refine ⟨s, rollDailyState s now, hs, hdb, ?_⟩
  rw [rollDailyState_day, Day.plus_zero]

theorem admitQueued_day (h : admitQueued now p db = .ok r db') :
    DayMoves now p 0 db db' := by
  obtain ⟨_, s, ⟨_, hs, _⟩, _, hr, hdb⟩ := admitQueued_ok.mp h
  refine ⟨s, r, hs, hdb, ?_⟩
  rw [hr, Day.plus_zero, ← rollDailyState_day]
  rfl

theorem releaseQueued_day (h : releaseQueued now p db = .ok r db') :
    DayMoves now p 0 db db' := by
  obtain ⟨_, s, ⟨_, hs, _⟩, _, hr, hdb⟩ := releaseQueued_ok.mp h
  refine ⟨s, r, hs, hdb, ?_⟩
  rw [hr, Day.plus_zero, ← rollDailyState_day]
  rfl

theorem reserveExecution_day {d : ResourceDemand}
    (h : reserveExecution now p d 0 db = .ok r db') : DayMoves now p 0 db db' := by
  obtain ⟨_, s, _, ⟨_, hs, _⟩, _, _, _, _, hr, hdb⟩ := reserveExecution_ok h
  refine ⟨s, r, hs, hdb, ?_⟩
  rw [hr, Day.plus_zero, ← rollDailyState_day]
  rfl

/-- Opening the quota rows of a project opens its day. -/
theorem initializeQuota_tells (h : initializeQuota T.now p db = .ok snapshot db') :
    Tells T db db' := by
  obtain ⟨_, _, hs, _, rfl⟩ := initializeQuota_ok.mp h
  cases hold : db.quotaStates.get? p with
  | some =>
    refine Tells.quiet ?_
    show Chronicle.mk _ _ _ _ _ _ ((db.quotaStates.insert p snapshot.state).map _) = _
    rw [insert_of_some hold]
    rfl
  | none =>
    rw [hold] at hs
    have hdeed := Deed.openDay (T := T) (c := db.chronicle) p (get?_map_eq_none.mpr hold)
    refine .single ?_
    show Deed T db.chronicle (Chronicle.mk _ _ _ _ _ _
      ((db.quotaStates.insert p snapshot.state).map _))
    rw [map_insert, hs]
    exact hdeed

theorem replaceQuota_tells {limits : QuotaLimits}
    (h : replaceQuota T.now p limits db = .ok snapshot db') : Tells T db db' := by
  obtain ⟨mid, hx, rfl⟩ := replaceQuota_ok.mp h
  obtain ⟨_, s, ⟨_, hs, _⟩, hst, _, _, _, _, hmid⟩ := replaceQuotaProspect_ok hx
  have hmoves : DayMoves T.now p 0 db mid := by
    refine ⟨s, snapshot.state, hs, hmid, ?_⟩
    rw [hst, rollDailyState_day, Day.plus_zero]
  exact hmoves.tells.trans (.quiet rfl)

theorem lockOrInitialize_tells (h : lockOrInitialize T.now p db = .ok snapshot db') :
    Tells T db db' := by
  rcases catching_cases h with hlock | ⟨e, mid, hlock, _, hinit⟩
  · exact (getLocked_day hlock).tells
  · rw [getLocked_error hlock] at hinit
    exact initializeQuota_tells hinit

theorem replaceServiceCommitment_tells {current desired : ℤ} {d : ResourceDemand}
    (h : replaceServiceCommitment T.now p current desired d db = .ok r db') :
    Tells T db db' := by
  obtain ⟨⟨s, next⟩, mid, hx, hr⟩ := bind_ok.mp h
  dsimp only at hr
  obtain ⟨_, _, hlock, ⟨_, hs, _⟩, hnext, _⟩ := serviceCommitmentProspect_ok hx
  refine (lockOrInitialize_tells hlock).trans ?_
  split_ifs at hr with hdelta
  · obtain ⟨_, rfl⟩ := pure_ok.mp hr
    exact .refl mid
  · obtain ⟨_, _, rfl⟩ := touchState_ok.mp hr
    -- the service counters are not part of the day
    have hday : (next.touched T.now).day = s.day := by
      rw [hnext]
      rfl
    refine Tells.quiet ?_
    have hrow : mid.chronicle.days.get? p = some s.day := get?_map_of_some hs _
    rw [chronicle_withQuotaState, hday, set_eq_self hrow]

end Days

/-! ## The calls of an owner -/

section Owner

variable {T : Terms} {db db' : Db} {c : Caller}

/-- The lease a call computes outlives the Job of the row it is computed for. -/
theorem runtimeLeaseExpiry_leased {leaseSeconds : ℚ} {lease : Time}
    (h : runtimeLeaseExpiry task T.now leaseSeconds T.grace db = .ok lease db') :
    db' = db ∧ ∀ row : Task, row.toTaskSpec = task.toTaskSpec →
      row.runtimeHandle = task.runtimeHandle → row.startedAt = task.startedAt →
      row.leaseExpiresAt = some lease → row.entry.Leased T := by
  refine ⟨(runtimeLeaseExpiry_reads _ _ _ _).of_ok h, ?_⟩
  intro row hspec hhandle hbeg hlease hkube hhnd
  refine ⟨lease, hlease, ?_⟩
  obtain ⟨_, _, _, hr⟩ := bind_ok.mp h
  have hkind : ¬ (task.runtimeType ≠ .kubernetes ∨ task.runtimeHandle.isNone = true) := by
    rintro (hoth | hn)
    · exact hoth (by rw [← hspec]; exact hkube)
    · have hsome : row.runtimeHandle.isSome = true := hhnd
      rw [hhandle, Option.isNone_iff_eq_none.mp hn] at hsome
      cases hsome
  rw [if_neg hkind] at hr
  obtain ⟨hvalue, _⟩ := pure_ok.mp hr
  show min T.now (row.startedAt.getD T.now) + row.timeoutSeconds + T.grace ≤ lease
  rw [← hvalue, hbeg, hspec]
  refine le_trans ?_ (le_max_right _ _)
  have hmin := min_le_right T.now (task.startedAt.getD T.now)
  linarith

/-- A renewed lease, with the version it is written under. -/
theorem tellsOf_renew {leaseSeconds : ℚ} {lease : Time} (hrow : db.tasks.get? t = some old)
    (h : runtimeLeaseExpiry task T.now leaseSeconds T.grace db = .ok lease mid) :
    TellsOf T t task db { task with
      leaseExpiresAt := some lease, version := task.version + 1 } mid := by
  obtain ⟨rfl, hlsd⟩ := runtimeLeaseExpiry_leased h
  refine tellsOf_adjust hrow ?_ (.inr (.inl (hlsd _ rfl rfl rfl rfl)))
  exact ⟨⟨rfl, rfl, rfl, rfl, .inl rfl⟩, rfl, (lt_add_one _).le, rfl, id⟩

theorem markProgress_tells {reported previous : List TaskStatus} {message : String}
    (hprevious : ∀ s ∈ previous, s ∈ launchStatuses)
    (htgt : target ∈ [TaskStatus.pulling, .starting, .running])
    (h : markProgress reported previous target message T.now c lease T.grace db
      = .ok task' db') : Tells T db db' := by
  obtain ⟨_, mid, hown, hbody⟩ := bind_ok.mp h
  obtain ⟨hfence, _, rfl⟩ := ownedTask_ok.mp hown
  split_ifs at hbody with hrptd
  · simp only [bind_ok, pure_ok] at hbody
    obtain ⟨_, _, hlease, _, _, hsave, _, rfl⟩ := hbody
    exact (tellsOf_renew hfence.row hlease).saved hfence.row hsave
  · simp only [bind_ok, ↓raise_ok, not_not, pure_ok] at hbody
    obtain ⟨hprev, _, _, htr, _, _, hlease, _, _, hsave, _, rfl⟩ := hbody
    obtain ⟨_, hmoved, _⟩ := transition_logs htr
    obtain ⟨rfl, hlsd⟩ := runtimeLeaseExpiry_leased hlease
    refine (tellsOf_change hfence.row htr ?_).saved hfence.row hsave
    intro hcan
    have hkind : target ∈ [TaskStatus.preparing, .pulling, .starting, .running, .stopping] := by
      revert htgt
      cases target <;> decide
    rw [hmoved] at hlsd ⊢
    exact ⟨⟨rfl, rfl, rfl, rfl, .inl rfl⟩, hcan, .inr ⟨hprevious _ hprev, hkind⟩, rfl, rfl,
      rfl, rfl, .inr (.inl (hlsd _ rfl rfl rfl rfl))⟩

theorem renewLease_tells {renewed : Bool}
    (h : renewLease T.now c lease T.grace db = .ok renewed db') : Tells T db db' := by
  rw [renewLease, bind_get] at h
  cases htask : currentTask db c with
  | none =>
    rw [htask] at h
    exact .of_pure h
  | some =>
    simp only [htask] at h
    have hfence := currentTask_eq_some.mp htask
    split_ifs at h with href
    · exact .of_pure h
    · simp only [bind_ok, pure_ok] at h
      obtain ⟨_, _, hlease, _, _, hsave, _, rfl⟩ := h
      exact (tellsOf_renew hfence.row hlease).saved hfence.row hsave

theorem preserveKubernetesHandoffLease_tells {grace : ℤ} (hgrace : T.grace = grace)
    (h : preserveKubernetesHandoffLease T.now c grace db = .ok task' db') :
    Tells T db db' := by
  obtain ⟨task, _, hown, hbody⟩ := bind_ok.mp h
  obtain ⟨hfence, _, rfl⟩ := ownedTask_ok.mp hown
  simp only [bind_ok, ↓raise_ok, pure_ok] at hbody
  obtain ⟨_, _, _, _, hsave, _, rfl⟩ := hbody
  refine saveTask_adjusts hsave hfence.row ⟨⟨rfl, rfl, rfl, rfl, .inl rfl⟩, rfl,
    (lt_add_one _).le, rfl, id⟩ (.inr (.inl ?_))
  intro _ _
  refine ⟨_, rfl, ?_⟩
  show min T.now (task.startedAt.getD T.now) + task.timeoutSeconds + T.grace
    ≤ T.now + (task.timeoutSeconds + grace)
  have hmin := min_le_left T.now (task.startedAt.getD T.now)
  linarith

theorem TaskExecution.observing_bill (execution : TaskExecution)
    (o : RuntimeObservation) : (execution.observing o).bill = execution.bill := by
  rw [TaskExecution.observing]
  split_ifs with ho
  · rfl
  · rfl

/-- A write of an execution row that keeps its bill. -/
theorem saveExecution_quiet {x : Uuid} {old execution : TaskExecution}
    (h : saveExecution x execution db = .ok u db') (hold : db.executions.get? x = some old)
    (hbill : execution.bill = old.bill) :
    db'.chronicle = db.chronicle := by
  have hdb : db' = { db with executions := db.executions.set x execution } := modify_ok.mp h
  rw [hdb]
  show Chronicle.mk _ _ _ ((db.executions.set x execution).map _) _ _ _ = _
  rw [map_set_eq hold hbill]
  rfl

/-- A recorded handle is on the row, and a Job has its lease. -/
theorem recordRuntimeHandle_entry {o : RuntimeObservation}
    (h : recordRuntimeHandle T.now c o T.grace db = .ok task' db') :
    ∃ task execution e', Fenced db c task ∧ db.executions.get? c.executionId = some execution
      ∧ execution.runtimeType.value = o.runtimeType ∧ task.entry.Adjusts e'
      ∧ e'.handled = true ∧ (o.runtimeType = "kubernetes" → e'.Leased T)
      ∧ db'.chronicle = db.chronicle.having c.taskId e' := by
  simp only [recordRuntimeHandle, bind_ok, ownedTask_ok, ↓bind_get, expect_ok, raiseIf_ok] at h
  obtain ⟨task, _, ⟨hfence, _, rfl⟩, execution, _, ⟨hexec, rfl⟩, _, _, ⟨_, rfl⟩, _, _, ⟨hkind,
      rfl⟩, _, _, ⟨_, rfl⟩, _, _, ⟨_, rfl⟩, _, start, ⟨_, rfl⟩, hbody⟩ := h
  have hrow := (Option.filter_eq_some_iff.mp hexec).1
  -- the execution row is written last, and keeps its bill
  have hlast : ∀ {last : Db} {row : Task} {u u' : Unit}, saveTask c.taskId row start = .ok u last →
      saveExecution c.executionId (execution.observing o) last = .ok u' db' →
      db'.chronicle = start.chronicle.having c.taskId row.entry := by
    intro last row _ _ hsave hsave'
    have hlast : last = { start with tasks := start.tasks.set c.taskId row } := saveTask_ok.mp hsave
    rw [saveExecution_quiet hsave' (by rw [hlast]; exact hrow) (execution.observing_bill o),
      hlast, chronicle_save]
  by_cases ho : o.runtimeType = "kubernetes"
  · simp only [if_pos ho, bind_ok, pure_ok] at hbody
    obtain ⟨_, _, hcheck, _, _, hlease, _, _, ⟨rfl, rfl⟩, _, _, hsave, _, _,
      hsave', _, rfl⟩ := hbody
    obtain rfl := (checkKubernetesHandle_reads _ _ _).of_ok hcheck
    obtain ⟨rfl, hlsd⟩ := runtimeLeaseExpiry_leased hlease
    refine ⟨task, execution, _, hfence, hrow, not_not.mp hkind, ?_, ?_, ?_, hlast hsave hsave'⟩
    · exact ⟨⟨rfl, rfl, rfl, rfl, .inl rfl⟩, rfl, (lt_add_one _).le, rfl, fun _ => rfl⟩
    · rfl
    · exact fun _ => hlsd _ rfl rfl rfl rfl
  · simp only [if_neg ho, bind_ok, pure_ok] at hbody
    obtain ⟨_, _, ⟨rfl, rfl⟩, _, _, hsave, _, _, hsave', _, rfl⟩ := hbody
    refine ⟨task, execution, _, hfence, hrow, not_not.mp hkind, ?_, ?_,
      fun hkube => absurd hkube ho, hlast hsave hsave'⟩
    · exact ⟨⟨rfl, rfl, rfl, rfl, .inl rfl⟩, rfl, (lt_add_one _).le, rfl, fun _ => rfl⟩
    · rfl

theorem recordRuntimeHandle_tells {o : RuntimeObservation}
    (h : recordRuntimeHandle T.now c o T.grace db = .ok task' db') : Tells T db db' := by
  obtain ⟨task, execution, e', hfence, hexec, hkind, hadj, _, hlsd, hdb⟩ :=
    recordRuntimeHandle_entry h
  rw [Tells, hdb]
  refine .single (.adjust c.taskId task.entry e' (chronicle_entry hfence.row) hadj ?_)
  by_cases ho : o.runtimeType = "kubernetes"
  · exact .inr (.inl (hlsd ho))
  · have hoth : execution.bill.runtime ≠ .kubernetes := by
      intro hkube
      refine ho ?_
      have hrt : execution.runtimeType = .kubernetes := hkube
      rw [← hkind, hrt]
      rfl
    exact .inr (.inr (.inr ⟨_, _, hfence.execution, chronicle_bill hexec, hoth⟩))

/-- A write of columns no record depends on. -/
theorem saveTask_unread (hsave : saveTask t task' db = .ok u db')
    (hrow : db.tasks.get? t = some task)
    (hent : task'.entry = { task.entry with version := task.version + 1 }) :
    Tells T db db' := by
  refine saveTask_adjusts hsave hrow ?_ ?_
  · rw [hent]
    exact ⟨⟨rfl, rfl, rfl, rfl, .inl rfl⟩, rfl, (lt_add_one _).le, rfl, id⟩
  · rw [hent]
    exact .inl ⟨rfl, rfl⟩

theorem advanceRuntimeLogCursor_tells {cursor : ℤ} {name uid hash : String}
    (h : advanceRuntimeLogCursor c cursor name uid hash db = .ok task' db') :
    Tells T db db' := by
  simp only [advanceRuntimeLogCursor, bind_ok, raiseIf_ok, ownedTask_ok, get_ok, expect_ok] at h
  obtain ⟨_, _, ⟨_, rfl⟩, task, _, ⟨hfence, _, rfl⟩, _, _, ⟨rfl, rfl⟩, _, _,
    ⟨_, rfl⟩, _, _, ⟨hhandle, rfl⟩, _, _, ⟨_, rfl⟩, _, _, ⟨_, rfl⟩, _, _, ⟨_, rfl⟩,
    hbody⟩ := h
  split_ifs at hbody with heq
  · exact .of_pure hbody
  · simp only [bind_ok, pure_ok] at hbody
    obtain ⟨_, _, hsave, _, rfl⟩ := hbody
    refine saveTask_unread hsave hfence.row ?_
    show Entry.mk _ _ _ _ _ _ (Option.isSome (some _)) _ _ _
      = Entry.mk _ _ _ _ _ _ task.runtimeHandle.isSome _ _ _
    rw [hhandle]
    rfl

theorem appendLog_tells {x : Option Uuid} {stream : LogStream} {content : String}
    {w : Option WorkerId} {session : Option Uuid} {log : TaskLog}
    (h : appendLog T.now t x stream content w session db = .ok log db') :
    Tells T db db' := by
  obtain ⟨_, _, hlogd, hbody⟩ := bind_ok.mp h
  obtain ⟨hrow, rfl⟩ := loggedTask_ok hlogd
  simp only [bind_ok, ↓raise_ok, modify_ok, pure_ok] at hbody
  obtain ⟨_, _, _, hsave, _, _, rfl, _, rfl⟩ := hbody
  exact (saveTask_unread hsave hrow rfl).trans (.quiet rfl)

/-- A pick-up sets the lease of its worker. -/
theorem takeGlobalAssignment_tells {w : WorkerId} {session : Uuid}
    {taken : Option (Uuid × Task)} (hpick : T.pickup = true)
    (h : takeGlobalAssignment T.now w session lease locked db = .ok taken db') :
    Tells T db db' := by
  rw [takeGlobalAssignment, bind_get] at h
  generalize earliest (db.tasks.select fun _ task => Takeable db w session task)
    (·.assignedAt) locked 1 = found at h
  cases found with
  | nil => exact .of_pure h
  | cons =>
    simp only [bind_ok, ↓bind_expect, pure_ok] at h
    obtain ⟨task, hrow, _, _, htr, _, _, hsave, _, rfl⟩ := h
    obtain ⟨_, rfl, _⟩ := transition_logs htr
    refine (tellsOf_change hrow htr ?_).saved hrow hsave
    intro hcan
    have hlau : task.status ∈ launchStatuses := by
      revert hcan
      cases task.status <;> decide
    exact ⟨⟨rfl, rfl, rfl, rfl, .inl rfl⟩, hcan, .inr ⟨hlau, by decide⟩, rfl, rfl, rfl,
      rfl, .inr (.inr (.inl ⟨rfl, hpick⟩))⟩

end Owner

/-! ## Waiting tasks -/

section Waiting

variable {T : Terms} {db db' : Db} {t : Uuid}

/-- A waiting task changes its status and is written back; none of its leases counts. -/
theorem tells_waiting {row moved : Task} {execution : Option Uuid} {lease : Option Time}
    (hrow : db.tasks.get? t = some task) (hwaits : task.status ∈ waitingStatuses)
    (htgt : target ∈ [TaskStatus.queued, .cancelled])
    (htr : transition t task target T.now eventType db = .ok moved mid)
    (hsave : saveTask t row mid = .ok u db')
    (hexec : execution = task.executionId ∨ execution = none)
    (hent : row.entry = { task.entry with
      status := target, version := task.version + 1, execution := execution, lease := lease }) :
    Tells T db db' := by
  refine (tellsOf_change hrow htr fun hcan => ?_).saved hrow hsave
  have hidle := not_holding_of_waiting _ hwaits
  have hrng : target ≠ .running := by
    revert htgt
    cases target <;> decide
  rw [hent]
  refine ⟨⟨rfl, rfl, rfl, rfl, hexec.imp_right (fun hn => ⟨hidle, hn⟩)⟩, hcan,
    Or.inl ⟨hwaits, htgt⟩, rfl, rfl, ?_, rfl, .inr (.inr (.inr hidle))⟩
  rw [if_neg hrng]

theorem settleSubmission_tells {policy : DependencyFailurePolicy} {statuses : List TaskStatus}
    (hrow : db.tasks.get? t = some task) (hpend : task.status = .pending)
    (h : settleSubmission T.now t task policy statuses db = .ok task' db') :
    Tells T db db' := by
  have hwaits : task.status ∈ waitingStatuses := by
    rw [hpend]
    decide
  rw [settleSubmission] at h
  split_ifs at h with hfail hready
  · simp only [bind_ok, pure_ok] at h
    obtain ⟨_, _, htr, _, _, hsave, _, _, hrel, _, rfl⟩ := h
    obtain ⟨_, rfl, _⟩ := transition_logs htr
    exact (tells_waiting hrow hwaits (by decide) htr hsave (.inl rfl)
      rfl).trans (releaseQueued_day hrel).tells
  · simp only [bind_ok, pure_ok] at h
    obtain ⟨_, _, htr, _, _, hsave, _, rfl⟩ := h
    obtain ⟨_, rfl, _⟩ := transition_logs htr
    exact tells_waiting hrow hwaits (by decide) htr hsave (.inl rfl) rfl
  · exact .of_pure h

/-- **SUBMISSION** opens an entry. -/
theorem createQueued_tells {s : TaskSubmission} (h : createQueued T.now t s db = .ok task db') :
    Tells T db db' := by
  rw [createQueued, bind_get] at h
  simp only [bind_ok, raiseIf_ok, expect_ok, modify_ok, recordEvent, not_not] at h
  obtain ⟨_, _, ⟨_, rfl⟩, _, _, ⟨_, rfl⟩, _, _, ⟨_, rfl⟩, _, mid₁,
    hinit, _, _, hvens, _, mid₃, hfit, _, mid₄, hadmit, _, _, hins,
    _, _, hedges, _, mid₇, hev, hstt⟩ := h
  have hmid₃ : mid₃ = mid₁ := ((ensureTaskCanFit_reads _ _ _ _ _ _).of_ok hfit).trans
      ((acceleratorRequestVendors_reads _ _).of_ok hvens)
  rw [hmid₃] at hadmit
  obtain ⟨hfresh, hmid₅⟩ := insertTask_ok hins
  have hcrt : Tells T mid₄ mid₇ := by
    refine .single ?_
    rw [hev, hedges, hmid₅]
    show Deed T mid₄.chronicle (Chronicle.mk ((mid₄.tasks.insert t (s.task T.now)).map _)
      _ _ _ _ _ _)
    rw [map_insert]
    exact .create t (s.task T.now).entry _ (get?_map_eq_none.mpr hfresh) rfl
      zero_le_one rfl ⟨rfl, rfl, rfl⟩ rfl rfl rfl rfl
  have hrow : mid₇.tasks.get? t = some (s.task T.now) := by
    rw [hev, hedges, hmid₅]
    exact get?_insert_self hfresh _
  exact (initializeQuota_tells hinit).trans ((admitQueued_day hadmit).tells.trans
    (hcrt.trans (settleSubmission_tells hrow rfl hstt)))

theorem resolveTask_tells {rows : List (DependencyFailurePolicy × TaskStatus)} {changed : Bool}
    (hrow : db.tasks.get? t = some task) (hwaits : task.status ∈ waitingStatuses)
    (h : resolveTask T.now t rows db = .ok changed db') : Tells T db db' := by
  rw [resolveTask, bind_get] at h
  simp only [hrow] at h
  split_ifs at h with hempty hready hpend hfail
  · exact .of_pure h
  · simp only [bind_ok, pure_ok] at h
    obtain ⟨_, _, htr, _, _, hsave, _, rfl⟩ := h
    obtain ⟨_, rfl, _⟩ := transition_logs htr
    exact tells_waiting hrow hwaits (by decide) htr hsave (.inl rfl) rfl
  · exact .of_pure h
  · simp only [bind_ok, pure_ok] at h
    obtain ⟨_, _, htr, _, _, hsave, _, _, hrel, _, rfl⟩ := h
    obtain ⟨_, rfl, _⟩ := transition_logs htr
    exact (tells_waiting hrow hwaits (by decide) htr hsave (.inl rfl)
      rfl).trans (releaseQueued_day hrel).tells
  · exact .of_pure h

theorem resolveDependencyReadiness_tells {changed : List Uuid} {limit : ℕ}
    (h : resolveDependencyReadiness T.now locked limit db = .ok changed db') :
    Tells T db db' := by
  rw [resolveDependencyReadiness, bind_get] at h
  exact (resolveTasks_pass h).each (J := fun _ => True)
    (unresolvedTasks_waiting db locked limit) trivial Tells.refl Tells.trans
    fun hrow hwaits _ hcall => by
      obtain ⟨_, hres⟩ := hcall
      exact ⟨resolveTask_tells hrow hwaits hres, trivial,
        (resolveTask_follows (R := anyRules) hrow hwaits hres).2⟩

theorem releaseRetry_tells (hlife : Lifecycle db.cluster) (hrow : db.tasks.get? t = some task)
    (hretry : task.status = .retrying) (h : releaseRetry T.now t db = .ok u db') :
    Tells T db db' := by
  have hwaits : task.status ∈ waitingStatuses := by
    rw [hretry]
    decide
  have hcncl : task.cancelRequested = false := ((hlife.task hrow).waiting hwaits).2.2
  rw [releaseRetry, bind_get] at h
  simp only [hrow, hcncl, Bool.false_eq_true, if_false, bind_ok] at h
  obtain ⟨_, _, htr, hsave⟩ := h
  obtain ⟨_, rfl, _⟩ := transition_logs htr
  exact tells_waiting hrow hwaits (by decide) htr hsave (.inl rfl) rfl

theorem releaseDueRetries_tells {due : List Uuid} {limit : ℕ} (hlife : Lifecycle db.cluster)
    (h : releaseDueRetries T.now locked limit db = .ok due db') : Tells T db db' := by
  obtain ⟨hdue, hpass⟩ := releaseDueRetries_pass h
  refine hpass.each (J := fun d => Lifecycle d.cluster) hdue hlife Tells.refl Tells.trans
    fun hrow hretry hlife ⟨_, hrel⟩ => ?_
  obtain ⟨hfol, htch⟩ := releaseRetry_follows (R := anyRules) hlife hrow hretry hrel
  exact ⟨releaseRetry_tells hlife hrow hretry hrel, hfol.lifecycle hlife, htch⟩

theorem releaseQueuedIfTracked_tells {p : Uuid}
    (h : releaseQueuedIfTracked T.now p db = .ok u db') : Tells T db db' := by
  rw [releaseQueuedIfTracked, bind_get] at h
  split_ifs at h with htracked
  · obtain ⟨r, hqueue⟩ := void_ok h
    exact (releaseQueued_day hqueue).tells
  · exact .of_pure h

theorem cancelIdle_tells (hlife : Lifecycle db.cluster) (hrow : db.tasks.get? t = some task)
    (hwaits : task.status ∈ waitingStatuses) (h : cancelIdle T.now t task db = .ok task' db') :
    Tells T db db' := by
  have hwk : task.workerId = none := ((hlife.task hrow).waiting hwaits).2.1
  have hque : task.status = .pending ∨ task.status = .queued
      ∨ task.status = .scheduling ∨ task.status = .retrying := by
    revert hwaits
    cases task.status <;> decide
  simp only [cancelIdle, hque, if_true, hwk, releaseWorkerCapacity, bind_ok, pure_ok] at h
  obtain ⟨_, _, htr, _, _, hsave, _, _, hrel, _, _, ⟨_, rfl⟩, _, rfl⟩ := h
  obtain ⟨_, rfl, _⟩ := transition_logs htr
  exact (tells_waiting hrow hwaits (by decide) htr hsave (.inr rfl)
    rfl).trans (releaseQueuedIfTracked_tells hrel)

/-- **CANCELLATION** drops a waiting task and asks a held one to stop. -/
theorem cancel_tells {result : Option Task} (hlife : Lifecycle db.cluster)
    (h : cancel T.now t db = .ok result db') : Tells T db db' := by
  rw [cancel, bind_get] at h
  cases hrow : db.tasks.get? t with
  | none =>
    simp only [hrow] at h
    exact .of_pure h
  | some task =>
  simp only [hrow] at h
  split_ifs at h with hfin hpre hheld hstop
  · exact .of_pure h
  · simp only [bind_ok, pure_ok] at h
    obtain ⟨_, _, hsave, _, rfl⟩ := h
    exact saveTask_unread hsave hrow rfl
  · simp only [bind_ok, pure_ok] at h
    obtain ⟨_, mid, htr, _, _, hsave, _, rfl⟩ := h
    obtain ⟨_, rfl, _⟩ := transition_logs htr
    -- the request is on the row before the transition
    refine TellsOf.saved ?_ hrow hsave
    show TellsOf T t { task with cancelRequested := true } db _ mid
    refine tellsOf_change hrow htr ?_
    intro hcan
    have hlau : task.status ∈ launchStatuses := by
      revert hcan
      show CanTransition task.status .stopping → task.status ∈ launchStatuses
      cases task.status <;> decide
    exact ⟨⟨rfl, rfl, rfl, rfl, .inl rfl⟩, hcan, .inr ⟨hlau, by decide⟩, rfl, rfl,
      rfl, rfl, .inl ⟨rfl, by decide⟩⟩
  · rw [not_not] at hstop
    simp only [hstop, bind_ok, pure_ok] at h
    obtain ⟨_, _, ⟨rfl, rfl⟩, _, _, hsave, _, rfl⟩ := h
    refine saveTask_adjusts hsave hrow
      ⟨⟨rfl, rfl, rfl, rfl, .inl rfl⟩, ?_, le_refl _, rfl, id⟩ (.inl ⟨rfl, rfl⟩)
    exact hstop.symm
  · simp only [bind_ok, pure_ok] at h
    obtain ⟨_, _, hidle, _, rfl⟩ := h
    exact cancelIdle_tells hlife hrow (waiting_of_idle hlife hrow hfin hheld) hidle

end Waiting

end MiniAiCloud
