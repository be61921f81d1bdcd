import MiniAiCloud.ReservationProofs

/-! # Execution fencing

    A worker names the execution and the session it speaks for.  A message is
    stale when the execution is not the current one, its reservation was released,
    or the session is not the one the worker and the reservation have now.  Nine
    calls repeat the fence, each in its own way; what follows is that a stale
    message is rejected, and what it can leave behind. -/

namespace MiniAiCloud

open Transaction Reachability Cluster Option

/-! ## Messages -/

/-- The identity a worker-side call carries; `append_log` is one where it names
    the worker and the execution. -/
def Op.caller : Op → Option Caller
  | .markPulling c _ _ => some c
  | .markStarting c _ _ => some c
  | .markRunning c _ _ => some c
  | .recordRuntimeHandle c _ _ => some c
  | .advanceRuntimeLogCursor c _ _ _ _ => some c
  | .appendLog t (some x) _ _ (some w) session => some ⟨t, w, x, session⟩
  | .renewLease c _ _ => some c
  | .preserveKubernetesHandoffLease c _ => some c
  | .finishExecution c _ => some c
  | _ => none

/-- The call returns and does not say no: `renew_lease` and `finish_execution`
    answer, every other call raises where it is rejected. -/
def Op.Accepted (now : Time) (db : Db) : Op → Prop
  | .renewLease c lease grace =>
    returned (MiniAiCloud.renewLease now c lease grace) db = some true
  | .finishExecution c report =>
    (returned (MiniAiCloud.finishExecution now c report) db).map (fun r => r.accepted)
      = some true
  | op => returned (op.run now) db ≠ none

/-- Why a message of a session is stale. -/
inductive Stale (db : Db) (c : Caller) (session : Uuid) : Prop where
  /-- The execution is not the current one of the task. -/
  | token (h : ∀ task, db.tasks.get? c.taskId = some task →
      task.executionId ≠ some c.executionId)
  /-- The reservation was released. -/
  | released (h : ∀ r, db.reservations.get? c.executionId = some r → r.releasedAt ≠ none)
  /-- The worker has registered with another session. -/
  | session (h : ∀ worker, db.workers.get? c.workerId = some worker →
      worker.workerSessionId ≠ session)
  /-- The execution was not transferred to the session. -/
  | untransferred (h : ∀ r, db.reservations.get? c.executionId = some r →
      r.workerSessionId ≠ session)

section Fence

variable {db db' : Db} {c : Caller} {session : Uuid} {now : Time}

/-- A stale message fails one of the two checks of the fence. -/
theorem Stale.not_owned (h : Stale db c session) {task : Task}
    (htask : currentTask db c = some task) :
    ¬ SessionOwnsExecution db c.workerId c.executionId session := by
  rintro ⟨⟨worker, hw, hwk⟩, r, hr, _, hsess, hact⟩
  obtain ⟨hrow, _, hexec⟩ := currentTask_eq_some.mp htask
  cases h with
  | token h => exact h task hrow hexec
  | released h => exact h r hr hact
  | session h => exact h worker hw hwk
  | untransferred h => exact h r hr hsess

variable (hs : c.workerSessionId = some session)

include hs

/-- `_owned_task` raises for a stale message. -/
theorem ownedTask_stale
    (h : Stale db c session) (task : Task) : ownedTask c db ≠ .ok task db' := by
  intro hok
  obtain ⟨hfence, howns, _⟩ := ownedTask_ok.mp hok
  exact h.not_owned (currentTask_eq_some.mpr hfence) (howns session hs)

/-- What starts with `_owned_task` never returns to a stale message. -/
theorem owned_bind_stale {α : Type} {f : Task → Txn α} (h : Stale db c session) (a : α) :
    (ownedTask c >>= f) db ≠ .ok a db' := by
  intro hok
  obtain ⟨task, _, hown, _⟩ := bind_ok.mp hok
  exact ownedTask_stale hs h task hown

/-- `renew_lease` answers a stale message with no, and writes nothing. -/
theorem renewLease_stale (h : Stale db c session) (lease grace : ℚ) :
    renewLease now c lease grace db = .ok false db := by
  rw [renewLease, bind_get]
  cases htask : currentTask db c with
  | none => rfl
  | some task =>
    have hstale : task.status ∉ activeTaskStatuses ∨ ∃ s ∈ c.workerSessionId,
        ¬ SessionOwnsExecution db c.workerId c.executionId s :=
      Or.inr ⟨session, hs, h.not_owned htask⟩
    simp only [if_pos hstale]
    rfl

/-- `finish_execution` does not accept a stale message.  It leaves nothing
    behind, or the quota row it locked, rolled to the current day. -/
theorem finishExecution_stale (h : Stale db c session) (report : Report) {result : ExecutionResult}
    (hok : finishExecution now c report db = .ok result db') :
    result.accepted = false ∧ (db' = db ∨ ∃ task row, currentTask db c = some task
      ∧ task.status ∈ activeTaskStatuses
      ∧ db.quotaStates.get? task.projectId = some row
      ∧ db' = db.withQuotaState task.projectId (rollDailyState row now)) := by
  rcases finishExecution_ok hok with
    ⟨hno, hdb⟩ | ⟨task, owned, mid, htask, hact, hfence, _, hend⟩
  · exact ⟨hno, Or.inl hdb⟩
  simp only [finishFence, hs] at hfence
  obtain ⟨_, _, hlock, hread⟩ := bind_ok.mp hfence
  obtain ⟨_, row, _, hrow, _, _, hlckd⟩ := getLocked_ok.mp hlock
  rw [bind_get] at hread
  obtain ⟨hown, rfl⟩ := pure_ok.mp hread
  rcases hend with ⟨_, hno, rfl⟩ | ⟨hyes, _⟩
  · exact ⟨hno, Or.inr ⟨task, row, htask, hact, hrow, hlckd⟩⟩
  · -- the lock writes the quota row only, so the session is as stale as before
    refine absurd (of_decide_eq_true (hown.trans hyes)) ?_
    rw [hlckd]
    exact h.not_owned htask

omit hs

/-- What a rejected message may leave behind: nothing, or, where
    `finish_execution` found the task active and the session stale, the quota row
    of the project, rolled to the current day. -/
inductive LeftBy (i : Call) (c : Caller) (db : Db) : Db → Prop where
  | nothing : LeftBy i c db db
  | rolled (report : Report) (task : Task) (row : ProjectQuotaState)
      (hop : i.op = .finishExecution c report) (htask : currentTask db c = some task)
      (hactive : task.status ∈ activeTaskStatuses)
      (hrow : db.quotaStates.get? task.projectId = some row) :
      LeftBy i c db (db.withQuotaState task.projectId (rollDailyState row i.now))

/-- A call that raises does not return and leaves nothing behind. -/
theorem LeftBy.of_raises {i : Call} (h : ∀ u db', i.op.run i.now db ≠ .ok u db') :
    ¬ returned (i.op.run i.now) db ≠ none ∧ LeftBy i c db (controlPlane.step i db) := by
  obtain ⟨hret, hcom⟩ := commit_of_raises h
  refine ⟨not_not.mpr hret, ?_⟩
  show LeftBy i c db (commit (i.op.run i.now) db)
  rw [hcom]
  exact .nothing

/-- **ONE STALE MESSAGE** is rejected. -/
theorem stale_message {i : Call} (hc : i.op.caller = some c)
    (hs : c.workerSessionId = some session) (h : Stale db c session) :
    ¬ i.op.Accepted i.now db ∧ LeftBy i c db (controlPlane.step i db) := by
  obtain ⟨now, op⟩ := i
  cases op with
  | markPulling c' lease grace | markStarting c' lease grace | markRunning c' lease grace
  | recordRuntimeHandle c' o grace | preserveKubernetesHandoffLease c' grace =>
    obtain rfl := some.inj hc
    exact LeftBy.of_raises (void_returns (fun a _ => owned_bind_stale hs h a))
  | advanceRuntimeLogCursor =>
    obtain rfl := some.inj hc
    refine LeftBy.of_raises (void_returns ?_)
    intro a _ hok
    -- the cursor is checked before the fence
    obtain ⟨hcursor, hr⟩ := raise_ok.mp hok
    exact owned_bind_stale hs h a hr
  | appendLog _ x _ _ w s =>
    cases x with
    | none => cases hc
    | some =>
      cases w with
      | none => cases hc
      | some =>
        obtain rfl := some.inj hc
        have hs' : s = some session := hs
        subst hs'
        refine LeftBy.of_raises (void_returns ?_)
        intro _ _ hok
        obtain ⟨task, _, htask, _⟩ := bind_ok.mp hok
        exact ownedTask_stale hs h task htask
  | renewLease c' lease grace =>
    obtain rfl := some.inj hc
    have hrenew : renewLease now c' lease grace db = .ok false db :=
      renewLease_stale hs h lease grace
    refine ⟨?_, ?_⟩
    · intro hacc
      obtain ⟨_, hok⟩ := returned_eq_some.mp hacc
      rw [hrenew] at hok
      cases hok
    · have hstep : controlPlane.step ⟨now, .renewLease c' lease grace⟩ db = db :=
        (commit_void _ db).trans (commit_of_ok hrenew)
      rw [hstep]
      exact .nothing
  | finishExecution c' report =>
    obtain rfl := some.inj hc
    refine ⟨?_, ?_⟩
    · intro hacc
      obtain ⟨_, hret, hyes⟩ := map_eq_some_iff.mp hacc
      obtain ⟨_, hok⟩ := returned_eq_some.mp hret
      rw [(finishExecution_stale hs h report hok).1] at hyes
      cases hyes
    · cases hrun : finishExecution now c' report db with
      | error =>
        have hstep : controlPlane.step ⟨now, .finishExecution c' report⟩ db = db :=
          (commit_void _ db).trans (commit_of_error hrun)
        rw [hstep]
        exact .nothing
      | ok _ db' =>
        have hstep : controlPlane.step ⟨now, .finishExecution c' report⟩ db = db' :=
          (commit_void _ db).trans (commit_of_ok hrun)
        rw [hstep]
        rcases (finishExecution_stale hs h report hrun).2 with
          heq | ⟨task, row, htask, hact, hrow, hrol⟩
        · rw [heq]
          exact .nothing
        · rw [hrol]
          exact .rolled report task row rfl htask hact hrow
  | _ => cases hc

end Fence

/-! ## Revoked executions -/

section Revocation

variable {db db' : Db} {c : Caller} {session : Uuid} {now : Time}

/-- An accepted report has released the reservation of its execution. -/
theorem finishExecution_releases {report : Report} {result : ExecutionResult}
    (hlife : Lifecycle db.cluster) (hs : c.workerSessionId = some session)
    (h : finishExecution now c report db = .ok result db')
    (hacc : result.accepted = true) : db'.cluster.Released c.executionId := by
  rcases finishExecution_ok h with ⟨hno, _⟩ | ⟨task, _, mid, _, hact, hfence, huns, hend⟩
  · exact absurd hno (by rw [hacc]; decide)
  rcases hend with ⟨_, hno, _⟩ | ⟨rfl, hfncd, hstt⟩
  · exact absurd hno (by rw [hacc]; decide)
  -- behind the fence the reservation is active
  simp only [finishFence, hs] at hfence
  obtain ⟨_, _, _, hread⟩ := bind_ok.mp hfence
  rw [bind_get] at hread
  obtain ⟨hown, rfl⟩ := pure_ok.mp hread
  obtain ⟨_, r, hr, _, _, hheld⟩ := of_decide_eq_true hown
  rw [← huns.2.1] at hlife
  exact (settleReport_follows (R := anyRules) hlife hfncd hact trivial hstt).2 r.hold
    (cluster_hold hr) (isNone_iff_eq_none.mpr hheld)

/-- A message for an execution whose reservation was released is stale. -/
theorem stale_of_released (h : db.cluster.Released c.executionId) : Stale db c session := by
  refine .released ?_
  intro r hr hact
  obtain ⟨e, he, hdead⟩ := h
  rw [cluster_hold hr] at he
  rw [← some.inj he] at hdead
  have hlive : r.hold.live = true := isNone_iff_eq_none.mpr hact
  rw [hlive] at hdead
  cases hdead

/-- A message for a revoked execution changes nothing at all: the task is not
    active with it, so `finish_execution` does not even lock the project. -/
theorem revoked_message {i : Call} (hlife : Lifecycle db.cluster)
    (h : db.cluster.Revoked c.taskId c.executionId) (hc : i.op.caller = some c)
    (hs : c.workerSessionId = some session) :
    ¬ i.op.Accepted i.now db ∧ controlPlane.step i db = db := by
  obtain ⟨hrejected, hleft⟩ := stale_message hc hs (stale_of_released h.released)
  refine ⟨hrejected, ?_⟩
  generalize controlPlane.step i db = left at hleft
  cases hleft with
  | nothing => rfl
  | rolled _ task _ _ htask hact =>
    obtain ⟨htaskRow, _, hexec⟩ := currentTask_eq_some.mp htask
    exact absurd hexec (h.idle task.job (cluster_job htaskRow)
      (holding_of_active hlife htaskRow hact))

/-- An execution that a task held and no longer holds was revoked. -/
theorem revoked_of_lost {db₁ : Db} {t x : Uuid} {task : Task}
    (hlife : Lifecycle db.cluster) (hbak : Backed db.cluster)
    (hrow : db.tasks.get? t = some task) (hact : task.status ∈ activeTaskStatuses)
    (hx : task.executionId = some x) (hfol : Follows anyRules db db₁)
    (hlost : ∀ task₁, db₁.tasks.get? t = some task₁ → task₁.status ∈ activeTaskStatuses →
      task₁.executionId ≠ some x) : db₁.cluster.Revoked t x := by
  have hheld := holding_of_active hlife hrow hact
  have hlost' : ∀ job, db₁.cluster.jobs.get? t = some job → job.status ∈ holdingStatuses →
      job.execution ≠ some x := by
    intro _ hjob hholds
    obtain ⟨task₁, hrow₁, rfl⟩ := Table.get?_map_eq_some.mp hjob
    exact hlost task₁ hrow₁ (active_of_holding _ hholds)
  obtain ⟨e, he, hown⟩ := hfol.keeps (fun _ _ ha hab => Tied.step ha hab)
    (hbak.tied (cluster_job hrow) hheld hx)
  have hmint := hfol.keeps (I := fun a => a.executions.get? x ≠ none)
    (fun a b ha hab hn => by
      obtain ⟨_, hgrant⟩ := ne_none_iff_exists'.mp ha
      rw [hab.executions_kept hgrant] at hn
      cases hn) (hbak t task.job x (cluster_job hrow) hx).2
  refine ⟨⟨e, he, ?_⟩, hmint, hlost'⟩
  cases hlive : e.live with
  | false => rfl
  | true =>
    obtain ⟨job, hjob, hholds, hexec⟩ := hown hlive
    exact absurd hexec (hlost' job hjob hholds)

end Revocation

/-! ## Fencing over whole runs -/

/-- **EXECUTION FENCING**: in every reachable state a stale message is rejected and
    leaves at most a rolled quota row; once a task has lost an execution, no later
    message for it changes anything; and `finish_execution` is accepted at most
    once for an execution. -/
theorem execution_fencing (db : Db) (h : Reach controlPlane anyCall db) :
    (∀ i c session, i.op.caller = some c → c.workerSessionId = some session → Stale db c session →
      ¬ i.op.Accepted i.now db ∧ LeftBy i c db (controlPlane.step i db))
    ∧ (∀ t task x, db.tasks.get? t = some task → task.status ∈ activeTaskStatuses →
      task.executionId = some x →
      ∀ db₁, Reachability.Steps controlPlane anyCall db db₁ →
      (∀ task₁, db₁.tasks.get? t = some task₁ → task₁.status ∈ activeTaskStatuses →
        task₁.executionId ≠ some x) →
      ∀ db₂, Reachability.Steps controlPlane anyCall db₁ db₂ →
      ∀ i c session, i.op.caller = some c → c.taskId = t → c.executionId = x →
      c.workerSessionId = some session →
      ¬ i.op.Accepted i.now db₂ ∧ controlPlane.step i db₂ = db₂)
    ∧ (∀ now c report session, c.workerSessionId = some session →
      Op.Accepted now db (.finishExecution c report) →
      ∀ db₂, Reachability.Steps controlPlane anyCall
        (controlPlane.step ⟨now, .finishExecution c report⟩ db) db₂ →
      ∀ now' c' report' session', c'.executionId = c.executionId →
      c'.workerSessionId = some session' →
      ¬ Op.Accepted now' db₂ (.finishExecution c' report')) := by
  obtain ⟨hlife, hbak⟩ := reach_any (I := Backed)
    (fun t job x hjob => by cases hjob) (fun a b _ hbak hstep => hbak.step hstep) h
  refine ⟨?_, ?_, ?_⟩
  · intro _ _ _ hc hs hstale
    exact stale_message hc hs hstale
  · intro _ _ _ hrow hact hx _ hsteps₁ hlost _ hsteps₂ _ _ _ hc ht hxc hs
    subst ht hxc
    have hfollows₁ := steps_any hlife hsteps₁
    have hlife₁ := hfollows₁.lifecycle hlife
    have hfollows₂ := steps_any hlife₁ hsteps₂
    have hrevoked := revoked_of_lost hlife hbak hrow hact hx hfollows₁ hlost
    exact revoked_message (hfollows₂.lifecycle hlife₁)
      (hfollows₂.keeps (fun _ _ ha hab => Revoked.step ha hab) hrevoked) hc hs
  · intro now c report _ hs hacc _ hsteps now' c' report' _ heq hs'
    obtain ⟨_, hret, hyes⟩ := map_eq_some_iff.mp hacc
    obtain ⟨db₁, hok⟩ := returned_eq_some.mp hret
    have hstep : controlPlane.step ⟨now, .finishExecution c report⟩ db = db₁ :=
      (commit_void _ db).trans (commit_of_ok hok)
    rw [hstep] at hsteps
    have hlife₁ : Lifecycle db₁.cluster := by
      rw [← hstep]
      exact (step_follows hlife (anyRules_keeps _ db)).lifecycle hlife
    have hrel := (steps_any hlife₁ hsteps).keeps (fun _ _ ha hab => Released.step ha hab)
      (finishExecution_releases hlife hs hok hyes)
    rw [← heq] at hrel
    exact (stale_message (i := ⟨now', .finishExecution c' report'⟩) rfl hs'
      (stale_of_released hrel)).1

/-- The worker has claimed the first task and registers again. -/
def rejoinedCalls : List Call :=
  claimedCalls ++ [⟨4, .register "w" gpuWorker 200⟩]

def rejoinedCloud : Db := controlPlane.run rejoinedCalls freshCloud

/-- The session the task was claimed in is not the worker's any more. -/
theorem rejoinedCloud_stale : Stale rejoinedCloud firstOwner 100 := by
  have hsess : (rejoinedCloud.workers.get? "w").map (·.workerSessionId)
      = some 200 := by decide +kernel
  refine .session ?_
  intro worker hw hold
  have hw' : rejoinedCloud.workers.get? "w" = some worker := hw
  rw [hw'] at hsess
  have hnew : worker.workerSessionId = 200 := some.inj hsess
  rw [hnew] at hold
  exact absurd hold (by decide)

/-- A heartbeat of the old session is rejected. -/
theorem execution_fencing_old_session : ¬ Op.Accepted 5 rejoinedCloud (.renewLease firstOwner 30 5)
      ∧ LeftBy ⟨5, .renewLease firstOwner 30 5⟩ firstOwner rejoinedCloud
          (controlPlane.step ⟨5, .renewLease firstOwner 30 5⟩ rejoinedCloud) :=
  (execution_fencing rejoinedCloud (freshCloud_run _)).1 ⟨5, .renewLease firstOwner 30 5⟩
    firstOwner 100 rfl rfl rejoinedCloud_stale

/-- On the next day the old session reports its result.  The report is rejected,
    yet the quota row of the project has changed: it was locked, and with that
    rolled to the new day, before the session was looked at. -/
theorem stale_report_rolls_quota :
    Reach controlPlane anyCall rejoinedCloud ∧ Stale rejoinedCloud firstOwner 100
      ∧ ¬ Op.Accepted 90000 rejoinedCloud (.finishExecution firstOwner succeededReport)
      ∧ (controlPlane.step ⟨90000, .finishExecution firstOwner succeededReport⟩
          rejoinedCloud).quotaStates.get? 7 ≠ rejoinedCloud.quotaStates.get? 7 := by
  refine ⟨freshCloud_run _, rejoinedCloud_stale, ?_, ?_⟩
  · exact (stale_message (i := ⟨90000, .finishExecution firstOwner succeededReport⟩) rfl rfl
      rejoinedCloud_stale).1
  · intro heq
    have hbef : (rejoinedCloud.quotaStates.get? 7).map (·.accountingDate)
        = some 0 := by decide +kernel
    have hafter : ((controlPlane.step ⟨90000, .finishExecution firstOwner succeededReport⟩
          rejoinedCloud).quotaStates.get? 7).map (·.accountingDate) = some 1 := by
      decide +kernel
    rw [heq, hbef] at hafter
    cases hafter

end MiniAiCloud
