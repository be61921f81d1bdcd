import MiniAiCloud.Settlement

/-! # What the control plane remembers: entries, events, plans and bills

    The second abstract model.  The cluster forgets how a state was reached; the
    chronicle keeps what is written for later: the log of each task, the plans to
    preempt it, the attempts it was given and charged for, what its executions are
    billed and when the lease of the current one runs out.  A deed is what one
    write means for all of these at once; the moment, the cleanup grace and the
    recovery budget of the call are its terms. -/

namespace MiniAiCloud

/-! ## The state -/

/-- The columns of a task that its records depend on. -/
structure Entry where
  spec : TaskSpec
  status : TaskStatus
  version : ℤ
  execution : Option Uuid
  startedAt : Option Time
  lease : Option Time
  /-- The runtime object of the execution was recorded. -/
  handled : Bool
  retries : ℤ
  recoveries : ℤ
  preemptions : ℤ

/-- What an execution was minted with. -/
structure Bill where
  task : Uuid
  attempt : ℤ
  cpu : ℤ
  memory : ℤ
  gpus : ℤ
  runtime : RuntimeType

/-- A reservation, active or released. -/
structure Stub where
  task : Uuid
  project : Uuid
  releasedAt : Option Time

/-- What a project has settled on its accounting day. -/
structure Day where
  date : Date
  settled : ℚ

structure Chronicle where
  entries : Table Uuid Entry
  events : List TaskEvent
  plans : List PreemptionPlan
  bills : Table Uuid Bill
  stubs : Table Uuid Stub
  ledger : Table Uuid UsageLedger
  days : Table Uuid Day

/-- The terms of a call. -/
structure Terms where
  now : Time
  /-- How often a lost execution may be recovered. -/
  attempts : ℤ
  /-- How long a Kubernetes Job may take to clean up. -/
  grace : ℚ
  /-- The call picks a placement up. -/
  pickup : Bool

/-! ## Entries -/

def Day.rolled (day : Day) (now : Time) : Day :=
  if day.date ≠ now.date then ⟨now.date, 0⟩ else day

def Day.plus (day : Day) (cost : ℚ) : Day := { day with settled := day.settled + cost }

/-- The lease outlives the Job: a started one by its timeout and the cleanup, one
    that has not started as if it started now. -/
def Entry.Leased (T : Terms) (e : Entry) : Prop :=
  e.spec.runtimeType = .kubernetes → e.handled = true →
    ∃ lease, e.lease = some lease
      ∧ min T.now (e.startedAt.getD T.now) + e.spec.timeoutSeconds + T.grace ≤ lease

/-- What no write but a charge changes. -/
structure Entry.Same (e e' : Entry) : Prop where
  spec : e'.spec = e.spec
  retries : e'.retries = e.retries
  recoveries : e'.recoveries = e.recoveries
  preemptions : e'.preemptions = e.preemptions
  execution : e'.execution = e.execution ∨ e.status ∉ holdingStatuses ∧ e'.execution = none

/-- A write that leaves the status alone. -/
structure Entry.Adjusts (e e' : Entry) : Prop extends e.Same e' where
  status : e'.status = e.status
  version : e.version ≤ e'.version
  startedAt : e'.startedAt = e.startedAt
  handled : e.handled = true → e'.handled = true

/-- A status change of a job that waits, or of one that launches. -/
structure Entry.Changes (T : Terms) (e : Entry) (target : TaskStatus) (e' : Entry) : Prop
    extends e.Same e' where
  allowed : CanTransition e.status target
  kind : e.status ∈ waitingStatuses ∧ target ∈ [TaskStatus.queued, .cancelled]
    ∨ e.status ∈ launchStatuses
      ∧ target ∈ [TaskStatus.preparing, .pulling, .starting, .running, .stopping]
  status : e'.status = target
  version : e'.version = e.version + 1
  startedAt : e'.startedAt = if target = .running then some T.now else e.startedAt
  handled : e'.handled = e.handled
  -- picking up a placement sets an ordinary lease
  lease : e'.lease = e.lease ∧ target ≠ .running ∨ e'.Leased T
    ∨ target = .preparing ∧ T.pickup = true ∨ e.status ∉ holdingStatuses

/-- The budget a job is requeued on. -/
inductive Entry.Charges (T : Terms) (e : Entry) : Entry → Prop where
  | retry (hstatus : e.status = .failed ∨ e.status = .timedOut)
      (hbudget : e.retries < e.spec.maxRetries) :
      Charges T e { e with retries := e.retries + 1 }
  | recovery (hstatus : e.status = .failed) (hbudget : e.recoveries < T.attempts) :
      Charges T e { e with recoveries := e.recoveries + 1 }
  /-- A preemption was charged when it was asked for. -/
  | preempted (hstatus : e.status = .preempted) : Charges T e e

/-! ## The log -/

/-- The log entry of a status change. -/
structure Logs (T : Terms) (t : Uuid) (e : Entry) (target : TaskStatus)
    (event : TaskEvent) : Prop where
  task : event.taskId = t
  before : event.fromStatus = some e.status
  after : event.status = target
  sequence : event.sequence = e.version + 1
  execution : target = .running → event.executionId = e.execution
  time : event.createdAt = T.now

/-- Log entries of a task that lead from one status and version to another. -/
inductive Leads (t : Uuid) : TaskStatus → ℤ → List TaskEvent → TaskStatus → ℤ → Prop where
  | done {s : TaskStatus} {v w : ℤ} (h : v ≤ w) : Leads t s v [] s w
  | step {s s' : TaskStatus} {v w : ℤ} {event : TaskEvent} {rest : List TaskEvent}
      (task : event.taskId = t) (before : event.fromStatus = some s)
      (allowed : CanTransition s event.status) (sequence : v < event.sequence)
      (hrest : Leads t event.status event.sequence rest s' w) :
      Leads t s v (event :: rest) s' w

/-! ## Deeds -/

namespace Chronicle

/-- The greatest attempt number of a task. -/
def lastAttempt (c : Chronicle) (t : Uuid) : ℤ :=
  ((c.bills.select (fun _ bill => bill.task = t)).map (fun row => row.2.attempt)).foldl max 0

/-- What an assignment brings. -/
structure Assigns (c : Chronicle) (t x : Uuid) (e e' : Entry) (events : List TaskEvent)
    (bill : Bill) (stub : Stub) : Prop where
  entry : c.entries.get? t = some e
  queued : e.status = .queued
  bill_fresh : c.bills.get? x = none
  stub_fresh : c.stubs.get? x = none
  bill_task : bill.task = t
  bill_attempt : bill.attempt = c.lastAttempt t + 1
  bill_runtime : bill.runtime = e.spec.runtimeType
  stub_task : stub.task = t
  stub_active : stub.releasedAt = none
  spec : e'.spec = e.spec
  status : e'.status = .assigned
  execution : e'.execution = some x
  startedAt : e'.startedAt = none
  retries : e'.retries = e.retries
  recoveries : e'.recoveries = e.recoveries
  preemptions : e'.preemptions = e.preemptions
  leads : Leads t e.status e.version events .assigned e'.version
  quiet : ∀ event ∈ events, event.status ≠ .running

/-- The ledger row of an execution that ran from `start`. -/
structure Bills (T : Terms) (t : Uuid) (bill : Bill) (stub : Stub) (start : Time)
    (usage : UsageLedger) : Prop where
  task : usage.taskId = t
  project : usage.projectId = stub.project
  startedAt : usage.startedAt = start
  finishedAt : usage.finishedAt = T.now
  period : start ≤ T.now
  cpuSeconds : usage.cpuSeconds = (T.now - start) * bill.cpu / 1000
  memoryGbSeconds : usage.memoryGbSeconds = (T.now - start) * bill.memory / 1024
  gpuSeconds : usage.gpuSeconds = (T.now - start) * bill.gpus

/-- What the release of an execution settles: nothing where it has not started or
    is settled already, else one ledger row. -/
inductive Settles (T : Terms) (ledger : Table Uuid UsageLedger) (t x : Uuid)
    (startedAt : Option Time) (bill : Bill) (stub : Stub) : Option UsageLedger → Prop where
  | unstarted (h : startedAt = none) : Settles T ledger t x startedAt bill stub none
  | settled (h : ledger.get? x ≠ none) : Settles T ledger t x startedAt bill stub none
  | usage (start : Time) (usage : UsageLedger) (hstart : startedAt = some start)
      (hnew : ledger.get? x = none) (hbills : Bills T t bill stub start usage) :
      Settles T ledger t x startedAt bill stub (some usage)

/-- The state after a release. -/
def released (c : Chronicle) (x : Uuid) (stub : Stub) (day : Day)
    (usage : Option UsageLedger) (now : Time) : Chronicle :=
  { c with
    stubs := c.stubs.set x { stub with releasedAt := some now }
    ledger := match usage with
      | none => c.ledger
      | some row => c.ledger.insert x row
    days := c.days.set stub.project
      ((day.rolled now).plus ((usage.map (fun row => row.cost)).getD 0)) }

/-- **THE DEEDS**: what a write means for the records. -/
inductive Deed (T : Terms) (c : Chronicle) : Chronicle → Prop where
  | openDay (p : Uuid) (hnew : c.days.get? p = none) :
      Deed T c { c with days := c.days.insert p ⟨T.now.date, 0⟩ }
  | roll (p : Uuid) (day : Day) (hday : c.days.get? p = some day) :
      Deed T c { c with days := c.days.set p (day.rolled T.now) }
  | create (t : Uuid) (e : Entry) (event : TaskEvent) (hnew : c.entries.get? t = none)
      (hstatus : e.status = .pending) (hversion : 0 ≤ e.version)
      (hexecution : e.execution = none)
      (hcounters : e.retries = 0 ∧ e.recoveries = 0 ∧ e.preemptions = 0)
      (htask : event.taskId = t) (hbefore : event.fromStatus = none)
      (hafter : event.status = .pending) (hsequence : event.sequence = 0) :
      Deed T c { c with
        entries := c.entries.insert t e
        events := c.events ++ [event] }
  | adjust (t : Uuid) (e e' : Entry) (hentry : c.entries.get? t = some e)
      (hadjusts : e.Adjusts e')
      (hlease : e'.lease = e.lease ∧ e'.handled = e.handled ∨ e'.Leased T
        ∨ e.status ∉ holdingStatuses
        ∨ ∃ x bill, e.execution = some x ∧ c.bills.get? x = some bill
          ∧ bill.runtime ≠ .kubernetes) :
      Deed T c { c with entries := c.entries.set t e' }
  | change (t : Uuid) (e e' : Entry) (target : TaskStatus) (event : TaskEvent)
      (hentry : c.entries.get? t = some e) (hchanges : e.Changes T target e')
      (hlogs : Logs T t e target event) :
      Deed T c { c with
        entries := c.entries.set t e'
        events := c.events ++ [event] }
  | assign (t x : Uuid) (e e' : Entry) (events : List TaskEvent) (bill : Bill)
      (stub : Stub) (hassigns : c.Assigns t x e e' events bill stub) :
      Deed T c { c with
        entries := c.entries.set t e'
        events := c.events ++ events
        bills := c.bills.insert x bill
        stubs := c.stubs.insert x stub }
  | preempt (t incoming : Uuid) (w : WorkerId) (e : Entry) (event : TaskEvent)
      (hentry : c.entries.get? t = some e) (hlaunch : e.status ∈ launchStatuses)
      (hlogs : Logs T t e .preempting event)
      (hworker : ∀ plan ∈ c.plans, plan.incomingTaskId = incoming →
        plan.state = .requested → plan.workerId = w) :
      Deed T c { c with
        entries := c.entries.set t { e with
          status := .preempting
          version := e.version + 1
          preemptions := e.preemptions + 1 }
        events := c.events ++ [event]
        plans := c.plans ++ [{
          incomingTaskId := incoming
          victimTaskId := t
          workerId := w
          state := .requested
          createdAt := T.now }] }
  | finish (t : Uuid) (e : Entry) (target : TaskStatus) (event : TaskEvent)
      (hentry : c.entries.get? t = some e) (hholding : e.status ∈ holdingStatuses)
      (hallowed : CanTransition e.status target) (hfinal : target ∈ finalTaskStatuses)
      (hlogs : Logs T t e target event) :
      Deed T c { c with
        entries := c.entries.set t { e with status := target, version := e.version + 1 }
        events := c.events ++ [event]
        plans := if e.status = .preempting
          then c.plans.map (fun plan => plan.completedFor t T.now) else c.plans }
  | release (t x : Uuid) (e : Entry) (bill : Bill) (stub : Stub) (day : Day)
      (usage : Option UsageLedger) (hentry : c.entries.get? t = some e)
      (hended : e.status ∈ finalTaskStatuses)
      (hexecution : e.execution = some x) (hbill : c.bills.get? x = some bill)
      (hstub : c.stubs.get? x = some stub) (hactive : stub.releasedAt = none)
      (hday : c.days.get? stub.project = some day)
      (hsettles : Settles T c.ledger t x e.startedAt bill stub usage) :
      Deed T c (c.released x stub day usage T.now)
  | requeue (t : Uuid) (e charged : Entry) (event : TaskEvent)
      (hentry : c.entries.get? t = some e) (hcharges : e.Charges T charged)
      (hlogs : Logs T t charged .retrying event) :
      Deed T c { c with
        entries := c.entries.set t { charged with
          status := .retrying, version := charged.version + 1, execution := none }
        events := c.events ++ [event] }

/-- Any number of deeds under the same terms. -/
abbrev Deeds (T : Terms) : Chronicle → Chronicle → Prop :=
  Relation.ReflTransGen (Deed T)

end Chronicle

end MiniAiCloud
