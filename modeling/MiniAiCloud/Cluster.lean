import MiniAiCloud.Digraph
import MiniAiCloud.Schema

/-! # What the control plane is for: jobs, holds and books

    The abstract model.  A job waits, holds capacity or has ended.  A live hold
    takes one slot, CPU, memory and accelerators of a worker for one job, and the
    book of the job's project counts what the project has waiting and what its
    live holds take.  A worker joins under a session,
    and a hold is owned by a session of its worker.  The steps say how these may
    change together; which results an ending may have, what a hold charges to its
    worker and which workers join again are parameters. -/

namespace MiniAiCloud

/-! ## The state -/

structure Job where
  project : Uuid
  /-- How many accelerators the job asks for. -/
  gpus : ℤ
  status : TaskStatus
  worker : Option WorkerId
  execution : Option Uuid
  /-- A stop has been asked for. -/
  cancel : Bool
  /-- The user is who asked. -/
  userCancel : Bool

structure Hold where
  project : Uuid
  job : Uuid
  worker : WorkerId
  /-- The session of the worker that owns the hold. -/
  session : Uuid
  cpu : ℤ
  memory : ℤ
  gpus : ℤ
  vendor : Option AcceleratorVendor
  /-- The control plane binds concrete devices to the hold. -/
  exact : Bool
  live : Bool

/-- What an execution was minted for. -/
structure Grant where
  job : Uuid
  cpu : ℤ
  memory : ℤ
  gpus : ℤ

structure Slot where
  /-- The session the worker last joined with. -/
  session : Uuid
  running : ℤ
  cpu : ℚ
  memory : ℤ
  gpus : ℤ

structure Book where
  queued : ℤ
  running : ℤ
  cpu : ℤ
  memory : ℤ
  gpus : ℤ
  nvidia : ℤ
  ascend : ℤ

/-- The abstract state; `links` says of a hold and a device whether the link is
    live, `edges` maps a dependency to its group, `executions` an execution to
    what it was minted for. -/
structure Cluster where
  jobs : Table Uuid Job
  holds : Table Uuid Hold
  links : Table (Uuid × Uuid) Bool
  slots : Table WorkerId Slot
  books : Table Uuid Book
  edges : Table (Uuid × Uuid) (Option Uuid)
  executions : Table Uuid Grant

/-! ## Amounts -/

/-- The accelerators of a vendor in a hold; a hold that names no vendor counts
    as NVIDIA. -/
def Hold.share (h : Hold) (v : AcceleratorVendor) : ℤ :=
  if h.vendor.getD .nvidia = v then h.gpus else 0

theorem Hold.share_total (h : Hold) :
    h.share .nvidia + h.share .huaweiAscend = h.gpus := by
  simp only [Hold.share]
  cases h.vendor.getD .nvidia with
  | nvidia | huaweiAscend => simp

/-- The grant a hold stands for. -/
def Hold.grant (h : Hold) : Grant := ⟨h.job, h.cpu, h.memory, h.gpus⟩

def Slot.empty (session : Uuid) : Slot := ⟨session, 0, 0, 0, 0⟩

def Slot.plus (s : Slot) (h : Hold) (charge : ℚ) : Slot where
  session := s.session
  running := s.running + 1
  cpu := s.cpu + charge
  memory := s.memory + h.memory
  gpus := s.gpus + h.gpus

def Slot.minus (s : Slot) (h : Hold) : Slot where
  session := s.session
  running := s.running - 1
  cpu := s.cpu - h.cpu / 1000
  memory := s.memory - h.memory
  gpus := s.gpus - h.gpus

def Book.empty : Book := ⟨0, 0, 0, 0, 0, 0, 0⟩

/-- One more job waits, or one less. -/
def Book.waiting (b : Book) (n : ℤ) : Book := { b with queued := b.queued + n }

/-- A waiting job starts to hold. -/
def Book.plus (b : Book) (h : Hold) : Book where
  queued := b.queued - 1
  running := b.running + 1
  cpu := b.cpu + h.cpu
  memory := b.memory + h.memory
  gpus := b.nvidia + h.share .nvidia + (b.ascend + h.share .huaweiAscend)
  nvidia := b.nvidia + h.share .nvidia
  ascend := b.ascend + h.share .huaweiAscend

def Book.minus (b : Book) (h : Hold) : Book where
  queued := b.queued
  running := b.running - 1
  cpu := b.cpu - h.cpu
  memory := b.memory - h.memory
  gpus := b.nvidia - h.share .nvidia + (b.ascend - h.share .huaweiAscend)
  nvidia := b.nvidia - h.share .nvidia
  ascend := b.ascend - h.share .huaweiAscend

/-! ## Jobs -/

/-- The row of a job that was just submitted. -/
def Job.new (project : Uuid) (gpus : ℤ) : Job where
  project := project
  gpus := gpus
  status := .pending
  worker := none
  execution := none
  cancel := false
  userCancel := false

/-- The user wants the job gone. -/
def Job.Cancelling (job : Job) : Prop :=
  job.cancel = true ∧ (job.status ≠ .preempting ∨ job.userCancel = true)

def Job.assigned (job : Job) (w : WorkerId) (x : Uuid) : Job :=
  { job with
    status := .assigned
    worker := some w
    execution := some x
    cancel := false
    userCancel := false }

/-- The row of a job whose execution has ended; a reaper takes the execution
    away, a report leaves it. -/
def Job.ended (job : Job) (target : TaskStatus) (keep userCancel : Bool) : Job :=
  { job with
    status := target
    worker := if keep = true then job.worker else none
    execution := if keep = true then job.execution else none
    userCancel := userCancel }

def Job.requeued (job : Job) : Job :=
  { job with
    status := .retrying
    worker := none
    execution := none
    cancel := false }

/-! ## Steps -/

/-- What the steps leave open. -/
structure Rules where
  /-- The statuses an ending may lead to. -/
  target : TaskStatus → Prop
  /-- What a hold of so many millicores may charge to its worker. -/
  charge : ℤ → ℚ → Prop
  /-- The workers that may join again. -/
  rejoin : WorkerId → Prop
  final_target : ∀ s ∈ finalTaskStatuses, target s
  whole_charge : ∀ m : ℤ, charge m (m / 1000)

namespace Cluster

/-- The job exists and has succeeded. -/
def Succeeded (a : Cluster) (t : Uuid) : Prop :=
  ∃ job, a.jobs.get? t = some job ∧ job.status = .succeeded

/-- When a job may get the hold, the devices and the charge. -/
structure CanAssign (R : Rules) (a : Cluster) (t x : Uuid) (job : Job) (h : Hold)
    (slot : Slot) (book : Book) (devices : List Uuid) (charge : ℚ) : Prop where
  job_eq : a.jobs.get? t = some job
  queued : job.status = .queued
  uncancelled : job.cancel = false
  ready : ∀ d g, a.edges.get? (t, d) = some g → a.Succeeded d
  execution_fresh : a.executions.get? x = none
  hold_fresh : a.holds.get? x = none
  slot_eq : a.slots.get? h.worker = some slot
  book_eq : a.books.get? job.project = some book
  project : h.project = job.project
  owner : h.job = t
  session : h.session = slot.session
  demand : h.gpus = job.gpus
  live : h.live = true
  cpu : 0 < h.cpu
  memory : 0 < h.memory
  gpus : 0 ≤ h.gpus
  typed : h.gpus = 0 ∨ h.vendor ≠ none
  devices_nodup : devices.Nodup
  devices_fresh : ∀ d ∈ devices, a.links.get? (x, d) = none
  devices_free : ∀ d ∈ devices, ∀ y, a.links.get? (y, d) ≠ some true
  devices_count : h.exact = true → (devices.length : ℤ) = h.gpus
  devices_bare : h.exact = false → devices = []
  charge_ok : R.charge h.cpu charge

/-- The state after an assignment. -/
def assign (a : Cluster) (t x : Uuid) (job : Job) (h : Hold) (slot : Slot)
    (book : Book) (devices : List Uuid) (charge : ℚ) : Cluster :=
  { a with
    jobs := a.jobs.set t (job.assigned h.worker x)
    holds := a.holds.insert x h
    links := a.links.insertAll (devices.map (fun d => ((x, d), true)))
    slots := a.slots.set h.worker (slot.plus h charge)
    books := a.books.set job.project (book.plus h)
    executions := a.executions.insert x h.grant }

/-- When the execution of a job may end with this status. -/
structure CanEnd (R : Rules) (a : Cluster) (t x : Uuid) (job : Job)
    (target : TaskStatus) (keep : Bool) : Prop where
  job_eq : a.jobs.get? t = some job
  holding : job.status ∈ holdingStatuses
  execution : job.execution = some x
  allowed : CanTransition job.status target
  target_ok : R.target target
  cancelling : job.Cancelling → target = .cancelled
  final : keep = false → target ∈ finalTaskStatuses

/-- The state after a hold is given back. -/
def release (a : Cluster) (x : Uuid) (h : Hold) (book : Book) : Cluster :=
  { a with
    holds := a.holds.set x { h with live := false }
    links := a.links.mapRows
      (fun key live => if key.1 = x then false else live)
    slots := a.slots.modify h.worker (fun slot => slot.minus h)
    books := a.books.set h.project (book.minus h) }

/-- When an edge may be added to a group: both ends exist, the source has not
    started, every edge at either end is of the group, and the group stays free
    of cycles. -/
structure CanLink (a : Cluster) (t d g : Uuid) (job : Job) : Prop where
  source : a.jobs.get? t = some job
  unstarted : job.status ∈ waitingStatuses
  destination : a.jobs.get? d ≠ none
  fresh : a.edges.get? (t, d) = none
  grouped : ∀ u v g', a.edges.get? (u, v) = some g' →
    (u = t ∨ u = d ∨ v = t ∨ v = d) → g' = some g
  acyclic : Digraph.Acyclic
    (fun u v => (u, v) = (t, d) ∨ a.edges.get? (u, v) = some (some g))

/-- **THE STEPS** of the abstract cluster. -/
inductive Step (R : Rules) (a : Cluster) : Cluster → Prop where
  | join (w : WorkerId) (session : Uuid) (hnew : a.slots.get? w = none) :
      Step R a { a with slots := a.slots.insert w (Slot.empty session) }
  | rejoin (w : WorkerId) (slot : Slot) (session : Uuid)
      (hslot : a.slots.get? w = some slot) (hw : R.rejoin w) :
      Step R a { a with slots := a.slots.set w { slot with session := session } }
  | handover (x : Uuid) (h : Hold) (slot : Slot) (hhold : a.holds.get? x = some h)
      (hslot : a.slots.get? h.worker = some slot) :
      Step R a { a with
        holds := a.holds.set x { h with session := slot.session } }
  | openBook (p : Uuid) (hnew : a.books.get? p = none) :
      Step R a { a with books := a.books.insert p Book.empty }
  | submit (t p : Uuid) (gpus : ℤ) (book : Book) (dependencies : List Uuid)
      (hnew : a.jobs.get? t = none) (hbook : a.books.get? p = some book)
      (hdeps : ∀ d ∈ dependencies, a.jobs.get? d ≠ none) :
      Step R a { a with
        jobs := a.jobs.insert t (Job.new p gpus)
        edges := a.edges.insertAll (dependencies.map (fun d => ((t, d), none)))
        books := a.books.set p (book.waiting 1) }
  | enqueue (t : Uuid) (job : Job) (hjob : a.jobs.get? t = some job)
      (hstatus : job.status = .pending ∨ job.status = .retrying) :
      Step R a { a with jobs := a.jobs.set t { job with status := .queued } }
  | drop (t : Uuid) (job : Job) (book : Book) (cancel userCancel : Bool)
      (hjob : a.jobs.get? t = some job) (hstatus : job.status ∈ waitingStatuses)
      (hbook : a.books.get? job.project = some book) :
      Step R a { a with
        jobs := a.jobs.set t { job with
          status := .cancelled, cancel := cancel, userCancel := userCancel }
        books := a.books.set job.project (book.waiting (-1)) }
  | assign (t x : Uuid) (job : Job) (h : Hold) (slot : Slot) (book : Book)
      (devices : List Uuid) (charge : ℚ)
      (hcan : CanAssign R a t x job h slot book devices charge) :
      Step R a (a.assign t x job h slot book devices charge)
  | progress (t : Uuid) (job : Job) (status : TaskStatus)
      (hjob : a.jobs.get? t = some job) (hfrom : job.status ∈ launchStatuses)
      (hto : status ∈ launchStatuses) :
      Step R a { a with jobs := a.jobs.set t { job with status := status } }
  | stop (t : Uuid) (job : Job) (hjob : a.jobs.get? t = some job)
      (hfrom : job.status ∈ launchStatuses ∨ job.status = .stopping) :
      Step R a { a with
        jobs := a.jobs.set t { job with status := .stopping, cancel := true } }
  | preempt (t : Uuid) (job : Job) (hjob : a.jobs.get? t = some job)
      (hfrom : job.status ∈ launchStatuses) :
      Step R a { a with
        jobs := a.jobs.set t { job with status := .preempting, cancel := true } }
  | cancelPreempting (t : Uuid) (job : Job) (hjob : a.jobs.get? t = some job)
      (hfrom : job.status = .preempting) :
      Step R a { a with
        jobs := a.jobs.set t { job with cancel := true, userCancel := true } }
  | settle (t x : Uuid) (job : Job) (h : Hold) (book : Book)
      (target : TaskStatus) (keep userCancel : Bool)
      (hcan : CanEnd R a t x job target keep) (hhold : a.holds.get? x = some h)
      (hlive : h.live = true) (hbook : a.books.get? h.project = some book) :
      Step R a { a.release x h book with
        jobs := a.jobs.set t (job.ended target keep userCancel) }
  | abandon (t x : Uuid) (job : Job) (target : TaskStatus)
      (keep userCancel : Bool) (w : WorkerId) (f : Slot → Slot)
      (hcan : CanEnd R a t x job target keep)
      (hdead : ∀ h, a.holds.get? x = some h → h.live = false)
      (hf : ∀ slot, (f slot).session = slot.session) :
      Step R a { a with
        jobs := a.jobs.set t (job.ended target keep userCancel)
        slots := a.slots.modify w f }
  | requeue (t : Uuid) (job : Job) (book : Book)
      (hjob : a.jobs.get? t = some job)
      (hstatus : job.status ∈ [.failed, .timedOut, .preempted])
      (hbook : a.books.get? job.project = some book) :
      Step R a { a with
        jobs := a.jobs.set t job.requeued
        books := a.books.set job.project (book.waiting 1) }
  | link (t d g : Uuid) (job : Job) (hcan : CanLink a t d g job) :
      Step R a { a with edges := a.edges.insert (t, d) (some g) }

/-- Any number of steps. -/
abbrev Steps (R : Rules) : Cluster → Cluster → Prop :=
  Relation.ReflTransGen (Step R)

end Cluster

end MiniAiCloud
