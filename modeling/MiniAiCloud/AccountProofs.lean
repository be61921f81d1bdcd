import MiniAiCloud.ClusterProofs
import MiniAiCloud.Meter

/-! # The accounts of the cluster

    Where an ending only reports a final status, jobs and live holds belong to
    each other one to one, and every counter of a slot or a book shows the total
    of the live holds (or of the waiting jobs) it stands for.  Where a hold in
    addition charges to its worker what its release gives back, the CPU of a slot
    is exact too. -/

namespace MiniAiCloud

open Meter Table TaskStatus Hold

variable {R : Rules} {x t : Uuid} {a b : Cluster} {job job' : Job} {holds : Table Uuid Hold}
  {jobs : Table Uuid Job} {e : Hold} {links : Table (Uuid × Uuid) Bool} {M : Type}
  {devices : List Uuid} {g : Hold → M} {book : Book}

/-- Endings report final statuses only. -/
def Rules.Final (R : Rules) : Prop := ∀ s, R.target s → s ∈ finalTaskStatuses

/-- A hold charges to its worker what its release gives back. -/
def Rules.Whole (R : Rules) : Prop := ∀ (m : ℤ) (c : ℚ), R.charge m c → c = m / 1000

/-- What a hold weighs while it is live. -/
def Hold.weigh {M : Type} [Zero M] (g : Hold → M) (h : Hold) : M :=
  if h.live = true then g h else 0

/-- What a job weighs in the queue. -/
def Job.waits (job : Job) : ℤ := if job.status ∈ waitingStatuses then 1 else 0

theorem Hold.weigh_live [Zero M] (g : Hold → M) {h : Hold} (hlive : h.live = true) :
    h.weigh g = g h := if_pos hlive

theorem Hold.weigh_dead [Zero M] (g : Hold → M) {h : Hold} (hdead : h.live = false) :
    h.weigh g = 0 :=
  if_neg (by rw [hdead]; decide)

namespace Cluster

/-! ## Holds and their owners -/

/-- **THE OWNERSHIP INVARIANT**: a live hold is the one of the current execution
    of a job that holds, on the job's worker and for its project; and a job that
    holds has such a hold. -/
structure Owned (jobs : Table Uuid Job) (holds : Table Uuid Hold) : Prop where
  owner : ∀ x h, holds.get? x = some h → h.live = true →
    ∃ job, jobs.get? h.job = some job ∧ job.status ∈ holdingStatuses
      ∧ job.execution = some x ∧ job.worker = some h.worker
      ∧ job.project = h.project ∧ job.gpus = h.gpus
  held : ∀ t job, jobs.get? t = some job → job.status ∈ holdingStatuses →
    ∃ x h, job.execution = some x ∧ holds.get? x = some h ∧ h.live = true
      ∧ h.job = t

theorem Owned.empty : Owned Table.empty Table.empty := by
  refine ⟨?_, ?_⟩
  · intro x h hx
    rw [get?_empty] at hx
    cases hx
  · intro _ _ ht
    rw [get?_empty] at ht
    cases ht

variable (h : Owned jobs holds)

include h

/-- The live hold of the current execution. -/
theorem Owned.hold (hjob : jobs.get? t = some job)
    (hheld : job.status ∈ holdingStatuses) (hx : job.execution = some x) :
    ∃ e, holds.get? x = some e ∧ e.live = true ∧ e.job = t := by
  obtain ⟨y, e, hy, he, hlive, hj⟩ := h.held t job hjob hheld
  rw [hx] at hy
  cases hy
  exact ⟨e, he, hlive, hj⟩

/-- Rewriting a job keeps ownership when the job holds what it held. -/
theorem Owned.set_job (hjob : jobs.get? t = some job)
    (hproject : job'.project = job.project) (hgpus : job'.gpus = job.gpus)
    (hst : job'.status ∈ holdingStatuses ↔ job.status ∈ holdingStatuses)
    (heq : job.status ∈ holdingStatuses →
      job'.execution = job.execution ∧ job'.worker = job.worker) :
    Owned (jobs.set t job') holds := by
  refine ⟨?_, ?_⟩
  · intro x e hx hlive
    obtain ⟨o, ho, hheld, hexec, hwk, hproj, hgpu⟩ := h.owner x e hx hlive
    by_cases het : e.job = t
    · rw [het, hjob] at ho
      cases ho
      obtain ⟨hexec', hwk'⟩ := heq hheld
      refine ⟨job', ?_, hst.mpr hheld, hexec'.trans hexec,
        hwk'.trans hwk, hproject.trans hproj, hgpus.trans hgpu⟩
      rw [het, get?_set_self hjob]
    · refine ⟨o, ?_, hheld, hexec, hwk, hproj, hgpu⟩
      rw [get?_set_ne _ _ het]
      exact ho
  · intro u other hu hheld
    rcases get?_set_cases hu with ⟨hut, hoth⟩ | ⟨_, hold⟩
    · rw [hoth] at hheld ⊢
      have hwas := hst.mp hheld
      obtain ⟨x, e, hx, he, hlive, hj⟩ := h.held t job hjob hwas
      exact ⟨x, e, (heq hwas).1.trans hx, he, hlive, hj.trans hut.symm⟩
    · exact h.held u other hold hheld

/-- A job that does not hold before and after owns nothing. -/
theorem Owned.set_idle (hjob : jobs.get? t = some job)
    (hproj : job'.project = job.project) (hgpus : job'.gpus = job.gpus)
    (hfrom : job.status ∉ holdingStatuses) (hto : job'.status ∉ holdingStatuses) :
    Owned (jobs.set t job') holds :=
  h.set_job hjob hproj hgpus ⟨fun hs => absurd hs hto, fun hs => absurd hs hfrom⟩
    (fun hs => absurd hs hfrom)

/-- A job that holds before and after keeps its hold. -/
theorem Owned.set_holding (hjob : jobs.get? t = some job)
    (hproj : job'.project = job.project) (hgpus : job'.gpus = job.gpus)
    (hfrom : job.status ∈ holdingStatuses) (hto : job'.status ∈ holdingStatuses)
    (hexec : job'.execution = job.execution) (hwk : job'.worker = job.worker) :
    Owned (jobs.set t job') holds :=
  h.set_job hjob hproj hgpus ⟨fun _ => hfrom, fun _ => hto⟩
    (fun _ => ⟨hexec, hwk⟩)

omit h

/-- A new hold for a job that held nothing. -/
theorem Owned.assign (h : Owned a.jobs a.holds) {slot : Slot} {charge : ℚ}
    (hcan : CanAssign R a t x job e slot book devices charge) :
    Owned (a.jobs.set t (job.assigned e.worker x)) (a.holds.insert x e) := by
  have hidle : job.status ∉ holdingStatuses := by
    rw [hcan.queued]
    decide
  refine ⟨?_, ?_⟩
  · intro y e' hy hlive
    rcases get?_insert_cases hy with ⟨hyx, he'⟩ | hold
    · rw [he', hyx]
      refine ⟨job.assigned e.worker x, ?_, ?_, rfl, rfl, hcan.project.symm, hcan.demand.symm⟩
      · rw [hcan.owner, get?_set_self hcan.job_eq]
      · show assigned ∈ holdingStatuses
        decide
    · obtain ⟨o, ho, hheld, hr⟩ := h.owner y e' hold hlive
      have hne : e'.job ≠ t := by
        intro het
        rw [het, hcan.job_eq] at ho
        cases ho
        exact hidle hheld
      refine ⟨o, ?_, hheld, hr⟩
      rw [get?_set_ne _ _ hne]
      exact ho
  · intro u other hu hheld
    rcases get?_set_cases hu with ⟨hut, hoth⟩ | ⟨_, hold⟩
    · rw [hoth, hut]
      exact ⟨x, e, rfl, get?_insert_self hcan.hold_fresh e, hcan.live, hcan.owner⟩
    · obtain ⟨y, e', hy, he', hlive, hj⟩ := h.held u other hold hheld
      exact ⟨y, e', hy, get?_insert_of_some he' e, hlive, hj⟩

/-- The end of a hold together with the end of its job. -/
theorem Owned.settle (h : Owned jobs holds) (hjob : jobs.get? t = some job)
    (hheld : job.status ∈ holdingStatuses) (hexec : job.execution = some x)
    (hidle : job'.status ∉ holdingStatuses) :
    Owned (jobs.set t job') (holds.set x { e with live := false }) := by
  refine ⟨?_, ?_⟩
  · intro y e' hy hlive
    rcases get?_set_cases hy with ⟨_, he'⟩ | ⟨hne, hold⟩
    · rw [he'] at hlive
      cases hlive
    · obtain ⟨o, ho, hoheld, hoexec, hr⟩ := h.owner y e' hold hlive
      -- the job that ended owned this hold only
      have hoth : e'.job ≠ t := by
        intro het
        rw [het, hjob] at ho
        cases ho
        rw [hexec] at hoexec
        exact hne (Option.some.inj hoexec).symm
      refine ⟨o, ?_, hoheld, hoexec, hr⟩
      rw [get?_set_ne _ _ hoth]
      exact ho
  · intro u other hu hoheld
    rcases get?_set_cases hu with ⟨_, hoth⟩ | ⟨hne, hold⟩
    · rw [hoth] at hoheld
      exact absurd hoheld hidle
    · obtain ⟨y, e', hy, he', hlive, hj⟩ := h.held u other hold hoheld
      have hyx : y ≠ x := by
        intro heq
        rw [heq] at he'
        obtain ⟨_, he'', _, hj''⟩ := h.hold hjob hheld hexec
        rw [he'] at he''
        cases he''
        exact hne (hj.symm.trans hj'')
      refine ⟨y, e', hy, ?_, hlive, hj⟩
      rw [get?_set_ne _ _ hyx]
      exact he'

/-- A hold that changes its session keeps its owner. -/
theorem Owned.handover (h : Owned jobs holds) (he : holds.get? x = some e) (session : Uuid) :
    Owned jobs (holds.set x { e with session := session }) := by
  refine ⟨?_, ?_⟩
  · intro y e' hy hlive
    rcases get?_set_cases hy with ⟨hyx, he'⟩ | ⟨_, hold⟩
    · rw [he'] at hlive ⊢
      rw [hyx]
      exact h.owner x e he hlive
    · exact h.owner y e' hold hlive
  · intro t job ht hheld
    obtain ⟨y, e', hy, he', hlive, hj⟩ := h.held t job ht hheld
    by_cases hyx : y = x
    · rw [hyx, he] at he'
      cases he'
      refine ⟨y, { e with session := session }, hy, ?_, hlive, hj⟩
      rw [hyx]
      exact get?_set_self he _
    · exact ⟨y, e', hy, by rw [get?_set_ne _ _ hyx]; exact he', hlive, hj⟩

/-- With final endings, no job is abandoned: its hold is live. -/
theorem Owned.not_abandoned (h : Owned a.jobs a.holds) {target : TaskStatus} {keep : Bool}
    (hcan : CanEnd R a t x job target keep)
    (hdead : ∀ e, a.holds.get? x = some e → e.live = false) : False := by
  obtain ⟨e, he, hlive, _⟩ := h.hold hcan.job_eq hcan.holding hcan.execution
  rw [hdead e he] at hlive
  cases hlive

/-- One step keeps ownership. -/
theorem Owned.step (h : Owned a.jobs a.holds) (hfin : R.Final) (hstep : Step R a b) :
    Owned b.jobs b.holds := by
  cases hstep with
  | join w session hnew | rejoin w slot session hslot hw | openBook p hnew
  | link t d g job hcan => exact h
  | handover _ _ slot hhold => exact h.handover hhold slot.session
  | submit =>
    refine ⟨?_, ?_⟩
    · intro x e hx hlive
      obtain ⟨o, ho, hr⟩ := h.owner x e hx hlive
      exact ⟨o, get?_insert_of_some ho _, hr⟩
    · intro u job hu hheld
      rcases get?_insert_cases hu with ⟨_, hjob⟩ | hold
      · rw [hjob] at hheld
        exact absurd hheld (by show pending ∉ holdingStatuses; decide)
      · exact h.held u job hold hheld
  | enqueue _ _ hjob hst =>
    refine h.set_idle hjob rfl rfl ?_ (by show queued ∉ holdingStatuses; decide)
    rcases hst with hs | hs
    · rw [hs]
      decide
    · rw [hs]
      decide
  | drop _ _ _ _ _ hjob hst =>
    exact h.set_idle hjob rfl rfl (not_holding_of_waiting _ hst)
      (by show cancelled ∉ holdingStatuses; decide)
  | assign _ _ _ _ _ _ _ _ hcan => exact h.assign hcan
  | progress _ _ _ hjob hfrom hto =>
    exact h.set_holding hjob rfl rfl (holding_of_launch _ hfrom) (holding_of_launch _ hto) rfl rfl
  | stop _ _ hjob hfrom =>
    refine h.set_holding hjob rfl rfl ?_ (by show stopping ∈ holdingStatuses; decide) rfl rfl
    rcases hfrom with hlau | hs
    · exact holding_of_launch _ hlau
    · rw [hs]
      decide
  | preempt _ _ hjob hfrom =>
    exact h.set_holding hjob rfl rfl (holding_of_launch _ hfrom)
      (by show preempting ∈ holdingStatuses; decide) rfl rfl
  | cancelPreempting t job hjob hfrom =>
    have hheld : job.status ∈ holdingStatuses := by
      rw [hfrom]
      decide
    exact h.set_holding hjob rfl rfl hheld hheld rfl rfl
  | settle _ _ _ _ _ target _ _ hcan =>
    exact h.settle hcan.job_eq hcan.holding hcan.execution
      (not_holding_of_final _ (hfin target hcan.target_ok))
  | abandon _ _ _ _ _ _ _ _ hcan hdead =>
    exact absurd hdead (fun hd => h.not_abandoned hcan hd)
  | requeue _ _ _ hjob hst =>
    have hrests : ∀ s ∈ [failed, .timedOut, .preempted],
        s ∉ holdingStatuses := by
      decide
    exact h.set_idle hjob rfl rfl (hrests _ hst) (by show retrying ∉ holdingStatuses; decide)

/-! ## The counters of the slots -/

/-- A live hold is on a slot. -/
def Placed (holds : Table Uuid Hold) (slots : Table WorkerId Slot) : Prop :=
  ∀ x h, holds.get? x = some h → h.live = true → slots.get? h.worker ≠ none

/-- One step keeps live holds on slots. -/
theorem Placed.step (h : Placed a.holds a.slots) (hown : Owned a.jobs a.holds)
    (hstep : Step R a b) :
    Placed b.holds b.slots := by
  cases hstep with
  | join w session =>
    intro x e hx hlive
    obtain ⟨slot, hslot⟩ := Option.ne_none_iff_exists'.mp (h x e hx hlive)
    show (a.slots.insert w (Slot.empty session)).get? e.worker ≠ none
    rw [get?_insert_of_some hslot]
    exact Option.some_ne_none slot
  | rejoin =>
    exact fun x e hx hlive hn =>
      h x e hx hlive (get?_set_eq_none.mp hn)
  | handover x e _ hhold =>
    intro y e' hy hlive
    rcases get?_set_cases hy with ⟨_, he'⟩ | ⟨_, hold⟩
    · rw [he'] at hlive ⊢
      exact h x e hhold hlive
    · exact h y e' hold hlive
  | assign _ _ _ _ _ _ _ _ hcan =>
    intro y e' hy hlive hn
    have hn' := get?_set_eq_none.mp hn
    rcases get?_insert_cases hy with ⟨_, he'⟩ | hold
    · rw [he', hcan.slot_eq] at hn'
      cases hn'
    · exact h y e' hold hlive hn'
  | settle =>
    intro y e' hy hlive' hn
    have hn' := get?_modify_eq_none.mp hn
    rcases get?_set_cases hy with ⟨_, he'⟩ | ⟨_, hold⟩
    · rw [he'] at hlive'
      cases hlive'
    · exact h y e' hold hlive' hn'
  | abandon _ _ _ _ _ _ _ _ hcan hdead =>
    exact absurd hdead (fun hd => hown.not_abandoned hcan hd)
  | _ => exact h

/-- A quantity of a slot that moves with the holds. -/
structure SlotMeter (R : Rules) {M : Type} [AddCommGroup M] (g : Hold → M)
    (shown : Slot → M) : Prop where
  empty : ∀ x, shown (Slot.empty x) = 0
  session : ∀ (s : Slot) x, shown { s with session := x } = shown s
  handover : ∀ (h : Hold) x, g { h with session := x } = g h
  plus : ∀ s h c, R.charge h.cpu c → shown (s.plus h c) = shown s + g h
  minus : ∀ s h, shown (s.minus h) = shown s - g h

/-- A hold weighs the same in another session. -/
theorem weigh_handover [Zero M] (hg : ∀ (h : Hold) x, g { h with session := x } = g h)
    (e : Hold) (session : Uuid) :
    weigh g { e with session := session } = weigh g e := by
  show (if e.live = true then g { e with session := session } else 0)
    = if e.live = true then g e else 0
  rw [hg]

/-- Giving a live hold back keeps the quantity. -/
theorem SlotMeter.release [AddCommGroup M] {shown : Slot → M} (hmeter : SlotMeter R g shown)
    (h : Shows a.holds a.slots worker (weigh g) shown)
    (hhold : a.holds.get? x = some e) (hlive : e.live = true) (book : Book) :
    Shows (a.release x e book).holds (a.release x e book).slots worker
      (weigh g) shown := by
  refine h.set_entry (f := fun slot => slot.minus e) hhold rfl ?_
  intro s _
  rw [hmeter.minus, weigh_live g hlive, weigh_dead g rfl]
  abel

/-- **THE SLOT RULE**: a quantity that moves with the holds shows their total
    after every step. -/
theorem SlotMeter.step [AddCommGroup M] {shown : Slot → M} (hmeter : SlotMeter R g shown)
    (hown : Owned a.jobs a.holds) (hpld : Placed a.holds a.slots)
    (h : Shows a.holds a.slots worker (weigh g) shown) (hstep : Step R a b) :
    Shows b.holds b.slots worker (weigh g) shown := by
  cases hstep with
  | rejoin _ slot session hslot =>
    refine h.modify_row (f := fun _ => { slot with session := session }) ?_
    intro r hr
    rw [hslot] at hr
    cases hr
    exact hmeter.session slot session
  | handover _ e slot hhold =>
    exact h.same_entry hhold rfl (weigh_handover hmeter.handover e slot.session)
  | join w session hnew =>
    refine h.open_row (total_eq_zero ?_) (hmeter.empty session)
    intro x e hx hw
    cases hlive : e.live with
    | false => exact weigh_dead g hlive
    | true => exact absurd (hw ▸ hnew) (hpld x e hx hlive)
  | assign _ _ _ e slot _ _ charge hcan =>
    refine h.add_entry (e := e) (f := fun _ => slot.plus e charge) hcan.hold_fresh ?_
    intro s hs
    rw [hcan.slot_eq] at hs
    cases hs
    rw [hmeter.plus _ _ _ hcan.charge_ok, weigh_live g hcan.live]
  | settle _ _ _ _ book _ _ _ _ hhold hlive =>
    exact hmeter.release h hhold hlive book
  | abandon _ _ _ _ _ _ _ _ hcan hdead =>
    exact absurd hdead (fun hd => hown.not_abandoned hcan hd)
  | _ => exact h

theorem slotRunning (R : Rules) : SlotMeter R (fun _ => (1 : ℤ)) Slot.running :=
  ⟨fun _ => rfl, fun _ _ => rfl, fun _ _ => rfl, fun _ _ _ _ => rfl, fun _ _ => rfl⟩

theorem slotMemory (R : Rules) : SlotMeter R memory Slot.memory :=
  ⟨fun _ => rfl, fun _ _ => rfl, fun _ _ => rfl, fun _ _ _ _ => rfl, fun _ _ => rfl⟩

theorem slotGpus (R : Rules) : SlotMeter R gpus Slot.gpus :=
  ⟨fun _ => rfl, fun _ _ => rfl, fun _ _ => rfl, fun _ _ _ _ => rfl, fun _ _ => rfl⟩

/-- The CPU of a slot moves with the holds only where charges are whole. -/
theorem slotCpu (hwhole : R.Whole) :
    SlotMeter R (fun h => (h.cpu : ℚ) / 1000) Slot.cpu := by
  refine ⟨fun _ => rfl, fun _ _ => rfl, fun _ _ => rfl, ?_, fun _ _ => rfl⟩
  intro s h c hc
  show s.cpu + c = _
  rw [hwhole _ _ hc]

/-! ## The counters of the books -/

/-- A quantity of a book that moves with the holds. -/
structure BookMeter {M : Type} [AddCommGroup M] (g : Hold → M) (shown : Book → M) :
    Prop where
  empty : shown Book.empty = 0
  handover : ∀ (h : Hold) x, g { h with session := x } = g h
  waiting : ∀ b n, shown (Book.waiting b n) = shown b
  plus : ∀ b h, shown (Book.plus b h) = shown b + g h
  minus : ∀ b h, shown (Book.minus b h) = shown b - g h

/-- **THE BOOK RULE**: a quantity that moves with the holds shows their total
    after every step. -/
theorem BookMeter.step [AddCommGroup M] {shown : Book → M} (hmeter : BookMeter g shown)
    (hlife : Lifecycle a) (hown : Owned a.jobs a.holds)
    (h : Shows a.holds a.books project (weigh g) shown) (hstep : Step R a b) :
    Shows b.holds b.books project (weigh g) shown := by
  -- a book with one more or one less waiting job shows the same
  have hqueue : ∀ (p : Uuid) (book : Book) (n : ℤ), a.books.get? p = some book →
      Shows a.holds (a.books.set p (book.waiting n)) project (weigh g) shown := by
    intro p book n hbook
    refine h.modify_row (f := fun _ => book.waiting n) ?_
    intro r hr
    rw [hbook] at hr
    cases hr
    exact hmeter.waiting book n
  cases hstep with
  | handover _ e slot hhold =>
    exact h.same_entry hhold rfl (weigh_handover hmeter.handover e slot.session)
  | openBook p hnew =>
    refine h.open_row (total_eq_zero ?_) hmeter.empty
    intro x e hx hp
    cases hlive : e.live with
    | false => exact weigh_dead g hlive
    | true =>
      obtain ⟨o, ho, _, _, _, hproj, _⟩ := hown.owner x e hx hlive
      exact absurd (by rw [hproj, hp]; exact hnew) (hlife.booked e.job o ho)
  | submit _ p _ book _ _ hbook => exact hqueue p book 1 hbook
  | drop _ job book _ _ _ _ hbook =>
    exact hqueue job.project book (-1) hbook
  | requeue _ job book _ _ hbook => exact hqueue job.project book 1 hbook
  | assign _ x job e _ book _ _ hcan =>
    show Shows (a.holds.insert x e) (a.books.set job.project (book.plus e)) _ _ _
    rw [← hcan.project]
    refine h.add_entry (e := e) (f := fun _ => book.plus e) hcan.hold_fresh ?_
    intro r hr
    rw [hcan.project, hcan.book_eq] at hr
    cases hr
    rw [hmeter.plus, weigh_live g hcan.live]
  | settle _ _ _ e book _ _ _ _ hhold hlive hbook =>
    refine h.set_entry (f := fun _ => book.minus e) hhold rfl ?_
    intro r hr
    rw [hbook] at hr
    cases hr
    rw [hmeter.minus, weigh_live g hlive, weigh_dead g rfl]
    abel
  | _ => exact h

theorem bookRunning : BookMeter (fun _ => (1 : ℤ)) Book.running :=
  ⟨rfl, fun _ _ => rfl, fun _ _ => rfl, fun _ _ => rfl, fun _ _ => rfl⟩

theorem bookCpu : BookMeter cpu Book.cpu :=
  ⟨rfl, fun _ _ => rfl, fun _ _ => rfl, fun _ _ => rfl, fun _ _ => rfl⟩

theorem bookMemory : BookMeter memory Book.memory :=
  ⟨rfl, fun _ _ => rfl, fun _ _ => rfl, fun _ _ => rfl, fun _ _ => rfl⟩

theorem bookNvidia : BookMeter (fun h => h.share .nvidia) Book.nvidia :=
  ⟨rfl, fun _ _ => rfl, fun _ _ => rfl, fun _ _ => rfl, fun _ _ => rfl⟩

theorem bookAscend : BookMeter (fun h => h.share .huaweiAscend) Book.ascend :=
  ⟨rfl, fun _ _ => rfl, fun _ _ => rfl, fun _ _ => rfl, fun _ _ => rfl⟩

/-! ## The queue of a book -/

private theorem waits_one (h : job.status ∈ waitingStatuses) : job.waits = 1 := if_pos h

private theorem waits_zero (h : job.status ∉ waitingStatuses) : job.waits = 0 := if_neg h

private theorem not_waiting_of_holding :
    ∀ s ∈ holdingStatuses, s ∉ waitingStatuses := by
  decide

/-- Every book shows how many jobs of its project wait. -/
def Queues (jobs : Table Uuid Job) (books : Table Uuid Book) : Prop :=
  Shows jobs books Job.project Job.waits Book.queued

/-- A job that holds before the step and does not wait after it. -/
private theorem Queues.set_quiet {books : Table Uuid Book} (h : Queues jobs books)
    (hjob : jobs.get? t = some job) (hproj : job'.project = job.project)
    (hfrom : job.status ∈ holdingStatuses) (hto : job'.status ∉ waitingStatuses) :
    Queues (jobs.set t job') books :=
  Shows.same_entry h hjob hproj
    (by rw [waits_zero hto, waits_zero (not_waiting_of_holding _ hfrom)])

/-- A job that enters or leaves the queue takes its book along. -/
private theorem Queues.set_moved {books : Table Uuid Book} (h : Queues jobs books)
    {book' : Book} (hjob : jobs.get? t = some job) (hproj : job'.project = job.project)
    (hbook : books.get? job.project = some book)
    (hmoved : book'.queued = book.queued + (job'.waits - job.waits)) :
    Queues (jobs.set t job') (books.set job.project book') := by
  refine Shows.set_entry h hjob hproj (f := fun _ => book') ?_
  intro r hr
  rw [hbook] at hr
  cases hr
  exact hmoved

/-- One step keeps the queues. -/
theorem Queues.step (h : Queues a.jobs a.books) (hlife : Lifecycle a) (hfin : R.Final)
    (hown : Owned a.jobs a.holds) (hstep : Step R a b) : Queues b.jobs b.books := by
  cases hstep with
  | join w session hnew | rejoin w slot session hslot hw | handover x e slot hhold hslot
  | link t d g job hcan => exact h
  | openBook p hnew =>
    refine Shows.open_row h (total_eq_zero ?_) rfl
    intro t job ht hp
    exact absurd (hp ▸ hnew) (hlife.booked t job ht)
  | submit _ p gpus book _ hnew hbook =>
    refine Shows.add_entry h (e := Job.new p gpus) (f := fun _ => book.waiting 1) hnew ?_
    intro r hr
    have hr' : a.books.get? p = some r := hr
    rw [hbook] at hr'
    cases hr'
    rfl
  | enqueue t job hjob hst =>
    have hwaits : job.status ∈ waitingStatuses := by
      rcases hst with hs | hs
      · rw [hs]
        decide
      · rw [hs]
        decide
    refine Shows.same_entry h hjob rfl ?_
    rw [waits_one hwaits]
    rfl
  | drop _ _ _ _ _ hjob hst hbook =>
    refine h.set_moved hjob rfl hbook ?_
    rw [waits_one hst, waits_zero (by show cancelled ∉ waitingStatuses; decide)]
    rfl
  | assign _ _ job _ _ _ _ _ hcan =>
    refine h.set_moved hcan.job_eq rfl hcan.book_eq ?_
    have hwaits : job.status ∈ waitingStatuses := by
      rw [hcan.queued]
      decide
    rw [waits_one hwaits, waits_zero (by show assigned ∉ waitingStatuses; decide)]
    rfl
  | progress _ _ _ hjob hfrom hto =>
    exact h.set_quiet hjob rfl (holding_of_launch _ hfrom)
      (not_waiting_of_holding _ (holding_of_launch _ hto))
  | stop _ _ hjob hfrom =>
    refine h.set_quiet hjob rfl ?_ (by show stopping ∉ waitingStatuses; decide)
    rcases hfrom with hlau | hs
    · exact holding_of_launch _ hlau
    · rw [hs]
      decide
  | preempt _ _ hjob hfrom =>
    exact h.set_quiet hjob rfl (holding_of_launch _ hfrom)
      (by show preempting ∉ waitingStatuses; decide)
  | cancelPreempting t job hjob hfrom =>
    have hheld : job.status ∈ holdingStatuses := by
      rw [hfrom]
      decide
    exact h.set_quiet hjob rfl hheld (not_waiting_of_holding _ hheld)
  | settle t _ job e book target keep userCancel hcan _ _ hbook =>
    -- the release leaves the queue of the book alone
    have hjobs : Queues (a.jobs.set t (job.ended target keep userCancel)) a.books :=
      h.set_quiet hcan.job_eq rfl hcan.holding (not_waiting_of_final _ (hfin target hcan.target_ok))
    refine Shows.modify_row hjobs (f := fun _ => book.minus e) ?_
    intro r hr
    rw [hbook] at hr
    cases hr
    rfl
  | abandon _ _ _ _ _ _ _ _ hcan hdead =>
    exact absurd hdead (fun hd => hown.not_abandoned hcan hd)
  | requeue _ _ _ hjob hst hbook =>
    have hrests : ∀ s ∈ [failed, .timedOut, .preempted],
        s ∉ waitingStatuses := by
      decide
    refine h.set_moved hjob rfl hbook ?_
    rw [waits_zero (hrests _ hst), waits_one (by show retrying ∈ waitingStatuses; decide)]
    rfl

/-- The accelerators of a book are those of its two vendors. -/
def Typed (books : Table Uuid Book) : Prop :=
  ∀ p book, books.get? p = some book → book.gpus = book.nvidia + book.ascend

/-- One step keeps the books typed. -/
theorem Typed.step (h : Typed a.books) (hstep : Step R a b) : Typed b.books := by
  have hset : ∀ (p : Uuid) (book : Book), book.gpus = book.nvidia + book.ascend →
      Typed (a.books.set p book) := by
    intro _ _ htyped q r hr
    rcases get?_set_cases hr with ⟨_, hrow⟩ | ⟨_, hold⟩
    · rw [hrow]
      exact htyped
    · exact h q r hold
  cases hstep with
  | openBook =>
    intro q r hr
    rcases get?_insert_cases hr with ⟨_, hrow⟩ | hold
    · rw [hrow]
      rfl
    · exact h q r hold
  | submit _ p _ book _ _ hbook =>
    exact hset p _ (h p book hbook)
  | drop _ _ book _ _ _ _ hbook =>
    exact hset _ _ (h _ book hbook)
  | requeue _ _ book _ _ hbook => exact hset _ _ (h _ book hbook)
  | assign => exact hset _ _ rfl
  | settle =>
    exact hset _ _ rfl
  | _ => exact h

/-! ## Devices -/

/-- How many live links a hold has. -/
def linkCount (links : Table (Uuid × Uuid) Bool) (x : Uuid) : ℤ :=
  links.sum (fun key live => if key.1 = x ∧ live = true then 1 else 0)

theorem linkCount_eq_zero (h : ∀ d, links.get? (x, d) ≠ some true) : linkCount links x = 0 := by
  refine sum_eq_zero ?_
  rintro ⟨y, d⟩ _ hlink
  refine if_neg ?_
  rintro ⟨hy, hlive⟩
  have hy' : y = x := hy
  rw [hy', hlive] at hlink
  exact h d hlink

/-- **THE DEVICE INVARIANT**: a live link belongs to a live hold, no device is
    linked twice, a hold of exact devices has all its links, and the others have
    none. -/
structure Linked (holds : Table Uuid Hold) (links : Table (Uuid × Uuid) Bool) :
    Prop where
  live : ∀ x d, links.get? (x, d) = some true →
    ∃ h, holds.get? x = some h ∧ h.live = true
  unshared : ∀ x y d, links.get? (x, d) = some true →
    links.get? (y, d) = some true → x = y
  exact : ∀ x h, holds.get? x = some h → h.live = true → h.exact = true →
    linkCount links x = h.gpus
  bare : ∀ x h, holds.get? x = some h → h.exact = false →
    ∀ d, links.get? (x, d) ≠ some true

theorem Linked.empty : Linked Table.empty Table.empty := by
  refine ⟨?_, ?_, ?_, ?_⟩
  · intro x d h
    rw [get?_empty] at h
    cases h
  · intro x y d h
    rw [get?_empty] at h
    cases h
  · intro x h hx
    rw [get?_empty] at hx
    cases hx
  · intro x h hx
    rw [get?_empty] at hx
    cases hx

/-- The links a new hold brings. -/
def newLinks (x : Uuid) (devices : List Uuid) : List ((Uuid × Uuid) × Bool) :=
  devices.map (fun d => ((x, d), true))

private theorem newLinks_keys (x : Uuid) (devices : List Uuid) :
    (newLinks x devices).map Prod.fst = devices.map (fun d => (x, d)) := by
  show (devices.map (fun d => ((x, d), true))).map Prod.fst = _
  rw [List.map_map]
  rfl

private theorem newLinks_nodup (h : devices.Nodup) :
    ((newLinks x devices).map Prod.fst).Nodup := by
  rw [newLinks_keys]
  refine h.map ?_
  intro _ _ hdd
  exact (Prod.mk.inj hdd).2

private theorem newLinks_fresh (h : ∀ d ∈ devices, links.get? (x, d) = none) :
    ∀ k ∈ (newLinks x devices).map Prod.fst, links.get? k = none := by
  intro k hk
  rw [newLinks_keys] at hk
  obtain ⟨d, hd, hkd⟩ := List.mem_map.mp hk
  rw [← hkd]
  exact h d hd

/-- New links count for their own hold only. -/
theorem linkCount_insertAll (hnd : devices.Nodup)
    (hfresh : ∀ d ∈ devices, links.get? (x, d) = none) (y : Uuid) :
    linkCount (links.insertAll (newLinks x devices)) y
      = linkCount links y + if x = y then (devices.length : ℤ) else 0 := by
  show Table.sum _ _ = _
  rw [sum_insertAll _ _ _ (newLinks_nodup hnd) (newLinks_fresh hfresh)]
  congr 1
  show ((devices.map (fun d => ((x, d), true))).map _).sum = _
  rw [List.map_map]
  split_ifs with hxy
  · have hone : ∀ d ∈ devices,
        ((fun r : (Uuid × Uuid) × Bool =>
          if r.1.1 = y ∧ r.2 = true then (1 : ℤ) else 0) ∘ fun d => ((x, d), true)) d
          = 1 := by
      intro d _
      exact if_pos ⟨hxy, rfl⟩
    rw [List.map_congr_left hone]
    simp
  · refine List.sum_eq_zero ?_
    intro n hn
    obtain ⟨d, _, hd⟩ := List.mem_map.mp hn
    rw [← hd]
    exact if_neg (fun hboth => hxy hboth.1)

/-- The links of a released hold are dead, and the others as they were. -/
theorem get?_unlink {y d : Uuid}
    (h : (links.mapRows (fun key live => if key.1 = x then false else live)).get?
      (y, d) = some true) : y ≠ x ∧ links.get? (y, d) = some true := by
  rw [get?_mapRows] at h
  obtain ⟨_, hlive, heq⟩ := Option.map_eq_some_iff.mp h
  split_ifs at heq with hyx
  rw [heq] at hlive
  exact ⟨hyx, hlive⟩

theorem linkCount_unlink {y : Uuid} (hyx : y ≠ x) :
    linkCount (links.mapRows (fun key live => if key.1 = x then false else live)) y
      = linkCount links y := by
  show Table.sum _ _ = Table.sum _ _
  rw [sum_mapRows]
  refine sum_congr ?_
  rintro ⟨z, d⟩ live _
  by_cases hzx : z = x
  · have hzy : ¬ z = y := fun hzy => hyx (hzy.symm.trans hzx)
    rw [if_neg (fun hboth => hzy hboth.1), if_neg (fun hboth => hzy hboth.1)]
  · show (if z = y ∧ (if z = x then false else live) = true then (1 : ℤ) else 0)
      = if z = y ∧ live = true then 1 else 0
    rw [if_neg hzx]

/-- A new hold with its links. -/
theorem Linked.assign (h : Linked a.holds a.links) {slot : Slot} {charge : ℚ}
    (hcan : CanAssign R a t x job e slot book devices charge) :
    Linked (a.holds.insert x e) (a.links.insertAll (newLinks x devices)) := by
  have hcases : ∀ y d, (a.links.insertAll (newLinks x devices)).get? (y, d) = some true →
      a.links.get? (y, d) = some true ∨ y = x ∧ d ∈ devices := by
    intro y d hyd
    rcases get?_insertAll_cases _ _ hyd with hold | ⟨_, hmem⟩
    · exact Or.inl hold
    · obtain ⟨_, hd', heq⟩ := List.mem_map.mp hmem
      obtain ⟨hy, hd⟩ := Prod.mk.inj (Prod.mk.inj heq).1
      rw [← hd]
      exact Or.inr ⟨hy.symm, hd'⟩
  refine ⟨?_, ?_, ?_, ?_⟩
  · intro y d hyd
    rcases hcases y d hyd with hold | ⟨hy, _⟩
    · obtain ⟨e', he', hlive⟩ := h.live y d hold
      exact ⟨e', get?_insert_of_some he' e, hlive⟩
    · rw [hy]
      exact ⟨e, get?_insert_self hcan.hold_fresh e, hcan.live⟩
  · intro y z d hyd hzd
    rcases hcases y d hyd with hyold | ⟨hy, hdy⟩
    · rcases hcases z d hzd with hzold | ⟨_, hdz⟩
      · exact h.unshared y z d hyold hzold
      · exact absurd hyold (hcan.devices_free d hdz y)
    · rcases hcases z d hzd with hzold | ⟨hz, _⟩
      · exact absurd hzold (hcan.devices_free d hdy z)
      · rw [hy, hz]
  · intro y e' hy hlive hexact
    rw [linkCount_insertAll hcan.devices_nodup hcan.devices_fresh]
    rcases get?_insert_cases hy with ⟨hyx, he'⟩ | hold
    · -- the new hold had no link before
      have hn : linkCount a.links x = 0 := by
        refine linkCount_eq_zero ?_
        intro d hd
        obtain ⟨_, he₀, _⟩ := h.live x d hd
        rw [hcan.hold_fresh] at he₀
        cases he₀
      rw [he'] at hexact ⊢
      rw [hyx, if_pos rfl, hn, hcan.devices_count hexact, zero_add]
    · have hne : ¬ x = y := by
        intro hxy
        rw [← hxy, hcan.hold_fresh] at hold
        cases hold
      rw [if_neg hne, add_zero]
      exact h.exact y e' hold hlive hexact
  · intro y e' hy hbare d hyd
    rcases get?_insert_cases hy with ⟨hyx, he'⟩ | hold
    · rw [he'] at hbare
      rcases hcases y d hyd with hold | ⟨_, hd⟩
      · obtain ⟨_, he₀, _⟩ := h.live y d hold
        rw [hyx, hcan.hold_fresh] at he₀
        cases he₀
      · rw [hcan.devices_bare hbare] at hd
        cases hd
    · rcases hcases y d hyd with hlink | ⟨hyx, _⟩
      · exact h.bare y e' hold hbare d hlink
      · rw [hyx, hcan.hold_fresh] at hold
        cases hold

/-- The end of a hold with its links. -/
theorem Linked.release (h : Linked holds links) (he : holds.get? x = some e) :
    Linked (holds.set x { e with live := false })
      (links.mapRows (fun key live => if key.1 = x then false else live)) := by
  refine ⟨?_, ?_, ?_, ?_⟩
  · intro y d hyd
    obtain ⟨hyx, hold⟩ := get?_unlink hyd
    obtain ⟨e', he', hlive⟩ := h.live y d hold
    exact ⟨e', by rw [get?_set_ne _ _ hyx]; exact he', hlive⟩
  · intro y z d hyd hzd
    exact h.unshared y z d (get?_unlink hyd).2 (get?_unlink hzd).2
  · intro y e' hy hlive hexact
    rcases get?_set_cases hy with ⟨_, he'⟩ | ⟨hyx, hold⟩
    · rw [he'] at hlive
      cases hlive
    · rw [linkCount_unlink hyx]
      exact h.exact y e' hold hlive hexact
  · intro y e' hy hbare d hyd
    obtain ⟨_, hlink⟩ := get?_unlink hyd
    rcases get?_set_cases hy with ⟨hyx, he'⟩ | ⟨_, hold⟩
    · rw [he'] at hbare
      rw [hyx] at hlink
      exact h.bare x e he hbare d hlink
    · exact h.bare y e' hold hbare d hlink

/-- A hold that changes its session keeps its links. -/
theorem Linked.handover (h : Linked holds links) (he : holds.get? x = some e) (session : Uuid) :
    Linked (holds.set x { e with session := session }) links := by
  refine ⟨?_, h.unshared, ?_, ?_⟩
  · intro y d hyd
    obtain ⟨e', he', hlive⟩ := h.live y d hyd
    by_cases hyx : y = x
    · rw [hyx, he] at he'
      cases he'
      rw [hyx]
      exact ⟨_, get?_set_self he _, hlive⟩
    · exact ⟨e', by rw [get?_set_ne _ _ hyx]; exact he', hlive⟩
  · intro y e' hy hlive hexact
    rcases get?_set_cases hy with ⟨hyx, he'⟩ | ⟨_, hold⟩
    · rw [he'] at hlive hexact ⊢
      rw [hyx]
      exact h.exact x e he hlive hexact
    · exact h.exact y e' hold hlive hexact
  · intro y e' hy hbare
    rcases get?_set_cases hy with ⟨hyx, he'⟩ | ⟨_, hold⟩
    · rw [he'] at hbare
      rw [hyx]
      exact h.bare x e he hbare
    · exact h.bare y e' hold hbare

/-- One step keeps the device links. -/
theorem Linked.step (h : Linked a.holds a.links) (hstep : Step R a b) :
    Linked b.holds b.links := by
  cases hstep with
  | handover _ _ slot hhold => exact h.handover hhold slot.session
  | assign _ _ _ _ _ _ _ _ hcan => exact h.assign hcan
  | settle _ _ _ _ _ _ _ _ _ hhold =>
    exact h.release hhold
  | _ => exact h

/-! ## Amounts of the holds -/

/-- The amounts of a hold are those of a valid demand, and its execution is
    recorded. -/
structure Sized (executions : Table Uuid Grant) (x : Uuid) (h : Hold) : Prop where
  cpu : 0 < h.cpu
  memory : 0 < h.memory
  gpus : 0 ≤ h.gpus
  typed : h.gpus = 0 ∨ h.vendor ≠ none
  minted : executions.get? x = some h.grant

/-- One step keeps the amounts. -/
theorem Sized.step (h : ∀ x e, a.holds.get? x = some e → Sized a.executions x e)
    (hstep : Step R a b) :
    ∀ x e, b.holds.get? x = some e → Sized b.executions x e := by
  cases hstep with
  | handover x e slot hhold hslot
  | settle t x job e book target keep userCancel hcan hhold hlive hbook =>
    intro y e' hy
    rcases get?_set_cases hy with ⟨hyx, he'⟩ | ⟨_, hold⟩
    · obtain ⟨hcpu, hmm, hgpus, htyped, hmint⟩ := h x e hhold
      rw [he', hyx]
      exact ⟨hcpu, hmm, hgpus, htyped, hmint⟩
    · exact h y e' hold
  | assign _ _ _ _ _ _ _ _ hcan =>
    intro y e' hy
    rcases get?_insert_cases hy with ⟨hyx, he'⟩ | hold
    · rw [he', hyx]
      exact ⟨hcan.cpu, hcan.memory, hcan.gpus, hcan.typed, get?_insert_self hcan.execution_fresh _⟩
    · obtain ⟨hcpu, hmm, hgpus, htyped, hmint⟩ := h y e' hold
      exact ⟨hcpu, hmm, hgpus, htyped, get?_insert_of_some hmint _⟩
  | _ => exact h

/-! ## All accounts together -/

/-- **THE ACCOUNTS**: what final endings keep. -/
structure Accounts (a : Cluster) : Prop where
  lifecycle : Lifecycle a
  owned : Owned a.jobs a.holds
  placed : Placed a.holds a.slots
  slotRunning : Shows a.holds a.slots worker (weigh fun _ => (1 : ℤ))
    Slot.running
  slotMemory : Shows a.holds a.slots worker (weigh memory) Slot.memory
  slotGpus : Shows a.holds a.slots worker (weigh gpus) Slot.gpus
  bookRunning : Shows a.holds a.books project (weigh fun _ => (1 : ℤ))
    Book.running
  bookCpu : Shows a.holds a.books project (weigh cpu) Book.cpu
  bookMemory : Shows a.holds a.books project (weigh memory) Book.memory
  bookNvidia : Shows a.holds a.books project
    (weigh fun h => h.share .nvidia) Book.nvidia
  bookAscend : Shows a.holds a.books project
    (weigh fun h => h.share .huaweiAscend) Book.ascend
  queues : Queues a.jobs a.books
  typed : Typed a.books
  linked : Linked a.holds a.links
  sized : ∀ x h, a.holds.get? x = some h → Sized a.executions x h

/-- One step keeps the accounts. -/
theorem Accounts.step (hfin : R.Final) (h : Accounts a) (hstep : Step R a b) : Accounts b where
  lifecycle := h.lifecycle.step hstep
  owned := h.owned.step hfin hstep
  placed := h.placed.step h.owned hstep
  slotRunning := (Cluster.slotRunning R).step h.owned h.placed h.slotRunning hstep
  slotMemory := (Cluster.slotMemory R).step h.owned h.placed h.slotMemory hstep
  slotGpus := (Cluster.slotGpus R).step h.owned h.placed h.slotGpus hstep
  bookRunning := Cluster.bookRunning.step h.lifecycle h.owned h.bookRunning hstep
  bookCpu := Cluster.bookCpu.step h.lifecycle h.owned h.bookCpu hstep
  bookMemory := Cluster.bookMemory.step h.lifecycle h.owned h.bookMemory hstep
  bookNvidia := Cluster.bookNvidia.step h.lifecycle h.owned h.bookNvidia hstep
  bookAscend := Cluster.bookAscend.step h.lifecycle h.owned h.bookAscend hstep
  queues := h.queues.step h.lifecycle hfin h.owned hstep
  typed := h.typed.step hstep
  linked := h.linked.step hstep
  sized := Sized.step h.sized hstep

/-- Every slot shows the CPU its live holds give back. -/
def CpuExact (a : Cluster) : Prop :=
  Shows a.holds a.slots worker (weigh fun h => (h.cpu : ℚ) / 1000) Slot.cpu

/-- With whole charges, one step keeps the CPU exact. -/
theorem CpuExact.step (hwhole : R.Whole) (haccs : Accounts a) (h : CpuExact a)
    (hstep : Step R a b) : CpuExact b :=
  (slotCpu hwhole).step haccs.owned haccs.placed h hstep

end Cluster

end MiniAiCloud
