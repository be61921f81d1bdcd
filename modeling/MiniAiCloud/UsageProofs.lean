import MiniAiCloud.ChronicleProofs
import MiniAiCloud.ReservationProofs

/-! # Each execution is billed once, for its own run

    The window of a ledger row is read from the task, whose start survives from one
    attempt to the next.  It is the right one because an assignment clears it: the
    start of a task is the moment its current execution entered `running`, and no
    other (`Billed.started`).  What a project has settled today is a counter that
    any locking of its quota row may reset; it shows the day's rows as long as no
    call is made on an earlier day. -/

namespace MiniAiCloud

open Reachability Cluster Chronicle Table Option List

/-! ## Entering `running` -/

/-- The execution entered `running` at this moment. -/
def Chronicle.Entered (c : Chronicle) (x : Uuid) (at_ : Time) : Prop :=
  ∃ event ∈ c.events, event.status = .running ∧ event.executionId = some x
    ∧ event.createdAt = at_

/-- The statuses of an execution before it runs. -/
def earlyStatuses : List TaskStatus := [.assigned, .preparing, .pulling, .starting]

theorem early_of_launch : ∀ s ∈ launchStatuses, ∀ u ∈ allowedTransitions s,
    u ∈ earlyStatuses → s ∈ earlyStatuses := by
  decide

/-- What the row of an execution says. -/
structure Chronicle.BilledFor (c : Chronicle) (x : Uuid) (usage : UsageLedger) (bill : Bill)
    (stub : Stub) : Prop where
  minted : c.bills.get? x = some bill
  reserved : c.stubs.get? x = some stub
  task : usage.taskId = stub.task
  project : usage.projectId = stub.project
  released : stub.releasedAt = some usage.finishedAt
  entered : c.Entered x usage.startedAt
  period : usage.startedAt ≤ usage.finishedAt
  cpuSeconds : usage.cpuSeconds = (usage.finishedAt - usage.startedAt) * bill.cpu / 1000
  memoryGbSeconds : usage.memoryGbSeconds
    = (usage.finishedAt - usage.startedAt) * bill.memory / 1024
  gpuSeconds : usage.gpuSeconds = (usage.finishedAt - usage.startedAt) * bill.gpus

/-- **BILLING**: the invariant. -/
structure Chronicle.Billed (c : Chronicle) : Prop where
  owned : ∀ t e x, c.entries.get? t = some e → e.execution = some x →
    ∃ stub, c.stubs.get? x = some stub ∧ stub.task = t
      ∧ (e.status ∈ holdingStatuses → stub.releasedAt = none)
  started : ∀ t e x, c.entries.get? t = some e → e.execution = some x →
    ∀ s, c.Entered x s ↔ e.startedAt = some s
  early : ∀ t e x, c.entries.get? t = some e → e.execution = some x →
    e.status ∈ earlyStatuses → e.startedAt = none
  minted : ∀ x s, c.Entered x s → c.stubs.get? x ≠ none
  once : ∀ x s s', c.Entered x s → c.Entered x s' → s = s'
  billed : ∀ x usage, c.ledger.get? x = some usage →
    ∃ bill stub, c.BilledFor x usage bill stub
  settled : ∀ x stub s, c.stubs.get? x = some stub → stub.releasedAt ≠ none →
    c.Entered x s → c.ledger.get? x ≠ none

section Deeds

variable {T : Terms} {c c' : Chronicle} {t x : Uuid} {e e' : Entry} {s : Time}

/-- Events other than the start of a run leave it open who has started. -/
theorem entered_append {more : List TaskEvent} (hevs : c'.events = c.events ++ more)
    (hquiet : ∀ event ∈ more, event.status ≠ .running) :
    c'.Entered x s ↔ c.Entered x s := by
  constructor
  · rintro ⟨event, hev, hrng, hr⟩
    rw [hevs] at hev
    rcases mem_append.mp hev with hold | hnew
    · exact ⟨event, hold, hrng, hr⟩
    · exact absurd hrng (hquiet event hnew)
  · rintro ⟨event, hev, hr⟩
    refine ⟨event, ?_, hr⟩
    rw [hevs]
    exact mem_append_left _ hev

theorem Chronicle.BilledFor.kept {usage : UsageLedger} {bill : Bill} {stub : Stub}
    (h : c.BilledFor x usage bill stub) (hbill : c'.bills.get? x = some bill)
    (hstub : c'.stubs.get? x = some stub)
    (hentd : ∀ s, c.Entered x s → c'.Entered x s) : c'.BilledFor x usage bill stub :=
  ⟨hbill, hstub, h.task, h.project, h.released, hentd _ h.entered, h.period, h.cpuSeconds,
    h.memoryGbSeconds, h.gpuSeconds⟩

/-- Where an entry comes from, as far as its execution is concerned. -/
structure Entry.Descends (e e' : Entry) : Prop where
  execution : e'.execution = e.execution
  startedAt : e'.startedAt = e.startedAt
  holding : e'.status ∈ holdingStatuses → e.status ∈ holdingStatuses
  early : e'.status ∈ earlyStatuses → e.status ∈ earlyStatuses

/-- A deed that neither mints, starts nor releases an execution. -/
theorem Chronicle.Billed.quiet {more : List TaskEvent} (h : c.Billed)
    (hbills : c'.bills = c.bills) (hstubs : c'.stubs = c.stubs)
    (hledg : c'.ledger = c.ledger) (hevs : c'.events = c.events ++ more)
    (hquiet : ∀ event ∈ more, event.status ≠ .running)
    (hents : ∀ t e', c'.entries.get? t = some e' → e'.execution ≠ none →
      ∃ e, c.entries.get? t = some e ∧ e.Descends e') : c'.Billed := by
  have hentd : ∀ x s, c'.Entered x s ↔ c.Entered x s := fun x s => entered_append hevs hquiet
  have hfrom : ∀ {t e' x}, c'.entries.get? t = some e' → e'.execution = some x →
      ∃ e, c.entries.get? t = some e ∧ e.execution = some x ∧ e.Descends e' := by
    intro t e' x he' hx
    obtain ⟨e, he, hdesc⟩ := hents t e' he' (by rw [hx]; exact some_ne_none x)
    exact ⟨e, he, hdesc.execution ▸ hx, hdesc⟩
  refine ⟨?_, ?_, ?_, ?_, ?_, ?_, ?_⟩
  · intro t _ x he' hx
    obtain ⟨e, he, hx', hdesc⟩ := hfrom he' hx
    obtain ⟨stub, hstub, htask, hact⟩ := h.owned t e x he hx'
    rw [hstubs]
    exact ⟨stub, hstub, htask, fun hheld => hact (hdesc.holding hheld)⟩
  · intro t _ x he' hx s
    obtain ⟨e, he, hx', hdesc⟩ := hfrom he' hx
    rw [hentd, hdesc.startedAt]
    exact h.started t e x he hx' s
  · intro t _ x he' hx hearly
    obtain ⟨e, he, hx', hdesc⟩ := hfrom he' hx
    rw [hdesc.startedAt]
    exact h.early t e x he hx' (hdesc.early hearly)
  · intro x s hs
    rw [hstubs]
    exact h.minted x s ((hentd x s).mp hs)
  · intro x s s' hs hs'
    exact h.once x s s' ((hentd x s).mp hs) ((hentd x s').mp hs')
  · intro x usage husage
    rw [hledg] at husage
    obtain ⟨bill, stub, hrow⟩ := h.billed x usage husage
    refine ⟨bill, stub, hrow.kept ?_ ?_ (fun s => (hentd x s).mpr)⟩
    · rw [hbills]
      exact hrow.minted
    · rw [hstubs]
      exact hrow.reserved
  · intro x stub s hstub hrel hs
    rw [hledg]
    rw [hstubs] at hstub
    exact h.settled x stub s hstub hrel ((hentd x s).mp hs)

/-- The same where the entry of one task is replaced. -/
theorem Chronicle.Billed.replaced {more : List TaskEvent} (h : c.Billed)
    (hbills : c'.bills = c.bills) (hstubs : c'.stubs = c.stubs)
    (hledg : c'.ledger = c.ledger) (hevs : c'.events = c.events ++ more)
    (hquiet : ∀ event ∈ more, event.status ≠ .running)
    (hent : c.entries.get? t = some e) (hents : c'.entries = c.entries.set t e')
    (hdesc : e'.execution = none ∨ e.Descends e') : c'.Billed := by
  refine h.quiet hbills hstubs hledg hevs hquiet ?_
  intro u found hf hx
  rw [hents] at hf
  rcases get?_set_cases hf with ⟨rfl, rfl⟩ | ⟨_, hold⟩
  · exact ⟨e, hent, hdesc.resolve_left hx⟩
  · exact ⟨found, hold, rfl, rfl, id, id⟩

/-- **THE START** of a run: the entry takes the moment its execution enters
    `running`, which no execution does twice. -/
theorem Chronicle.Billed.runs {event : TaskEvent} (h : c.Billed)
    (hent : c.entries.get? t = some e) (hchg : e.Changes T .running e')
    (hlogs : Logs T t e .running event) : Chronicle.Billed { c with
      entries := c.entries.set t e'
      events := c.events ++ [event] } := by
  have hlau : e.status ∈ holdingStatuses ∧ e.status ∈ earlyStatuses := by
    have halw := hchg.allowed
    revert halw
    cases e.status <;> decide
  have heq : e'.execution = e.execution :=
    hchg.execution.resolve_right (fun hidle => hidle.1 hlau.1)
  have hstart : e'.startedAt = some T.now := by
    rw [hchg.startedAt, if_pos rfl]
  have hst : e'.status ∉ earlyStatuses := by
    rw [hchg.status]
    decide
  -- the execution of the entry has not run before
  have hunrun : ∀ {x s}, e.execution = some x → ¬ c.Entered x s := by
    intro x s hx hs
    have hsome := (h.started t e x hent hx s).mp hs
    rw [h.early t e x hent hx hlau.2] at hsome
    cases hsome
  have hentd : ∀ x s, Chronicle.Entered { c with
      entries := c.entries.set t e', events := c.events ++ [event] } x s
        ↔ c.Entered x s ∨ e.execution = some x ∧ s = T.now := by
    intro x s
    constructor
    · rintro ⟨found, hf, hrng, hx, hs⟩
      rcases mem_append.mp hf with hold | hnew
      · exact .inl ⟨found, hold, hrng, hx, hs⟩
      · rw [mem_singleton.mp hnew, hlogs.execution rfl] at hx
        rw [mem_singleton.mp hnew, hlogs.time] at hs
        exact .inr ⟨hx, hs.symm⟩
    · rintro (⟨found, hf, hr⟩ | ⟨hx, rfl⟩)
      · exact ⟨found, mem_append_left _ hf, hr⟩
      · exact ⟨event, mem_append_right _ (mem_singleton_self event), hlogs.after,
          (hlogs.execution rfl).trans hx, hlogs.time⟩
  have hown : ∀ {u found x}, c.entries.get? u = some found → found.execution = some x →
      e.execution = some x → u = t := by
    intro u found x hf hx hex
    obtain ⟨_, hstub, htask, _⟩ := h.owned u found x hf hx
    obtain ⟨_, hstub', htask', _⟩ := h.owned t e x hent hex
    rw [hstub] at hstub'
    rw [← htask, ← htask', some.inj hstub']
  refine ⟨?_, ?_, ?_, ?_, ?_, ?_, ?_⟩
  · intro u found x hf hx
    rcases get?_set_cases hf with ⟨rfl, rfl⟩ | ⟨_, hold⟩
    · obtain ⟨stub, hstub, htask, hact⟩ := h.owned u e x hent (heq ▸ hx)
      exact ⟨stub, hstub, htask, fun _ => hact hlau.1⟩
    · exact h.owned u found x hold hx
  · intro u found x hf hx s
    rw [hentd]
    rcases get?_set_cases hf with ⟨rfl, rfl⟩ | ⟨hne, hold⟩
    · rw [heq] at hx
      rw [hstart]
      constructor
      · rintro (hs | ⟨_, rfl⟩)
        · exact absurd hs (hunrun hx)
        · rfl
      · intro hs
        exact .inr ⟨hx, (some.inj hs).symm⟩
    · rw [← h.started u found x hold hx s]
      constructor
      · rintro (hs | ⟨hex, _⟩)
        · exact hs
        · exact absurd (hown hold hx hex) hne
      · exact .inl
  · intro u found x hf hx hearly
    rcases get?_set_cases hf with ⟨rfl, rfl⟩ | ⟨_, hold⟩
    · exact absurd hearly hst
    · exact h.early u found x hold hx hearly
  · intro x s hs
    rcases (hentd x s).mp hs with hold | ⟨hx, _⟩
    · exact h.minted x s hold
    · obtain ⟨stub, hstub, _⟩ := h.owned t e x hent hx
      show c.stubs.get? x ≠ none
      rw [hstub]
      exact some_ne_none stub
  · intro x s s' hs hs'
    rcases (hentd x s).mp hs with hold | ⟨hx, rfl⟩
    · rcases (hentd x s').mp hs' with hold' | ⟨hx', rfl⟩
      · exact h.once x s s' hold hold'
      · exact absurd hold (hunrun hx')
    · rcases (hentd x s').mp hs' with hold' | ⟨_, rfl⟩
      · exact absurd hold' (hunrun hx)
      · rfl
  · intro x usage husage
    obtain ⟨bill, stub, hrow⟩ := h.billed x usage husage
    exact ⟨bill, stub, hrow.kept hrow.minted hrow.reserved (fun s hs => (hentd x s).mpr (.inl hs))⟩
  · intro x stub s hstub hrel hs
    rcases (hentd x s).mp hs with hold | ⟨hx, _⟩
    · exact h.settled x stub s hstub hrel hold
    · obtain ⟨_, hstub', _, hact⟩ := h.owned t e x hent hx
      have hsome : c.stubs.get? x = some stub := hstub
      rw [hsome] at hstub'
      rw [some.inj hstub'] at hrel
      exact absurd (hact hlau.1) hrel

/-- **MINTING**: a new execution has not run, and nothing of the last one is left. -/
theorem Chronicle.Billed.assigned {events : List TaskEvent} {bill : Bill} {stub : Stub}
    (h : c.Billed) (hasg : c.Assigns t x e e' events bill stub) :
    Chronicle.Billed { c with
      entries := c.entries.set t e'
      events := c.events ++ events
      bills := c.bills.insert x bill
      stubs := c.stubs.insert x stub } := by
  have hfresh := hasg.stub_fresh
  have hentd : ∀ y s, Chronicle.Entered { c with
      entries := c.entries.set t e'
      events := c.events ++ events
      bills := c.bills.insert x bill
      stubs := c.stubs.insert x stub } y s ↔ c.Entered y s :=
    fun y s => entered_append rfl hasg.quiet
  have hunrun : ∀ {s}, ¬ c.Entered x s := fun hs => h.minted x _ hs hfresh
  refine ⟨?_, ?_, ?_, ?_, ?_, ?_, ?_⟩
  · intro u found y hf hy
    rcases get?_set_cases hf with ⟨rfl, rfl⟩ | ⟨_, hold⟩
    · rw [hasg.execution] at hy
      rw [← some.inj hy]
      exact ⟨stub, get?_insert_self hfresh stub, hasg.stub_task, fun _ => hasg.stub_active⟩
    · obtain ⟨old, hstub, hr⟩ := h.owned u found y hold hy
      exact ⟨old, get?_insert_of_some hstub _, hr⟩
  · intro u found y hf hy s
    rw [hentd]
    rcases get?_set_cases hf with ⟨rfl, rfl⟩ | ⟨_, hold⟩
    · rw [hasg.execution] at hy
      rw [← some.inj hy, hasg.startedAt]
      exact ⟨fun hs => absurd hs hunrun, fun hs => by cases hs⟩
    · exact h.started u found y hold hy s
  · intro u found y hf hy hearly
    rcases get?_set_cases hf with ⟨rfl, rfl⟩ | ⟨_, hold⟩
    · exact hasg.startedAt
    · exact h.early u found y hold hy hearly
  · intro y s hs
    have hold := h.minted y s ((hentd y s).mp hs)
    obtain ⟨old, hstub⟩ := ne_none_iff_exists'.mp hold
    show (c.stubs.insert x stub).get? y ≠ none
    rw [get?_insert_of_some hstub]
    exact some_ne_none old
  · intro y s s' hs hs'
    exact h.once y s s' ((hentd y s).mp hs) ((hentd y s').mp hs')
  · intro y usage husage
    obtain ⟨bill', stub', hrow⟩ := h.billed y usage husage
    exact ⟨bill', stub', hrow.kept (get?_insert_of_some hrow.minted _)
      (get?_insert_of_some hrow.reserved _) (fun s => (hentd y s).mpr)⟩
  · intro y found s hf hrel hs
    rcases get?_insert_cases hf with ⟨rfl, rfl⟩ | hold
    · exact absurd hasg.stub_active hrel
    · exact h.settled y found s hold hrel ((hentd y s).mp hs)

/-- **THE RELEASE** writes the row of an execution that has run, and only then. -/
theorem Chronicle.Billed.released {bill : Bill} {stub : Stub} {day : Day}
    {usage : Option UsageLedger} (h : c.Billed) (hent : c.entries.get? t = some e)
    (hended : e.status ∈ finalTaskStatuses) (hexec : e.execution = some x)
    (hbill : c.bills.get? x = some bill) (hstub : c.stubs.get? x = some stub)
    (hact : stub.releasedAt = none)
    (hstl : Settles T c.ledger t x e.startedAt bill stub usage) :
    (c.released x stub day usage T.now).Billed := by
  have hidle := not_holding_of_final _ hended
  have hown : stub.task = t := by
    obtain ⟨_, hf, htask, _⟩ := h.owned t e x hent hexec
    rw [hstub] at hf
    rw [some.inj hf]
    exact htask
  -- the execution is not billed yet: a row comes with a release
  have hunbilled : c.ledger.get? x = none := by
    by_contra hsome
    obtain ⟨row, hrow⟩ := ne_none_iff_exists'.mp hsome
    obtain ⟨_, _, hbil⟩ := h.billed x row hrow
    have hrel := hbil.released
    have heq := hbil.reserved
    rw [hstub] at heq
    rw [← some.inj heq, hact] at hrel
    cases hrel
  have hledg : ∀ {y row}, (c.released x stub day usage T.now).ledger.get? y = some row →
      c.ledger.get? y = some row ∨ y = x ∧ usage = some row := by
    intro _ _ hy
    cases usage with
    | none => exact .inl hy
    | some =>
      rcases get?_insert_cases hy with ⟨rfl, rfl⟩ | hold
      · exact .inr ⟨rfl, rfl⟩
      · exact .inl hold
  refine ⟨?_, h.started, h.early, ?_, h.once, ?_, ?_⟩
  · intro u found y hf hy
    obtain ⟨old, hold, htask, hopen⟩ := h.owned u found y hf hy
    by_cases hyx : y = x
    · have hself : old = stub := by
        rw [hyx, hstub] at hold
        exact (some.inj hold).symm
      have hut : u = t := by rw [← htask, hself, hown]
      rw [hyx]
      refine ⟨{ stub with releasedAt := some T.now }, get?_set_self hstub _,
        hown.trans hut.symm, ?_⟩
      intro hheld
      have heq : found = e := by
        have hf' : c.entries.get? u = some found := hf
        rw [hut, hent] at hf'
        exact (some.inj hf').symm
      rw [heq] at hheld
      exact absurd hheld hidle
    · exact ⟨old, (get?_set_ne _ _ hyx).trans hold, htask, hopen⟩
  · intro y s hs
    show (c.stubs.set x _).get? y ≠ none
    rw [Ne, get?_set_eq_none]
    exact h.minted y s hs
  · intro y row hrow
    rcases hledg hrow with hold | ⟨rfl, rfl⟩
    · obtain ⟨bill', stub', hbil⟩ := h.billed y row hold
      have hyx : y ≠ x := by
        rintro rfl
        rw [hunbilled] at hold
        cases hold
      exact ⟨bill', stub', hbil.kept hbil.minted
        ((get?_set_ne _ _ hyx).trans hbil.reserved) (fun _ hs => hs)⟩
    · cases hstl with
      | usage start _ hstart _ hbills =>
        refine ⟨bill, _, hbill, get?_set_self hstub _, hbills.task.trans hown.symm,
          hbills.project, congrArg some hbills.finishedAt.symm, ?_, ?_, ?_, ?_, ?_⟩
        · rw [hbills.startedAt]
          exact (h.started t e y hent hexec start).mpr hstart
        · rw [hbills.startedAt, hbills.finishedAt]
          exact hbills.period
        · rw [hbills.startedAt, hbills.finishedAt]
          exact hbills.cpuSeconds
        · rw [hbills.startedAt, hbills.finishedAt]
          exact hbills.memoryGbSeconds
        · rw [hbills.startedAt, hbills.finishedAt]
          exact hbills.gpuSeconds
  · intro y found s hf hrel hs
    have hkept : ∀ {row}, c.ledger.get? y = some row →
        (c.released x stub day usage T.now).ledger.get? y ≠ none := by
      intro row hrow
      cases usage with
      | none =>
        show c.ledger.get? y ≠ none
        rw [hrow]
        exact some_ne_none row
      | some new =>
        show (c.ledger.insert x new).get? y ≠ none
        rw [get?_insert_of_some hrow]
        exact some_ne_none row
    rcases get?_set_cases hf with ⟨rfl, _⟩ | ⟨_, hold⟩
    · have hstart := (h.started t e y hent hexec s).mp hs
      cases hstl with
      | unstarted hn =>
        rw [hn] at hstart
        cases hstart
      | settled hsome => exact absurd hunbilled hsome
      | usage _ new _ hnew =>
        show (c.ledger.insert y new).get? y ≠ none
        rw [get?_insert_self hnew]
        exact some_ne_none new
    · obtain ⟨_, hrow⟩ := ne_none_iff_exists'.mp (h.settled y found s hold hrel hs)
      exact hkept hrow

/-- An event with a status other than `running`, alone. -/
theorem quiet_singleton {event : TaskEvent} {target : TaskStatus}
    (hafter : event.status = target) (htgt : target ≠ .running) :
    ∀ found ∈ [event], found.status ≠ .running := by
  intro _ hf
  rw [mem_singleton.mp hf, hafter]
  exact htgt

/-- A change short of `running`. -/
theorem Entry.Changes.descends {target : TaskStatus} (h : e.Changes T target e')
    (htgt : target ≠ .running) : e'.execution = none ∨ e.Descends e' := by
  have hstart : e'.startedAt = e.startedAt := by
    rw [h.startedAt, if_neg htgt]
  rcases h.kind with ⟨hwaits, hnext⟩ | ⟨hlau, hnext⟩
  · have hlater : target ∉ holdingStatuses ∧ target ∉ earlyStatuses := by
      revert hnext
      cases target <;> decide
    rcases h.execution with heq | ⟨_, hn⟩
    · rw [← h.status] at hlater
      exact .inr ⟨heq, hstart, fun hheld => absurd hheld hlater.1,
        fun hearly => absurd hearly hlater.2⟩
    · exact .inl hn
  · have hheld : e.status ∈ holdingStatuses := by
      revert hlau
      cases e.status <;> decide
    refine .inr ⟨h.execution.resolve_right (fun hidle => hidle.1 hheld), hstart,
      fun _ => hheld, ?_⟩
    rw [h.status]
    exact early_of_launch _ hlau _ h.allowed

/-- **EVERY DEED** keeps the books. -/
theorem Chronicle.Billed.deed (h : c.Billed) (hdeed : Deed T c c') : c'.Billed := by
  have hsilent : ∀ event ∈ ([] : List TaskEvent), event.status ≠ .running :=
    fun _ hev => absurd hev not_mem_nil
  have heq : ∀ t e', c.entries.get? t = some e' → e'.execution ≠ none →
      ∃ e, c.entries.get? t = some e ∧ e.Descends e' :=
    fun t e he _ => ⟨e, he, rfl, rfl, id, id⟩
  cases hdeed with
  | openDay p hnew | roll p day hday =>
    exact h.quiet rfl rfl rfl (append_nil _).symm hsilent heq
  | create _ _ _ _ _ _ hexec _ _ _ hafter =>
    refine h.quiet rfl rfl rfl rfl (quiet_singleton hafter (by decide)) ?_
    intro u found hf hx
    rcases get?_insert_cases hf with ⟨_, rfl⟩ | hold
    · exact absurd hexec hx
    · exact heq u found hold hx
  | adjust _ _ _ hent hadj =>
    refine h.replaced rfl rfl rfl (append_nil _).symm hsilent hent rfl ?_
    rcases hadj.execution with heq | ⟨_, hn⟩
    · refine .inr ⟨heq, hadj.startedAt, ?_, ?_⟩
      · rw [hadj.status]
        exact id
      · rw [hadj.status]
        exact id
    · exact .inl hn
  | change _ _ _ target _ hent hchg hlogs =>
    by_cases hrng : target = .running
    · rw [hrng] at hchg hlogs
      exact h.runs hent hchg hlogs
    · exact h.replaced rfl rfl rfl rfl (quiet_singleton hlogs.after hrng) hent rfl
        (hchg.descends hrng)
  | assign _ _ _ _ _ _ _ hasg => exact h.assigned hasg
  | preempt _ _ _ e _ hent hlau hlogs =>
    refine h.replaced rfl rfl rfl rfl (quiet_singleton hlogs.after (by decide)) hent rfl
      (.inr ⟨rfl, rfl, ?_, ?_⟩)
    · intro _
      revert hlau
      cases e.status <;> decide
    · intro hearly
      exact absurd hearly (show TaskStatus.preempting ∉ earlyStatuses by decide)
  | finish _ _ target _ hent hhol _ hfin hlogs =>
    have hended : target ≠ .running ∧ target ∉ earlyStatuses := by
      revert hfin
      cases target <;> decide
    exact h.replaced rfl rfl rfl rfl (quiet_singleton hlogs.after hended.1) hent rfl
      (.inr ⟨rfl, rfl, fun _ => hhol, fun hearly => absurd hearly hended.2⟩)
  | release t x e bill stub day usage hent hended hexec hbill hstub hact hday
      hstl =>
      exact h.released hent hended hexec hbill hstub hact hstl
  | requeue _ _ _ _ hent _ hlogs =>
    exact h.replaced rfl rfl rfl rfl (quiet_singleton hlogs.after (by decide)) hent rfl
      (.inl rfl)

end Deeds

theorem Chronicle.Billed.empty : Chronicle.empty.Billed := by
  have hn : ∀ x s, ¬ Chronicle.empty.Entered x s := by
    rintro _ _ ⟨_, hev, _⟩
    exact not_mem_nil hev
  refine ⟨?_, ?_, ?_, fun x s hs => absurd hs (hn x s),
    fun x s _ hs => absurd hs (hn x s), ?_, ?_⟩
  · intro t e x he
    cases he
  · intro t e x he
    cases he
  · intro t e x he
    cases he
  · intro _ _ husage
    cases husage
  · intro _ _ _ hstub
    cases hstub

/-! ## The daily counter -/

/-- What a project has settled on a day, by its rows. -/
def settledOn (ledger : Table Uuid UsageLedger) (p : Uuid) (d : Date) : ℚ :=
  Meter.total ledger (fun usage => (usage.projectId, usage.finishedAt.date))
    (fun usage => usage.cost) (p, d)

/-- The counters show their day, and no row is of a later one. -/
structure Dated (ledger : Table Uuid UsageLedger) (days : Table Uuid Day) : Prop where
  past : ∀ x usage, ledger.get? x = some usage →
    ∃ day, days.get? usage.projectId = some day ∧ usage.finishedAt.date ≤ day.date
  shown : ∀ p day, days.get? p = some day → day.settled = settledOn ledger p day.date

/-- No project is ahead of this moment. -/
def Behind (now : Time) (days : Table Uuid Day) : Prop :=
  ∀ p day, days.get? p = some day → day.date ≤ now.date

section Days

variable {ledger : Table Uuid UsageLedger} {days : Table Uuid Day} {p x : Uuid} {day : Day}
  {now : Time}

/-- Nothing is settled on a day after the last one. -/
theorem settledOn_later (h : Dated ledger days) (hday : days.get? p = some day) {d : Date}
    (hlater : day.date < d) : settledOn ledger p d = 0 := by
  refine Meter.total_eq_zero ?_
  intro x usage husage hkey
  obtain ⟨hproj, hdate⟩ := Prod.mk.inj hkey
  obtain ⟨_, hf, hle⟩ := h.past x usage husage
  rw [hproj, hday] at hf
  rw [hdate, ← some.inj hf] at hle
  exact absurd hlater (not_lt.mpr hle)

theorem Day.rolled_date (day : Day) (now : Time) : (day.rolled now).date = now.date := by
  rw [Day.rolled]
  by_cases hdate : day.date ≠ now.date
  · rw [if_pos hdate]
  · rw [if_neg hdate]
    exact not_not.mp hdate

/-- **ROLLING** forward starts a day nothing is settled on. -/
theorem Dated.rolled (h : Dated ledger days) (hday : days.get? p = some day)
    (hbeh : day.date ≤ now.date) : Dated ledger (days.set p (day.rolled now)) := by
  refine ⟨?_, ?_⟩
  · intro x usage husage
    obtain ⟨found, hf, hle⟩ := h.past x usage husage
    by_cases hp : usage.projectId = p
    · rw [hp] at hf ⊢
      rw [hday] at hf
      refine ⟨day.rolled now, get?_set_self hday _, ?_⟩
      rw [Day.rolled_date]
      rw [← some.inj hf] at hle
      exact hle.trans hbeh
    · exact ⟨found, (get?_set_ne _ _ hp).trans hf, hle⟩
  · intro q found hf
    rcases get?_set_cases hf with ⟨rfl, rfl⟩ | ⟨_, hold⟩
    · rw [Day.rolled]
      split_ifs with hdate
      · exact (settledOn_later h hday (lt_of_le_of_ne hbeh hdate)).symm
      · exact h.shown q day hday
    · exact h.shown q found hold

/-- **SETTLING** on the day of the counter. -/
theorem Dated.billed {usage : UsageLedger} (h : Dated ledger days)
    (hday : days.get? p = some day) (hnew : ledger.get? x = none)
    (hproj : usage.projectId = p) (hdate : usage.finishedAt.date = day.date) :
    Dated (ledger.insert x usage) (days.set p (day.plus usage.cost)) := by
  have hpast : ∀ {y row}, (ledger.insert x usage).get? y = some row →
      ∃ found, days.get? row.projectId = some found ∧ row.finishedAt.date ≤ found.date := by
    intro y row hrow
    rcases get?_insert_cases hrow with ⟨_, rfl⟩ | hold
    · exact ⟨day, hproj ▸ hday, hdate.le⟩
    · exact h.past y row hold
  refine ⟨?_, ?_⟩
  · intro y row hrow
    obtain ⟨found, hf, hle⟩ := hpast hrow
    by_cases hp : row.projectId = p
    · rw [hp] at hf ⊢
      rw [hday] at hf
      rw [← some.inj hf] at hle
      exact ⟨day.plus usage.cost, get?_set_self hday _, hle⟩
    · exact ⟨found, (get?_set_ne _ _ hp).trans hf, hle⟩
  · intro q found hf
    rw [settledOn, Meter.total_insert hnew]
    rcases get?_set_cases hf with ⟨rfl, rfl⟩ | ⟨hne, hold⟩
    · rw [if_pos (Prod.ext hproj hdate)]
      show day.settled + usage.cost = _
      rw [h.shown q day hday]
      rfl
    · have hoth : (usage.projectId, usage.finishedAt.date) ≠ (q, found.date) := by
        intro hkey
        exact hne ((Prod.mk.inj hkey).1.symm.trans hproj)
      rw [if_neg hoth, add_zero]
      exact h.shown q found hold

/-- The state a release leaves. -/
theorem Dated.released {T : Terms} {c : Chronicle} {t : Uuid} {startedAt : Option Time}
    {bill : Bill} {stub : Stub} {usage : Option UsageLedger} (h : Dated c.ledger c.days)
    (hday : c.days.get? stub.project = some day) (hbeh : day.date ≤ T.now.date)
    (hstl : Settles T c.ledger t x startedAt bill stub usage) :
    Dated (c.released x stub day usage T.now).ledger
      (c.released x stub day usage T.now).days := by
  have hrol := h.rolled hday hbeh
  have hplain : (day.rolled T.now).plus 0 = day.rolled T.now := by
    rw [Day.plus, add_zero]
  cases hstl with
  | unstarted _ | settled _ =>
    show Dated c.ledger (c.days.set stub.project ((day.rolled T.now).plus 0))
    rw [hplain]
    exact hrol
  | usage _ row _ hnew hbills =>
    show Dated (c.ledger.insert x row) (c.days.set stub.project ((day.rolled T.now).plus row.cost))
    rw [← set_set c.days stub.project (day.rolled T.now)]
    refine hrol.billed (get?_set_self hday _) hnew hbills.project ?_
    rw [hbills.finishedAt, Day.rolled_date]

theorem Behind.set {found : Day} (h : Behind now days) (hf : found.date = now.date) :
    Behind now (days.set p found) := by
  intro q other hoth
  rcases get?_set_cases hoth with ⟨_, rfl⟩ | ⟨_, hold⟩
  · exact hf.le
  · exact h q other hold

/-- **EVERY DEED** of a call that is behind no project. -/
theorem dated_deed {T : Terms} {c c' : Chronicle}
    (h : Dated c.ledger c.days ∧ Behind T.now c.days) (hdeed : Deed T c c') :
    Dated c'.ledger c'.days ∧ Behind T.now c'.days := by
  obtain ⟨hdated, hbeh⟩ := h
  cases hdeed with
  | openDay p hnew =>
    refine ⟨⟨?_, ?_⟩, ?_⟩
    · intro x usage husage
      obtain ⟨day, hday, hle⟩ := hdated.past x usage husage
      exact ⟨day, get?_insert_of_some hday _, hle⟩
    · intro q day hday
      rcases get?_insert_cases hday with ⟨rfl, rfl⟩ | hold
      · -- a project without a counter has no rows
        refine (Meter.total_eq_zero ?_).symm
        intro x usage husage hkey
        obtain ⟨_, hf, _⟩ := hdated.past x usage husage
        rw [(Prod.mk.inj hkey).1, hnew] at hf
        cases hf
      · exact hdated.shown q day hold
    · intro q day hday
      rcases get?_insert_cases hday with ⟨_, rfl⟩ | hold
      · exact le_refl _
      · exact hbeh q day hold
  | roll p day hday =>
    exact ⟨hdated.rolled hday (hbeh p day hday), hbeh.set (day.rolled_date T.now)⟩
  | release t x e bill stub day usage hent hended hexec hbill hstub hact hday
      hstl =>
      exact ⟨hdated.released hday (hbeh _ day hday) hstl, hbeh.set (day.rolled_date T.now)⟩
  | create | adjust | change | assign | preempt | finish | requeue => exact ⟨hdated, hbeh⟩

end Days

/-! ## Runs -/

/-- The execution entered `running` at this moment, by the log. -/
def EnteredRunning (db : Db) (x : Uuid) (at_ : Time) : Prop :=
  ∃ event ∈ db.taskEvents, event.status = .running ∧ event.executionId = some x
    ∧ event.createdAt = at_

/-- The row of an execution bills its own run, from the moment it entered `running`
    to its release. -/
structure BillsRun (db : Db) (x : Uuid) (usage : UsageLedger) (execution : TaskExecution)
    (r : ResourceReservation) : Prop where
  minted : db.executions.get? x = some execution
  reserved : db.reservations.get? x = some r
  task : usage.taskId = r.taskId
  project : usage.projectId = r.projectId
  starts : ∀ s, EnteredRunning db x s ↔ s = usage.startedAt
  ends : r.releasedAt = some usage.finishedAt
  period : usage.startedAt ≤ usage.finishedAt
  cpuSeconds : usage.cpuSeconds
    = (usage.finishedAt - usage.startedAt) * execution.cpuMillicores / 1000
  memoryGbSeconds : usage.memoryGbSeconds
    = (usage.finishedAt - usage.startedAt) * execution.memoryMb / 1024
  gpuSeconds : usage.gpuSeconds
    = (usage.finishedAt - usage.startedAt) * execution.gpuCount

/-- The ledger has a row for each execution that ran and was released, and no other;
    a row is found by its execution, so there is one at most. -/
structure LedgerExact (db : Db) : Prop where
  billed_iff : ∀ x, db.usageLedger.get? x ≠ none
    ↔ (∃ r, db.reservations.get? x = some r ∧ r.releasedAt ≠ none)
      ∧ ∃ s, EnteredRunning db x s
  rows : ∀ x usage, db.usageLedger.get? x = some usage →
    ∃ execution r, BillsRun db x usage execution r

/-- The counter of each project shows the cost of the day's rows. -/
def DailyExact (db : Db) : Prop :=
  ∀ p state, db.quotaStates.get? p = some state →
    state.dailySettledCost = ((db.usageLedger.select (fun _ usage =>
      usage.projectId = p ∧ usage.finishedAt.date = state.accountingDate)).map
        (fun row => row.2.cost)).sum

theorem Chronicle.Billed.ledgerExact {db : Db} (h : db.chronicle.Billed) :
    LedgerExact db := by
  refine ⟨?_, ?_⟩
  · intro x
    constructor
    · intro hsome
      obtain ⟨usage, husage⟩ := ne_none_iff_exists'.mp hsome
      obtain ⟨_, _, hrow⟩ := h.billed x usage husage
      obtain ⟨r, hr, rfl⟩ := get?_map_eq_some.mp hrow.reserved
      have hrel : r.releasedAt = some usage.finishedAt := hrow.released
      refine ⟨⟨r, hr, ?_⟩, usage.startedAt, hrow.entered⟩
      rw [hrel]
      exact some_ne_none _
    · rintro ⟨⟨r, hr, hrel⟩, s, hs⟩
      exact h.settled x r.stub s (chronicle_stub hr) hrel hs
  · intro x usage husage
    obtain ⟨_, _, hrow⟩ := h.billed x usage husage
    obtain ⟨r, hr, rfl⟩ := get?_map_eq_some.mp hrow.reserved
    obtain ⟨execution, hexec, rfl⟩ := get?_map_eq_some.mp hrow.minted
    refine ⟨execution, r, hexec, hr, hrow.task, hrow.project, ?_, hrow.released,
      hrow.period, hrow.cpuSeconds, hrow.memoryGbSeconds, hrow.gpuSeconds⟩
    intro s
    constructor
    · exact fun hs => h.once x s usage.startedAt hs hrow.entered
    · rintro rfl
      exact hrow.entered

/-- Reports are final, and no call is made on a day before the accounting date of a
    project, as it may be where a transaction waits for a lock over midnight. -/
def punctualCalls (i : Call) (db : Db) : Prop :=
  i.op.ReportsFinal ∧ ∀ row ∈ db.quotaStates.rows, row.2.accountingDate ≤ i.now.date
  deriving Decidable

theorem reach_dated {db : Db} (h : Reach controlPlane punctualCalls db) :
    Dated db.chronicle.ledger db.chronicle.days := by
  refine (h.invariant (I := fun s => Lifecycle s.cluster
    ∧ Dated s.chronicle.ledger s.chronicle.days) ?_ ?_).2
  · rintro _ ⟨_, rfl⟩
    refine ⟨Lifecycle.empty, ?_, ?_⟩
    · intro _ _ husage
      cases husage
    · intro _ _ hday
      cases hday
  · rintro i s ⟨hlife, hdated⟩ ⟨hfin, hpunc⟩
    have hfol : Follows anyRules s (controlPlane.step i s) :=
      step_follows hlife (anyRules_keeps i s)
    have hbeh : Behind i.terms.now s.chronicle.days := by
      intro p _ hday
      obtain ⟨state, hst, rfl⟩ := get?_map_eq_some.mp hday
      exact hpunc (p, state) (mem_rows.mpr hst)
    refine ⟨hfol.lifecycle hlife, ?_⟩
    exact ((step_tells hlife hfin i.agrees_terms).keeps
      (I := fun c => Dated c.ledger c.days ∧ Behind i.terms.now c.days)
      (fun _ _ hc hdeed => dated_deed hc hdeed) ⟨hdated, hbeh⟩).1

/-- **BILLED ONCE**, in every reachable state; the daily counter shows the day's rows
    where no call is made on an earlier day. -/
theorem usage_billed_once (db : Db) (h : Reach controlPlane finalReports db) :
    LedgerExact db ∧ (Reach controlPlane punctualCalls db → DailyExact db) := by
  have hbil := (reach_records Call.terms (fun _ _ hi => hi)
    (fun i _ _ => i.agrees_terms) Billed.empty (fun _ _ _ hc hdeed => hc.deed hdeed) h).2
  refine ⟨hbil.ledgerExact, ?_⟩
  intro hpunc p state hst
  have hshown := (reach_dated hpunc).shown p state.day (get?_map_of_some hst _)
  show state.day.settled = _
  rw [hshown, settledOn, Meter.total, select_sum db.usageLedger _ (fun _ usage => usage.cost)]
  refine sum_congr ?_
  intro _ _ _
  refine if_congr ?_ rfl rfl
  rw [decide_eq_true_iff, Prod.mk.injEq]
  exact Iff.rfl

/-- A task runs for four seconds of the first day. -/
def billedCalls : List Call :=
  [⟨0, registerWorker⟩, ⟨1, .createQueued 1 (halfCoreTask [])⟩,
   ⟨2, .claim 1 "w" 11 30 none standardPrices []⟩, ⟨3, .markPulling firstOwner 30 5⟩,
   ⟨4, .markStarting firstOwner 30 5⟩, ⟨5, .markRunning firstOwner 30 5⟩,
   ⟨9, .finishExecution firstOwner succeededReport⟩]

def billedCloud : Db := controlPlane.run billedCalls freshCloud

/-- Half a core for four seconds, in the ledger and on the counter. -/
theorem usage_billed_once_of_a_run : ∃ usage,
    billedCloud.usageLedger.get? 11 = some usage ∧ usage.cpuSeconds = 2
      ∧ (∃ execution r, BillsRun billedCloud 11 usage execution r)
      ∧ DailyExact billedCloud := by
  have hrow : (billedCloud.usageLedger.get? 11).map (·.cpuSeconds)
      = some 2 := by decide +kernel
  obtain ⟨usage, husage, hcpu⟩ := map_eq_some_iff.mp hrow
  have hpunc : Reach controlPlane punctualCalls billedCloud :=
    (Reach.init freshCloud_init).run billedCalls (by decide +kernel)
  obtain ⟨hledg, hdaily⟩ := usage_billed_once billedCloud (freshCloud_final _ (by decide))
  exact ⟨usage, husage, hcpu, hledg.rows 11 usage husage, hdaily hpunc⟩

/-- After that run a task is submitted early on the second day, and then one whose
    transaction began before midnight and waited for the project's quota row. -/
def midnightCalls : List Call :=
  billedCalls ++ [⟨86401, .createQueued 2 (halfCoreTask [])⟩,
    ⟨86399, .createQueued 3 (halfCoreTask [])⟩]

def midnightCloud : Db := controlPlane.run midnightCalls freshCloud

/-- **THE COUNTER FORGETS**: it is back on the first day, at zero, and the row of that
    day is still in the ledger. -/
theorem daily_counter_forgets :
    Reach controlPlane finalReports midnightCloud ∧ ¬ DailyExact midnightCloud := by
  refine ⟨freshCloud_final _ (by decide), ?_⟩
  intro hdaily
  have hst : (midnightCloud.quotaStates.get? 7).map (fun state =>
      (state.accountingDate, state.dailySettledCost)) = some (0, 0) := by decide +kernel
  obtain ⟨state, hrow, hpair⟩ := map_eq_some_iff.mp hst
  obtain ⟨hdate, hcost⟩ := Prod.mk.inj hpair
  have hsum := hdaily 7 state hrow
  rw [hdate, hcost] at hsum
  have hbil : ((midnightCloud.usageLedger.select (fun _ usage =>
      usage.projectId = 7 ∧ usage.finishedAt.date = 0)).map (·.2.cost)).sum
        ≠ 0 := by decide +kernel
  exact hbil hsum.symm

end MiniAiCloud
