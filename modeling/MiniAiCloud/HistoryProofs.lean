import MiniAiCloud.ChronicleProofs
import MiniAiCloud.LifecycleProofs

/-! # The event log replays to the current state

    Each write of a task row either logs the status changes it makes or makes
    none, and the sequence of an event is a version the row has passed.  So the
    events of a task lead from its creation to where its row is now, and sorting
    them by their sequence changes nothing. -/

namespace MiniAiCloud

open Reachability Cluster Table List

/-! ## Chains of events -/

section Chains

variable {t : Uuid} {s s' s'' : TaskStatus} {u v w : ℤ} {events events' : List TaskEvent}

theorem Leads.weaken (huv : u ≤ v) (h : Leads t s v events s' w) :
    Leads t s u events s' w := by
  cases h with
  | done hvw => exact .done (huv.trans hvw)
  | step task before allowed sequence hr =>
    exact .step task before allowed (huv.trans_lt sequence) hr

theorem Leads.append (h : Leads t s u events s' v) (h' : Leads t s' v events' s'' w) :
    Leads t s u (events ++ events') s'' w := by
  induction h with
  | done huv => exact h'.weaken huv
  | step task before allowed sequence _ ih =>
    exact .step task before allowed sequence (ih h')

theorem Leads.tasks (h : Leads t s u events s' v) : ∀ event ∈ events, event.taskId = t := by
  induction h with
  | done =>
    intro _ hev
    cases hev
  | step task _ _ _ _ ih =>
    intro event hev
    rcases mem_cons.mp hev with rfl | hr
    · exact task
    · exact ih event hr

/-- Later events have greater sequences. -/
theorem Leads.sequences (h : Leads t s u events s' v) : (∀ event ∈ events, u < event.sequence)
      ∧ events.Pairwise (fun a b => a.sequence < b.sequence) := by
  induction h with
  | done _ => exact ⟨fun event hev => absurd hev not_mem_nil, Pairwise.nil⟩
  | step _ _ _ sequence _ ih =>
    refine ⟨?_, pairwise_cons.mpr ⟨ih.1, ih.2⟩⟩
    intro event hev
    rcases mem_cons.mp hev with rfl | hr
    · exact sequence
    · exact sequence.trans (ih.1 event hr)

end Chains

/-- One event comes right after another. -/
def TaskEvent.Precedes (a b : TaskEvent) : Prop :=
  b.fromStatus = some a.status ∧ CanTransition a.status b.status

/-- The events tell how a task came to a status: no two share a sequence, the first
    is its creation in pending, each goes on from the one before by an allowed
    transition, and the last is where the task is. -/
structure Replays (events : List TaskEvent) (status : TaskStatus) : Prop where
  distinct : (events.map (fun event => event.sequence)).Nodup
  created : ∃ creation rest, events = creation :: rest ∧ creation.fromStatus = none
    ∧ creation.status = .pending
  chained : events.IsChain TaskEvent.Precedes
  last : events.getLast?.map (fun event => event.status) = some status

/-- A chain of events goes on from an event with its start. -/
theorem Leads.isChain {t : Uuid} {first : TaskEvent} {s' : TaskStatus} {u v : ℤ}
    {events : List TaskEvent} (h : Leads t first.status u events s' v) :
    (first :: events).IsChain TaskEvent.Precedes
      ∧ (first :: events).getLast?.map (·.status) = some s' := by
  generalize hs : first.status = s at h
  induction h generalizing first with
  | done =>
    refine ⟨List.IsChain.singleton first, ?_⟩
    rw [← hs]
    rfl
  | step _ before allowed _ _ ih =>
    obtain ⟨hchain, hlast⟩ := ih rfl
    subst hs
    refine ⟨isChain_cons_cons.mpr ⟨⟨before, allowed⟩, hchain⟩, ?_⟩
    rw [getLast?_cons_cons]
    exact hlast

/-! ## What a deed writes and logs -/

/-- The events of a task, in the order they were logged. -/
def eventsOf (events : List TaskEvent) (t : Uuid) : List TaskEvent :=
  events.filter (fun event => event.taskId = t)

/-- What may happen to the entry of a task while these events of it are logged. -/
inductive Writes (t : Uuid) : Option Entry → List TaskEvent → Option Entry → Prop where
  | absent : Writes t none [] none
  | created (e : Entry) (event : TaskEvent) (hstatus : e.status = .pending)
      (hversion : 0 ≤ e.version) (hbefore : event.fromStatus = none)
      (hafter : event.status = .pending) (hsequence : event.sequence = 0) :
      Writes t none [event] (some e)
  | moved (e e' : Entry) (events : List TaskEvent)
      (hleads : Leads t e.status e.version events e'.status e'.version) :
      Writes t (some e) events (some e')

section Deeds

variable {T : Terms} {c c' : Chronicle} {t u : Uuid} {e e' : Entry}
  {events : List TaskEvent}

theorem eventsOf_append (events events' : List TaskEvent) (t : Uuid) :
    eventsOf (events ++ events') t = eventsOf events t ++ eventsOf events' t :=
  filter_append _ _

/-- Nothing is written and nothing is logged. -/
theorem writes_same (t : Uuid) (hents : c'.entries = c.entries) (hevs : c'.events = c.events) :
    ∃ events, eventsOf c'.events t = eventsOf c.events t ++ events
      ∧ Writes t (c.entries.get? t) events (c'.entries.get? t) := by
  refine ⟨[], by rw [hevs, append_nil], ?_⟩
  rw [hents]
  cases c.entries.get? t with
  | none => exact .absent
  | some e => exact .moved e e [] (.done (le_refl _))

/-- The entry of one task is rewritten, and what is logged leads there. -/
theorem writes_set (t : Uuid) (hent : c.entries.get? u = some e)
    (hents : c'.entries = c.entries.set u e') (hevs : c'.events = c.events ++ events)
    (hleads : Leads u e.status e.version events e'.status e'.version) :
    ∃ events, eventsOf c'.events t = eventsOf c.events t ++ events
      ∧ Writes t (c.entries.get? t) events (c'.entries.get? t) := by
  by_cases htu : t = u
  · subst htu
    have hall : eventsOf events t = events :=
      filter_eq_self.mpr (fun event hev => decide_eq_true (hleads.tasks event hev))
    refine ⟨events, by rw [hevs, eventsOf_append, hall], ?_⟩
    rw [hents, hent, get?_set_self hent]
    exact .moved e e' events hleads
  · have hn : eventsOf events t = [] := by
      refine filter_eq_nil_iff.mpr (fun event hev heq => htu ?_)
      rw [← of_decide_eq_true heq, hleads.tasks event hev]
    refine ⟨[], by rw [hevs, eventsOf_append, hn], ?_⟩
    rw [hents, get?_set_ne _ _ htu]
    cases c.entries.get? t with
    | none => exact .absent
    | some e => exact .moved e e [] (.done (le_refl _))

/-- One logged status change. -/
theorem Logs.leads {target : TaskStatus} {event : TaskEvent} (h : Logs T t e target event)
    (halw : CanTransition e.status target) :
    Leads t e.status e.version [event] target (e.version + 1) := by
  refine Leads.step h.task h.before ?_ ?_ ?_
  · rw [h.after]
    exact halw
  · rw [h.sequence]
    exact lt_add_one e.version
  · rw [h.after]
    exact .done h.sequence.le

/-- A job that is charged keeps its status and its version. -/
theorem Entry.Charges.kept {charged : Entry} (h : e.Charges T charged) :
    charged.status = e.status ∧ charged.version = e.version
      ∧ CanTransition e.status .retrying := by
  cases h with
  | retry hst =>
    refine ⟨rfl, rfl, ?_⟩
    rcases hst with hs | hs
    · rw [hs]
      decide
    · rw [hs]
      decide
  | recovery hst _ | preempted hst =>
    refine ⟨rfl, rfl, ?_⟩
    rw [hst]
    decide

/-- **EVERY DEED** logs the status changes it makes. -/
theorem Chronicle.Deed.writes (h : Deed T c c') (t : Uuid) :
    ∃ events, eventsOf c'.events t = eventsOf c.events t ++ events
      ∧ Writes t (c.entries.get? t) events (c'.entries.get? t) := by
  cases h with
  | openDay p hnew | roll p day hday => exact writes_same t rfl rfl
  | create u e event hnew hst hver _ _ htask hbef hafter hseq =>
    show ∃ events, eventsOf (c.events ++ [event]) t = eventsOf c.events t ++ events
      ∧ Writes t (c.entries.get? t) events ((c.entries.insert u e).get? t)
    rw [eventsOf_append]
    by_cases htu : t = u
    · subst htu
      refine ⟨eventsOf [event] t, rfl, ?_⟩
      have hown : eventsOf [event] t = [event] :=
        filter_eq_self.mpr (fun other hoth => by
          rw [mem_singleton.mp hoth]
          exact decide_eq_true htask)
      rw [hown, hnew, get?_insert_self hnew]
      exact .created e event hst hver hbef hafter hseq
    · refine ⟨eventsOf [event] t, rfl, ?_⟩
      have hoth : eventsOf [event] t = [] := filter_eq_nil_iff.mpr (fun other hmem heq => htu (by
          rw [← of_decide_eq_true heq, mem_singleton.mp hmem, htask]))
      rw [hoth, get?_insert_ne _ _ htu]
      cases c.entries.get? t with
      | none => exact .absent
      | some e => exact .moved e e [] (.done (le_refl _))
  | adjust _ _ _ hent hadj =>
    refine writes_set t hent rfl (append_nil _).symm ?_
    rw [hadj.status]
    exact .done hadj.version
  | change _ _ _ _ _ hent hchg hlogs =>
    refine writes_set t hent rfl rfl ?_
    rw [hchg.status, hchg.version]
    exact hlogs.leads hchg.allowed
  | assign _ _ _ _ _ _ _ hasg =>
    refine writes_set t hasg.entry rfl rfl ?_
    rw [hasg.status]
    exact hasg.leads
  | preempt _ _ _ e _ hent hlau hlogs =>
    refine writes_set t hent rfl rfl (hlogs.leads ?_)
    revert hlau
    cases e.status <;> decide
  | finish _ _ _ _ hent _ halw _ hlogs =>
    exact writes_set t hent rfl rfl (hlogs.leads halw)
  | release =>
    exact writes_same t rfl rfl
  | requeue _ _ _ _ hent hchs hlogs =>
    obtain ⟨hst, hver, halw⟩ := hchs.kept
    refine writes_set t hent rfl rfl ?_
    rw [← hst] at halw
    have hleads := hlogs.leads halw
    rw [hst, hver] at hleads
    rw [hver]
    exact hleads

theorem Misreports.writes {event : TaskEvent} (h : Misreports T u e e' event c c') (t : Uuid) :
    ∃ events, eventsOf c'.events t = eventsOf c.events t ++ events
      ∧ Writes t (c.entries.get? t) events (c'.entries.get? t) := by
  refine writes_set t h.entry h.entries h.events ?_
  rw [h.version]
  exact h.logs.leads h.allowed

end Deeds

/-! ## Runs -/

/-- The events of a task account for its entry. -/
def Told (t : Uuid) (events : List TaskEvent) : Option Entry → Prop
  | none => events = []
  | some e => ∃ creation rest, events = creation :: rest ∧ creation.fromStatus = none
      ∧ creation.status = .pending ∧ creation.sequence = 0
      ∧ Leads t .pending 0 rest e.status e.version

theorem Told.writes {t : Uuid} {events more : List TaskEvent} {entry entry' : Option Entry}
    (h : Told t events entry) (hwr : Writes t entry more entry') :
    Told t (events ++ more) entry' := by
  cases hwr with
  | absent =>
    rw [append_nil]
    exact h
  | created e event hst hver hbef hafter hseq =>
    have hn : events = [] := h
    rw [hn]
    refine ⟨event, [], rfl, hbef, hafter, hseq, ?_⟩
    rw [hst]
    exact .done hver
  | moved _ _ more hleads =>
    obtain ⟨creation, rest, rfl, hbef, hafter, hseq, hr⟩ := h
    exact ⟨creation, rest ++ more, rfl, hbef, hafter, hseq, hr.append hleads⟩

/-- Every entry is accounted for. -/
def History (c : Chronicle) : Prop := ∀ t, Told t (eventsOf c.events t) (c.entries.get? t)

theorem History.writes {c c' : Chronicle} (h : History c)
    (hwr : ∀ t, ∃ events, eventsOf c'.events t = eventsOf c.events t ++ events
      ∧ Writes t (c.entries.get? t) events (c'.entries.get? t)) : History c' := by
  intro t
  obtain ⟨_, hevs, hwr'⟩ := hwr t
  rw [hevs]
  exact (h t).writes hwr'

theorem reach_history {db : Db} (h : Reach controlPlane anyCall db) :
    History db.chronicle := by
  refine (h.invariant (I := fun s => Lifecycle s.cluster ∧ History s.chronicle) ?_ ?_).2
  · rintro _ ⟨_, rfl⟩
    exact ⟨Lifecycle.empty, fun t => rfl⟩
  · rintro i s ⟨hlife, hhistory⟩ _
    have hfol : Follows anyRules s (controlPlane.step i s) :=
      step_follows hlife (anyRules_keeps i s)
    refine ⟨hfol.lifecycle hlife, ?_⟩
    have hdeeds : ∀ {mid : Db}, Tells i.terms s mid → History mid.chronicle :=
      fun htells => htells.keeps (fun _ _ hc hdeed => hc.writes hdeed.writes) hhistory
    rcases step_told hlife i.agrees_terms with
      htells | ⟨mid, t, e, e', event, htells, _, hmis⟩
    · exact hdeeds htells
    · exact (hdeeds htells).writes hmis.writes

/-- The events of a task, sorted by sequence. -/
def taskHistory (db : Db) (t : Uuid) : List TaskEvent :=
  (eventsOf db.taskEvents t).insertionSort (fun a b => a.sequence ≤ b.sequence)

/-- **THE LOG REPLAYS**: in every reachable state, the events of a task sorted by
    sequence lead from its creation to its current status. -/
theorem event_log_replays (db : Db) (h : Reach controlPlane anyCall db) (t : Uuid)
    (task : Task) (hrow : db.tasks.get? t = some task) :
    Replays (taskHistory db t) task.status := by
  have htold := reach_history h t
  rw [chronicle_entry hrow] at htold
  obtain ⟨creation, rest, hevs, hbef, hafter, hseq, hleads⟩ := htold
  have hevs' : eventsOf db.taskEvents t = creation :: rest := hevs
  obtain ⟨hlater, hord⟩ := hleads.sequences
  have hsort : (creation :: rest).Pairwise (fun a b => a.sequence < b.sequence) := by
    refine pairwise_cons.mpr ⟨?_, hord⟩
    intro event hev
    rw [hseq]
    exact hlater event hev
  -- the log is in the order of the sequences already
  have hhistory : taskHistory db t = creation :: rest := by
    rw [taskHistory, hevs']
    exact Pairwise.insertionSort_eq (hsort.imp le_of_lt)
  rw [← hafter] at hleads
  obtain ⟨hchain, hlast⟩ := hleads.isChain
  rw [hhistory]
  refine ⟨?_, ⟨creation, rest, rfl, hbef, hafter⟩, hchain, hlast⟩
  refine pairwise_map.mpr (hsort.imp ?_)
  exact fun hlt => ne_of_lt hlt

/-- A task that was claimed and pulls its image. -/
theorem event_log_of_a_claim : ∃ task, afterClaim.tasks.get? 1 = some task
    ∧ task.status = .pulling ∧ (taskHistory afterClaim 1).length = 4
    ∧ Replays (taskHistory afterClaim 1) task.status := by
  have hpull : (afterClaim.tasks.get? 1).map (·.status)
      = some .pulling := by decide +kernel
  obtain ⟨task, hrow, hst⟩ := Option.map_eq_some_iff.mp hpull
  exact ⟨task, hrow, hst, by decide +kernel,
    event_log_replays afterClaim (freshCloud_run _) 1 task hrow⟩

end MiniAiCloud
