import Mathlib.Data.Finset.Sort
import Mathlib.Data.Prod.Lex
import MiniAiCloud.Reachability
import MiniAiCloud.Schema

/-! # The event stream of a project

    A connection of `project_event_stream` reads the committed events of the project in
    pages, in the order of `(created_at, id)`, and moves its cursor over each event it
    sends.  The key of an event is set when its row is built and not when it is
    committed, so an event may become visible behind the cursor and is never sent. -/

namespace MiniAiCloud

open Reachability List

/-- An outbox row, told by the key the stream orders by. -/
abbrev EventKey := Time ×ₗ Uuid

/-- The events of the project and one open connection. -/
structure EventStream where
  /-- The rows of open transactions. -/
  pending : List (Uuid × EventKey)
  committed : Finset EventKey
  /-- The cursor; `None` is below every key. -/
  after : WithBot EventKey
  /-- What is left of the page that is being sent. -/
  events : List EventKey
  sent : List EventKey

/-- The events before the cursor, in order. -/
def EventStream.ahead (s : EventStream) : List EventKey :=
  (s.committed.filter (fun e : EventKey => s.after < e)).sort

/-- `ProjectEventRepository.list_for_project`. -/
def listForProject (s : EventStream) (limit : ℕ) : List EventKey := s.ahead.take limit

inductive StreamCall where
  | build (txn : Uuid) (event : EventKey)
  | commit (txn : Uuid)
  | rollback (txn : Uuid)
  /-- `_send_available` is called, with the batch size of the settings. -/
  | poll (limit : ℕ)
  /-- One turn of its loop. -/
  | send

/-- The rows a transaction has built. -/
def EventStream.built (s : EventStream) (txn : Uuid) : Finset EventKey :=
  ((s.pending.filter (·.1 = txn)).map Prod.snd).toFinset

/-- The stream opened at a cursor. -/
def eventStream (start : WithBot EventKey) : System EventStream StreamCall where
  init s := s.after = start ∧ s.events = [] ∧ s.sent = []
  step
    | .build txn event, s => { s with pending := (txn, event) :: s.pending }
    | .commit txn, s => { s with
        pending := s.pending.filter (·.1 ≠ txn), committed := s.committed ∪ s.built txn }
    | .rollback txn, s => { s with pending := s.pending.filter (·.1 ≠ txn) }
    | .poll limit, s => if s.events = [] then { s with events := listForProject s limit } else s
    | .send, s =>
      match s.events with
      | [] => s
      | event :: rest => { s with events := rest, sent := s.sent ++ [event], after := event }

/-! ## No event twice -/

/-- What is sent is in order and behind the cursor, what is left of the page before it. -/
structure EventStream.Ordered (s : EventStream) : Prop where
  sorted : (s.sent ++ s.events).Pairwise (· < ·)
  sent : ∀ e ∈ s.sent, e ≤ s.after
  events : ∀ e ∈ s.events, s.after < e

variable {s : EventStream} {start : WithBot EventKey}

theorem EventStream.mem_ahead {e : EventKey} :
    e ∈ s.ahead ↔ e ∈ s.committed ∧ s.after < e := by
  rw [EventStream.ahead, Finset.mem_sort, Finset.mem_filter]

theorem EventStream.pairwise_ahead (s : EventStream) : s.ahead.Pairwise (· < ·) :=
  (Finset.sortedLT_sort _).pairwise

theorem EventStream.Ordered.step (h : s.Ordered) (call : StreamCall) :
    ((eventStream start).step call s).Ordered := by
  cases call with
  | build txn event | commit txn | rollback txn => exact ⟨h.sorted, h.sent, h.events⟩
  | poll limit =>
    show EventStream.Ordered (if s.events = [] then _ else s)
    split_ifs with hidle
    · have hahead : ∀ e ∈ listForProject s limit, s.after < e :=
        fun e he => (EventStream.mem_ahead.mp (List.mem_of_mem_take he)).2
      refine ⟨?_, h.sent, hahead⟩
      have hsent := h.sorted
      rw [hidle, append_nil] at hsent
      have hpage : (listForProject s limit).Pairwise (· < ·) :=
        s.pairwise_ahead.sublist (take_sublist _ _)
      refine pairwise_append.mpr ⟨hsent, hpage, fun a ha b hb => ?_⟩
      exact WithBot.coe_lt_coe.mp ((h.sent a ha).trans_lt (hahead b hb))
    · exact h
  | send =>
    obtain ⟨pending, committed, after, events, sent⟩ := s
    cases events with
    | nil => exact h
    | cons event rest =>
      have hsort : (sent ++ event :: rest).Pairwise (· < ·) := h.sorted
      refine ⟨?_, fun e he => ?_, fun e he => ?_⟩
      · show (sent ++ [event] ++ rest).Pairwise (· < ·)
        rw [append_assoc]
        exact hsort
      · rcases mem_append.mp he with hold | hnew
        · exact (h.sent e hold).trans (h.events event mem_cons_self).le
        · exact (congrArg _ (mem_singleton.mp hnew)).le
      · have hr := (pairwise_append.mp hsort).2.1
        exact WithBot.coe_lt_coe.mpr ((pairwise_cons.mp hr).1 e he)

/-! ## Every event once -/

/-- A transaction commits its events before the cursor and the page have passed them. -/
def OnTime : StreamCall → EventStream → Prop
  | .commit txn, s => ∀ e ∈ s.built txn, s.after < e ∧ ∀ b ∈ s.events, b < e
  | _, _ => True

/-- The committed events up to the end of the page are sent or on the page. -/
def EventStream.Complete (start : WithBot EventKey) (s : EventStream) : Prop :=
  ∀ e ∈ s.committed, start < e → (e ≤ s.after ∨ ∃ b ∈ s.events, e ≤ b) →
    e ∈ s.sent ++ s.events

theorem EventStream.Complete.step {call : StreamCall} (h : s.Complete start)
    (hok : OnTime call s) : ((eventStream start).step call s).Complete start := by
  cases call with
  | build txn event | rollback txn => exact h
  | commit txn =>
    intro e he hstart hpasd
    rcases Finset.mem_union.mp he with hold | hnew
    · exact h e hold hstart hpasd
    · obtain ⟨hafter, hpage⟩ := hok e hnew
      rcases hpasd with hle | ⟨b, hb, hle⟩
      · exact absurd hafter (not_lt.mpr hle)
      · exact absurd (hpage b hb) (not_lt.mpr hle)
  | poll limit =>
    show EventStream.Complete start (if s.events = [] then _ else s)
    split_ifs with hidle
    · intro e he hstart hpasd
      by_cases hafter : e ≤ s.after
      · have hsent := h e he hstart (.inl hafter)
        rw [hidle, append_nil] at hsent
        exact mem_append_left _ hsent
      · obtain ⟨b, hb, hle⟩ := hpasd.resolve_left hafter
        -- the page is the start of the sorted list, so nothing before `b` is cut off
        have hmem : e ∈ s.ahead := EventStream.mem_ahead.mpr ⟨he, not_le.mp hafter⟩
        have hsort := s.pairwise_ahead
        rw [← take_append_drop limit s.ahead] at hmem hsort
        refine mem_append_right _ ((mem_append.mp hmem).resolve_right fun hcut => ?_)
        exact absurd ((pairwise_append.mp hsort).2.2 b hb e hcut) (not_lt.mpr hle)
    · exact h
  | send =>
    obtain ⟨pending, committed, after, events, sent⟩ := s
    cases events with
    | nil => exact h
    | cons event rest =>
      intro e he hstart hpasd
      show e ∈ sent ++ [event] ++ rest
      rw [append_assoc]
      refine h e he hstart (.inr ?_)
      rcases hpasd with hle | ⟨b, hb, hle⟩
      · exact ⟨event, mem_cons_self, WithBot.coe_le_coe.mp hle⟩
      · exact ⟨b, mem_cons_of_mem _ hb, hle⟩

/-- **THE STREAM** sends no event twice, and misses none that was committed on time. -/
theorem event_stream_delivers (start : WithBot EventKey) :
    (∀ s, Reach (eventStream start) (fun _ _ => True) s → s.sent.Nodup)
      ∧ ∀ s, Reach (eventStream start) OnTime s →
        s.sent.Nodup ∧ ∀ e ∈ s.committed, start < e → e ≤ s.after → e ∈ s.sent := by
  have hinit : ∀ s, (eventStream start).init s → s.Ordered := by
    rintro s ⟨_, hevs, hsent⟩
    refine ⟨?_, ?_, ?_⟩ <;> simp [hevs, hsent]
  have hnd : ∀ {s : EventStream}, s.Ordered → s.sent.Nodup := fun h =>
    ((pairwise_append.mp h.sorted).1).imp fun hlt => hlt.ne
  refine ⟨fun s h => hnd (h.invariant hinit fun call s hs _ => hs.step call), fun s h => ?_⟩
  have hboth : s.Ordered ∧ s.Complete start := by
    refine h.invariant (I := fun s => s.Ordered ∧ s.Complete start)
      (fun s hs => ⟨hinit s hs, ?_⟩) fun call s hs hok => ⟨hs.1.step call, hs.2.step hok⟩
    obtain ⟨hafter, hevs, _⟩ := hs
    intro e _ hstart hpasd
    rw [hafter, hevs] at hpasd
    rcases hpasd with hle | ⟨b, hb, _⟩
    · exact absurd hstart (not_lt.mpr hle)
    · exact absurd hb not_mem_nil
  refine ⟨hnd hboth.1, fun e he hstart hle => ?_⟩
  refine (mem_append.mp (hboth.2 e he hstart (.inl hle))).resolve_right fun hpage => ?_
  exact absurd (hboth.1.events e hpage) (not_lt.mpr hle)

instance : ∀ call s, Decidable (OnTime call s)
  | .commit txn, s => inferInstanceAs (Decidable (∀ e ∈ s.built txn, _ ∧ _))
  | .build _ _, _ | .rollback _, _ | .poll _, _ | .send, _ => isTrue trivial

def emptyStream : EventStream := ⟨[], ∅, ⊥, [], []⟩

def earlyEvent : EventKey := toLex (1, 1)

def lateEvent : EventKey := toLex (2, 2)

/-- The rows are committed in the order in which they were built. -/
def orderlyStream : EventStream :=
  (eventStream ⊥).run [.build 1 earlyEvent, .build 2 lateEvent, .commit 1, .poll 10, .send,
    .commit 2, .poll 10, .send] emptyStream

theorem event_stream_delivers_both : earlyEvent ∈ orderlyStream.sent
    ∧ lateEvent ∈ orderlyStream.sent := by
  have hreach : Reach (eventStream ⊥) OnTime orderlyStream :=
    Reach.run _ (.init ⟨rfl, rfl, rfl⟩) (by decide +kernel)
  have hall := ((event_stream_delivers ⊥).2 _ hreach).2
  exact ⟨hall _ (by decide +kernel) (WithBot.bot_lt_coe _) (by decide +kernel),
    hall _ (by decide +kernel) (WithBot.bot_lt_coe _) (by decide +kernel)⟩

/-- The first row is committed after the second one was sent. -/
def skippingStream : EventStream :=
  (eventStream ⊥).run [.build 1 earlyEvent, .build 2 lateEvent, .commit 2, .poll 10, .send,
    .commit 1] emptyStream

/-- **AN EVENT IS SKIPPED**: it is committed, the cursor is past it, and it was not sent. -/
theorem event_stream_skips : Reach (eventStream ⊥) (fun _ _ => True) skippingStream
    ∧ earlyEvent ∈ skippingStream.committed ∧ earlyEvent ≤ skippingStream.after
    ∧ earlyEvent ∉ skippingStream.sent := by
  refine ⟨Reach.run _ (.init ⟨rfl, rfl, rfl⟩) ?_, by decide +kernel⟩
  exact allowed_of_forall _ (fun _ _ _ => trivial) _

end MiniAiCloud
