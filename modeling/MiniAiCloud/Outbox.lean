import MiniAiCloud.Reachability
import MiniAiCloud.Schema

/-! # The transactional outbox

    Dispatchers claim rows, publish them and mark them, each in a transaction of its own.
    One may stop in between, a publication may raise after it arrived, and a claim
    may lapse before its row is marked. -/

namespace MiniAiCloud

open Table Reachability Option

structure OutboxEvent where
  availableAt : Time
  processedAt : Option Time := none
  lockedBy : Option Uuid := none
  lockedUntil : Option Time := none
  attempts : ℕ := 0

/-- Where `dispatch_once` is: what is left of the batch and, once its first event is
    published, whether that raised. -/
structure Turn where
  events : List Uuid := []
  published : Option Bool := none

structure Outbox where
  rows : Table Uuid OutboxEvent := .empty
  turns : Uuid → Turn := fun _ => {}
  added : List Uuid := []
  sent : List Uuid := []
  /-- The events `mark_processed` returned, which the metrics count. -/
  counted : List Uuid := []

inductive OutboxCall where
  | add (id : Uuid) (availableAt : Time)
  /-- Any pending rows: a limit and locks may leave some out. -/
  | claimBatch (now : Time) (owner : Uuid) (ids : List Uuid)
  | publish (owner : Uuid) (arrived raised : Bool)
  | mark (now : Time) (owner : Uuid)
  | stop (owner : Uuid)
  | cleanup (cutoff : Time) (ids : List Uuid)

namespace Outbox

def goto (s : Outbox) (owner : Uuid) (turn : Turn) : Outbox :=
  { s with turns := Function.update s.turns owner turn }

/-- `mark_processed` or, where the publication raised, `mark_failed`. -/
def marked (s : Outbox) (now : Time) (id owner : Uuid) (raised : Bool) : Outbox :=
  if (s.rows.get? id).all fun event => event.processedAt ≠ none ∨ event.lockedBy ≠ some owner then s
  else if raised then { s with
    rows := s.rows.modify id fun event => { event with
      attempts := event.attempts + 1
      availableAt := now + min (2 ^ min event.attempts 10) 60
      lockedBy := none, lockedUntil := none } }
  else { s with
    counted := id :: s.counted
    rows := s.rows.modify id ({ · with
      processedAt := some now, lockedBy := none, lockedUntil := none }) }

def outbox : System Outbox OutboxCall where
  init s := s = {}
  step
    | .add id availableAt, s => if id ∈ s.added then s else { s with
        rows := s.rows.insert id { availableAt }, added := id :: s.added }
    | .claimBatch now owner ids, s =>
      let batch := ids.filter fun id => (s.rows.get? id).any fun event =>
        event.processedAt = none ∧ event.availableAt ≤ now ∧ event.lockedUntil.all (· < now)
      { s.goto owner { events := batch } with
        rows := s.rows.mapRows fun id event => if id ∈ batch then { event with
          lockedBy := some owner, lockedUntil := some (now + 30) } else event }
    | .publish owner arrived raised, s => match s.turns owner with
      | ⟨id :: rest, none⟩ => goto { s with
          sent := if arrived ∨ ¬ raised then id :: s.sent else s.sent } owner
          ⟨id :: rest, some raised⟩
      | _ => s
    | .mark now owner, s => match s.turns owner with
      | ⟨id :: rest, some raised⟩ => (s.marked now id owner raised).goto owner ⟨rest, none⟩
      | _ => s
    | .stop owner, s => s.goto owner {}
    | .cleanup cutoff ids, s => { s with rows := s.rows.keep fun id event =>
        ¬ (id ∈ ids ∧ event.processedAt.any (· < cutoff)) }

variable {s : Outbox} {id owner : Uuid}

/-- An event is counted when its row is processed, and its row stays until then. -/
structure Sound (s : Outbox) : Prop where
  added : ∀ id, id ∈ s.added ↔ id ∈ s.counted ∨ s.rows.get? id ≠ none
  done : ∀ id event, s.rows.get? id = some event → (event.processedAt ≠ none ↔ id ∈ s.counted)
  nodup : s.counted.Nodup
  sent : s.counted ⊆ s.sent
  published : ∀ owner id rest, s.turns owner = ⟨id :: rest, some false⟩ → id ∈ s.sent

theorem Sound.goto (h : s.Sound) {turn : Turn}
    (hp : ∀ id rest, turn = ⟨id :: rest, some false⟩ → id ∈ s.sent) :
    (s.goto owner turn).Sound := by
  refine ⟨h.added, h.done, h.nodup, h.sent, fun o id rest heq => ?_⟩
  rcases eq_or_ne o owner with rfl | ho
  · exact hp id rest ((Function.update_self ..).symm.trans heq)
  · exact h.published o id rest ((Function.update_of_ne ho ..).symm.trans heq)

theorem Sound.mapRows (h : s.Sound) {g : Uuid → OutboxEvent → OutboxEvent}
    (hg : ∀ id event, (g id event).processedAt = event.processedAt) :
    Sound { s with rows := s.rows.mapRows g } := by
  refine ⟨fun id => by simp [h.added], fun id event hrow => ?_, h.nodup, h.sent, h.published⟩
  obtain ⟨old, hold, rfl⟩ := map_eq_some_iff.mp ((get?_mapRows ..).symm.trans hrow)
  rw [hg]
  exact h.done id old hold

theorem Sound.marked (h : s.Sound) {now : Time} {raised : Bool}
    (hid : raised = false → id ∈ s.sent) : (s.marked now id owner raised).Sound := by
  have ⟨hadd, hdone, hnodup, hsent, hpub⟩ := h
  unfold Outbox.marked
  split_ifs with hskip
  · exact h
  · exact h.mapRows fun _ _ => by split_ifs <;> rfl
  · have hnot : id ∉ s.counted := by cases hrow : s.rows.get? id <;> grind
    constructor <;> grind [get?_modify_eq_none, → get?_modify_cases]

theorem Sound.step (h : s.Sound) (i : OutboxCall) : (outbox.step i s).Sound := by
  have ⟨hadd, hdone, hnodup, hsent, hpub⟩ := h
  cases i with
  | add id =>
    simp only [outbox]
    split_ifs with hold
    · exact h
    have hnone : s.rows.get? id = none := by grind
    constructor <;> grind [get?_insert hnone]
  | claimBatch => exact (h.goto (by simp)).mapRows fun _ _ => by split_ifs <;> rfl
  | publish =>
    simp only [outbox]
    split
    · refine Sound.goto ?_ (by grind)
      constructor <;> grind
    · exact h
  | mark =>
    simp only [outbox]
    split
    · exact (h.marked (by grind)).goto (by simp)
    · exact h
  | stop => exact h.goto (by simp)
  | cleanup =>
    refine ⟨fun id => (hadd id).trans (or_congr_right' fun hnot => ?_),
      fun id event hrow => hdone id event (get?_keep.mp hrow).1, hnodup, hsent, hpub⟩
    -- a row not counted is not processed, and stays
    rw [ne_none_iff_exists', ne_none_iff_exists']
    exact exists_congr fun event => Iff.trans (by grind) get?_keep.symm

/-- **NO EVENT IS LOST, AND NONE IS COUNTED TWICE.** -/
theorem outbox_delivers (calls : List OutboxCall) :
    let s := outbox.run calls {}
    s.counted.Nodup ∧ s.counted ⊆ s.sent ∧ ∀ id ∈ s.added, id ∉ s.sent →
        ∃ event, s.rows.get? id = some event ∧ event.processedAt = none := by
  intro s
  have hs : s.Sound := by
    refine Reach.invariant ?_ (fun i _ hs _ => hs.step i)
      (.run calls (.init rfl) (allowed_of_forall calls (fun _ _ _ => trivial) _))
    rintro _ rfl
    constructor <;> simp
  refine ⟨hs.nodup, hs.sent, fun id hid hsent => ?_⟩
  have hnot : id ∉ s.counted := mt (@hs.sent id) hsent
  obtain ⟨event, hrow⟩ := ne_none_iff_exists'.mp (((hs.added id).mp hid).resolve_left hnot)
  exact ⟨event, hrow, not_not.mp (mt (hs.done id event hrow).mp hnot)⟩

end Outbox

end MiniAiCloud
