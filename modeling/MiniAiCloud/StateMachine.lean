import Mathlib.Data.List.Basic

/-! # The task status graph

    The statuses of a task, the two status sets the repositories test against
    and the explicit graph of allowed transitions.  Every status change of the
    control plane goes through `CanTransition`. -/

namespace MiniAiCloud

inductive TaskStatus where
  | pending | queued | scheduling | assigned | preparing | pulling | starting
  | running | preempting | preempted | stopping | succeeded | failed
  | cancelled | timedOut | retrying
  deriving DecidableEq, Repr

namespace TaskStatus

/-- The stored text of a status. -/
def value : TaskStatus → String
  | pending => "pending"
  | queued => "queued"
  | scheduling => "scheduling"
  | assigned => "assigned"
  | preparing => "preparing"
  | pulling => "pulling"
  | starting => "starting"
  | running => "running"
  | preempting => "preempting"
  | preempted => "preempted"
  | stopping => "stopping"
  | succeeded => "succeeded"
  | failed => "failed"
  | cancelled => "cancelled"
  | timedOut => "timed_out"
  | retrying => "retrying"

end TaskStatus

open TaskStatus

/-- `FINAL_TASK_STATUSES`. -/
def finalTaskStatuses : List TaskStatus :=
  [succeeded, failed, cancelled, timedOut, preempted]

/-- `ACTIVE_TASK_STATUSES`. -/
def activeTaskStatuses : List TaskStatus :=
  [scheduling, assigned, preparing, pulling, starting, running, preempting,
    stopping]

/-- `ALLOWED_TRANSITIONS`. -/
def allowedTransitions : TaskStatus → List TaskStatus
  | pending => [queued, cancelled]
  | queued => [scheduling, assigned, cancelled]
  | scheduling => [queued, assigned, cancelled]
  | assigned =>
    [preparing, pulling, stopping, preempting, cancelled, failed, timedOut]
  | preparing => [pulling, starting, stopping, preempting, failed, timedOut]
  | pulling =>
    [starting, running, stopping, preempting, cancelled, failed, timedOut]
  | starting => [running, stopping, preempting, failed, timedOut]
  | running => [stopping, preempting, succeeded, failed, cancelled, timedOut]
  | stopping => [cancelled, failed, timedOut]
  | preempting => [preempted, failed, cancelled]
  | preempted => [retrying]
  | failed => [retrying]
  | timedOut => [retrying]
  | retrying => [queued, cancelled]
  | succeeded => []
  | cancelled => []

/-- `can_transition`. -/
def CanTransition (current target : TaskStatus) : Prop :=
  target ∈ allowedTransitions current
  deriving Decidable

/-- Holding an execution: the statuses in which a task owns a reservation. -/
def holdingStatuses : List TaskStatus :=
  [assigned, preparing, pulling, starting, running, stopping, preempting]

/-- The statuses that count against the queue quota. -/
def waitingStatuses : List TaskStatus := [pending, queued, retrying]

/-- The statuses of an execution nobody has asked to stop. -/
def launchStatuses : List TaskStatus :=
  [assigned, preparing, pulling, starting, running]

/-! ## How the three sets lie in the graph -/

theorem holding_of_launch : ∀ s ∈ launchStatuses, s ∈ holdingStatuses := by
  decide

theorem active_of_holding : ∀ s ∈ holdingStatuses, s ∈ activeTaskStatuses := by
  decide

theorem not_holding_of_waiting : ∀ s ∈ waitingStatuses, s ∉ holdingStatuses := by
  decide

theorem not_holding_of_final : ∀ s ∈ finalTaskStatuses, s ∉ holdingStatuses := by
  decide

theorem not_waiting_of_final : ∀ s ∈ finalTaskStatuses, s ∉ waitingStatuses := by
  decide

/-- An execution never goes back to the queue, and one that was asked to stop
    does not launch again. -/
theorem CanTransition.from_holding {s u : TaskStatus} (hs : s ∈ holdingStatuses)
    (h : CanTransition s u) :
    u ∉ waitingStatuses ∧ u ≠ scheduling ∧ (u ∈ launchStatuses → s ∈ launchStatuses) := by
  have key : ∀ s ∈ holdingStatuses, ∀ u ∈ allowedTransitions s,
      u ∉ waitingStatuses ∧ u ≠ scheduling ∧ (u ∈ launchStatuses → s ∈ launchStatuses) := by
    decide
  exact key s hs u h

end MiniAiCloud
