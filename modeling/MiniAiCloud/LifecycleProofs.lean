import MiniAiCloud.ControlPlaneProofs

/-! # Dependencies and cancellation, over whole runs

    Three results that hold whatever the processes send and in whatever order:
    the dependency gate is never bypassed, the dependency graph has no cycle, and
    a cancelled task never runs again. -/

namespace MiniAiCloud

open Reachability Cluster Table Option

/-- Any call may come at any time. -/
abbrev anyCall : Call → Db → Prop := fun _ _ => True

/-- What every run keeps: the rules promise nothing. -/
theorem reach_any {I : Cluster → Prop} (hinit : I Cluster.empty)
    (hstep : ∀ a b, Lifecycle a → I a → Step anyRules a b → I b) {db : Db}
    (h : Reach controlPlane anyCall db) : Lifecycle db.cluster ∧ I db.cluster :=
  reach_keeps (fun i db _ => anyRules_keeps i db) hinit hstep h

theorem steps_any {db db' : Db} (hlife : Lifecycle db.cluster)
    (h : Reachability.Steps controlPlane anyCall db db') : Follows anyRules db db' :=
  steps_follow (fun i db _ => anyRules_keeps i db) hlife h

/-! ## A small cloud -/

/-- A database with one active project. -/
def freshCloud : Db := Db.ofProjects (Table.empty.insert 7 .active)

theorem freshCloud_init : controlPlane.init freshCloud := ⟨Table.empty.insert 7 .active, rfl⟩

/-- Any list of calls leads to a reachable state. -/
theorem freshCloud_run (calls : List Call) :
    Reach controlPlane anyCall (controlPlane.run calls freshCloud) :=
  (Reach.init freshCloud_init).run calls (allowed_of_forall _ (fun _ _ _ => trivial) _)

def standardPrices : Prices := ⟨1 / 20, 1 / 200, 1, by norm_num, by norm_num, by norm_num⟩

/-- A worker with four cores registers. -/
def registerWorker : Op :=
  .register "w" { hostname := "h", concurrency := 4, cpuCount := 4, memoryTotalMb := 4096 }
    100

/-- A task of half a core. -/
def halfCoreTask (dependsOn : List Uuid) : TaskSubmission where
  projectId := 7
  timeoutSeconds := 60
  maxRetries := 0
  cpuLimit := 1 / 2
  memoryLimitMb := 128
  gpuCount := 0
  labels := []
  dependsOn := dependsOn

/-- The first execution of the first task, seen by its worker. -/
def firstOwner : Caller where
  taskId := 1
  workerId := "w"
  executionId := 11
  workerSessionId := some 100

def succeededReport : Report where
  target := .succeeded
  exitCode := some 0
  errorMessage := none
  retryMaxBackoffSeconds := 60
  cpuPricePerHour := 1
  gpuPricePerHour := 1

/-- A worker runs a task to the end, and claims a task that waited for it. -/
def chainedCalls : List Call :=
  [⟨0, registerWorker⟩, ⟨1, .createQueued 1 (halfCoreTask [])⟩,
   ⟨2, .createQueued 2 (halfCoreTask [1])⟩,
   ⟨3, .claim 1 "w" 11 30 none standardPrices []⟩, ⟨4, .markPulling firstOwner 30 5⟩,
   ⟨5, .markStarting firstOwner 30 5⟩, ⟨6, .markRunning firstOwner 30 5⟩,
   ⟨7, .finishExecution firstOwner succeededReport⟩,
   ⟨8, .resolveDependencyReadiness [] 10⟩, ⟨9, .claim 2 "w" 12 30 none standardPrices []⟩]

def afterChain : Db := controlPlane.run chainedCalls freshCloud

/-! ## The dependency gate -/

/-- The task exists and has succeeded. -/
def HasSucceeded (db : Db) (t : Uuid) : Prop :=
  ∃ task, db.tasks.get? t = some task ∧ task.status = .succeeded

theorem hasSucceeded_iff {db : Db} {t : Uuid} :
    db.cluster.Succeeded t ↔ HasSucceeded db t := by
  constructor
  · rintro ⟨_, hjob, hs⟩
    obtain ⟨task, htask, rfl⟩ := get?_map_eq_some.mp hjob
    exact ⟨task, htask, hs⟩
  · rintro ⟨task, htask, hs⟩
    exact ⟨task.job, cluster_job htask, hs⟩

/-- **THE DEPENDENCY GATE** is never bypassed: in every reachable state, what a
    task that has started or succeeded depends on has succeeded, through group
    and non-group edges, and stays so in every continuation. -/
theorem dag_gate_never_bypassed (db : Db) (h : Reach controlPlane anyCall db)
    (t : Uuid) (task : Task) (hrow : db.tasks.get? t = some task)
    (hstarted : task.status ∈ TaskStatus.succeeded :: holdingStatuses)
    (d : Uuid) (edge : TaskDependency)
    (hedge : db.taskDependencies.get? (t, d) = some edge) :
    HasSucceeded db d
      ∧ ∀ db', Reachability.Steps controlPlane anyCall db db' → HasSucceeded db' d := by
  obtain ⟨hlife, hgated⟩ := reach_any (I := Gated) (fun t d g job hedge => by cases hedge)
    (fun a b hlife hgated hstep => hgated.step hlife hstep) h
  have hdone : db.cluster.Succeeded d :=
    hgated t d edge.jobGroupId task.job (get?_map_of_some hedge _) (cluster_job hrow) hstarted
  refine ⟨hasSucceeded_iff.mp hdone, ?_⟩
  intro _ hsteps
  exact hasSucceeded_iff.mp ((steps_any hlife hsteps).keeps
    (fun a b ha hab => Succeeded.step ha hab) hdone)

/-- The second task of the chain was claimed, so the first has succeeded. -/
theorem dag_gate_in_a_chain : HasSucceeded afterChain 1 := by
  have hst : (afterChain.tasks.get? 2).map (·.status)
      = some .assigned := by decide +kernel
  have hedge : (afterChain.taskDependencies.get? (2, 1)).isSome = true := by
    decide +kernel
  obtain ⟨task, hrow, hasg⟩ := map_eq_some_iff.mp hst
  obtain ⟨edge, hedge'⟩ := isSome_iff_exists.mp hedge
  exact (dag_gate_never_bypassed afterChain (freshCloud_run _) 2 task hrow
    (by rw [hasg]; decide) 1 edge hedge').1

/-! ## The dependency graph -/

/-- **THE CYCLE CHECK IS EXACT**; and in whatever order the roots are popped, no node is
    visited twice and the check gives the same answer. -/
theorem contains_cycle_exact (edges : List (Uuid × Uuid)) :
    (containsCycle edges = true ↔ ∃ t, Relation.TransGen (Digraph.Edge edges) t t)
      ∧ ∀ s, Relation.ReflTransGen (Digraph.Visits edges.dedup) (.start edges.dedup) s →
        s.visited.Nodup ∧ (s.roots = [] → (containsCycle edges = true
            ↔ s.visited.length ≠ (Digraph.nodes edges.dedup).length)) := by
  have hexact : containsCycle edges = true ↔ ¬ Digraph.Acyclic (Digraph.Edge edges) := by
    rw [← Digraph.hasCycle_eq_false_iff, Bool.not_eq_false]
    rfl
  refine ⟨hexact.trans ?_, fun s hrun => ?_⟩
  · rw [Digraph.Acyclic, not_forall_not]
  · have hnd : edges.dedup.Nodup := List.nodup_dedup edges
    refine ⟨(Digraph.Traversal.peeling hnd hrun).1.nodup.of_append_left, fun hend => ?_⟩
    rw [hexact, ← Digraph.edge_dedup, ← Digraph.Traversal.visited_all_iff hnd hrun hend]

/-- **NO CYCLES**: the edges of all groups and of no group together never close
    a cycle. -/
theorem dependency_graph_acyclic (db : Db) (h : Reach controlPlane anyCall db) :
    Digraph.Acyclic (fun t d => db.taskDependencies.get? (t, d) ≠ none) := by
  obtain ⟨_, hgrp⟩ := reach_any (I := fun a => Grouped a.edges) Grouped.empty
    (fun a b hlife hgrp hstep => hgrp.step hlife hstep) h
  refine hgrp.acyclic.mono ?_
  intro t d hedge hn
  exact hedge (get?_map_eq_none.mp hn)

/-- Three tasks: the first two are linked in a group, the third waits for the
    second outside of it. -/
def groupedCalls : List Call :=
  [⟨1, .createQueued 1 (halfCoreTask [])⟩, ⟨2, .createQueued 2 (halfCoreTask [])⟩,
   ⟨3, .createGroup 70 7 "pipeline" "null" [⟨2, 1, .cancel⟩]⟩,
   ⟨4, .createQueued 3 (halfCoreTask [2])⟩]

def afterGroup : Db := controlPlane.run groupedCalls freshCloud

/-- Edges of a group and of no group meet in one task, without a cycle. -/
theorem dependency_graph_mixed : afterGroup.taskDependencies.get? (2, 1) ≠ none
      ∧ afterGroup.taskDependencies.get? (3, 2) ≠ none
      ∧ Digraph.Acyclic (fun t d => afterGroup.taskDependencies.get? (t, d) ≠ none) := by
  have hgroup : (afterGroup.taskDependencies.get? (2, 1)).isSome = true := by
    decide +kernel
  have hfree : (afterGroup.taskDependencies.get? (3, 2)).isSome = true := by
    decide +kernel
  exact ⟨isSome_iff_ne_none.mp hgroup, isSome_iff_ne_none.mp hfree,
    dependency_graph_acyclic afterGroup (freshCloud_run _)⟩

/-! ## Cancellation -/

/-- A doomed job gets no new execution, in any number of steps. -/
theorem doomed_executions {R : Rules} {a b : Cluster} {t : Uuid} {s : TaskStatus}
    (h : Cluster.Steps R a b) (ha : a.Doomed t s) :
    b.Doomed t s ∧ ∀ x grant, b.executions.get? x = some grant → grant.job = t →
      a.executions.get? x = some grant := by
  induction h with
  | refl => exact ⟨ha, fun _ _ hx _ => hx⟩
  | tail _ hlast ih =>
    refine ⟨ih.1.step hlast, ?_⟩
    intro x grant hx ht
    exact ih.2 x grant (ih.1.no_execution hlast hx ht) ht

/-- **CANCELLATION WINS**: once the cancellation of a task that has not ended
    commits, the task stays in the stopping or preempting status it is in, or is
    cancelled, in every continuation, and gets no new execution. -/
theorem cancellation_wins (db : Db) (h : Reach controlPlane anyCall db) (t : Uuid)
    (task : Task) (hrow : db.tasks.get? t = some task)
    (hopen : task.status ∉ finalTaskStatuses) (now : Time) (result : Option Task)
    (db₁ : Db) (hcancel : cancel now t db = .ok result db₁) :
    ∃ task₁, db₁.tasks.get? t = some task₁
      ∧ task₁.status ∈ [TaskStatus.stopping, .preempting, .cancelled]
      ∧ ∀ db₂, Reachability.Steps controlPlane anyCall db₁ db₂ →
          (∃ task₂, db₂.tasks.get? t = some task₂
            ∧ (task₂.status = task₁.status ∨ task₂.status = .cancelled))
          ∧ ∀ x execution, db₂.executions.get? x = some execution →
              execution.taskId = t → db₁.executions.get? x ≠ none := by
  obtain ⟨hlife, _⟩ := reach_any (I := fun _ => True) trivial (fun _ _ _ _ _ => trivial) h
  obtain ⟨hfol, task₁, hrow₁, hdoom⟩ := cancel_open (R := anyRules) hlife hrow hopen hcancel
  refine ⟨task₁, hrow₁, ?_, ?_⟩
  · rcases hdoom with ⟨hs, _⟩ | ⟨hs, _, _⟩ | hs
    · have hs' : task₁.status = .stopping := hs
      rw [hs']
      decide
    · have hs' : task₁.status = .preempting := hs
      rw [hs']
      decide
    · have hs' : task₁.status = .cancelled := hs
      rw [hs']
      decide
  · intro _ hsteps
    have hstart : db₁.cluster.Doomed t task₁.status :=
      ⟨task₁.job, cluster_job hrow₁, hdoom, Or.inl rfl⟩
    obtain ⟨⟨_, hjob, _, hst⟩, hexecs⟩ :=
      doomed_executions (steps_any (hfol.lifecycle hlife) hsteps).steps hstart
    obtain ⟨task₂, hrow₂, rfl⟩ := get?_map_eq_some.mp hjob
    refine ⟨⟨task₂, hrow₂, hst⟩, ?_⟩
    intro x execution hx ht hn
    have hold := hexecs x execution.grant (get?_map_of_some hx _) ht
    obtain ⟨_, hrow, _⟩ := get?_map_eq_some.mp hold
    rw [hn] at hrow
    cases hrow

/-- The worker has claimed the first task and pulls its image. -/
def claimedCalls : List Call :=
  [⟨0, registerWorker⟩, ⟨1, .createQueued 1 (halfCoreTask [])⟩,
   ⟨2, .claim 1 "w" 11 30 none standardPrices []⟩, ⟨3, .markPulling firstOwner 30 5⟩]

def afterClaim : Db := controlPlane.run claimedCalls freshCloud

/-- The task is cancelled while its worker is about to report success. -/
theorem cancellation_wins_over_success : ∃ result db₁, cancel 4 1 afterClaim = .ok result db₁
      ∧ ∃ task₂, (controlPlane.run [⟨5, .finishExecution firstOwner succeededReport⟩]
          db₁).tasks.get? 1 = some task₂
        ∧ task₂.status ∈ [TaskStatus.stopping, .preempting, .cancelled] := by
  have hopen : (afterClaim.tasks.get? 1).map (·.status)
      = some .pulling := by decide +kernel
  obtain ⟨task, hrow, hpull⟩ := map_eq_some_iff.mp hopen
  have hok : (match cancel 4 1 afterClaim with
      | .ok _ _ => true
      | .error _ _ => false) = true := by decide +kernel
  cases hcncl : cancel 4 1 afterClaim with
  | error =>
    rw [hcncl] at hok
    cases hok
  | ok result db₁ =>
    obtain ⟨_, _, hstatus₁, hlater⟩ := cancellation_wins afterClaim (freshCloud_run _)
      1 task hrow (by rw [hpull]; decide) 4 result db₁ hcncl
    obtain ⟨⟨task₂, hrow₂, hsame⟩, _⟩ := hlater _ (Steps.run
      [⟨5, .finishExecution firstOwner succeededReport⟩] Steps.refl
      (allowed_of_forall _ (fun _ _ _ => trivial) _))
    refine ⟨result, db₁, rfl, task₂, hrow₂, ?_⟩
    rcases hsame with heq | hcncd
    · rw [heq]
      exact hstatus₁
    · rw [hcncd]
      decide

end MiniAiCloud
