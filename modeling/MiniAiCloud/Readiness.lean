import MiniAiCloud.LifecycleProofs

/-! # The dependency engine and the view of a group

    A pass of `resolve_dependency_readiness` decides on each selected task by the rows
    it read before the loop; `resolved` is that decision.  The view of a job group
    decides by the edges of the group.  Both see the same rows, because a task with an
    edge in a group has no edge out of it elsewhere. -/

namespace MiniAiCloud

open Transaction Cluster Reachability Table List

variable {db db' : Db} {t d g : Uuid} {task : Task} {now : Time} {locked changed : List Uuid}
  {limit : ℕ} {rows : List (DependencyFailurePolicy × TaskStatus)} {status : TaskStatus}

/-! ## One pass -/

/-- What the resolution loop makes of a status. -/
def resolved (rows : List (DependencyFailurePolicy × TaskStatus)) (status : TaskStatus) :
    TaskStatus :=
  if rows = [] then status
  else if ∀ row ∈ rows, row.2 = .succeeded then
    if status = .pending then .queued else status
  else if ∃ row ∈ rows, Unsuccessful row.2 ∧ row.1 = .cancel then .cancelled
  else status

/-- The task may still be resolved. -/
def Task.Unresolved (task : Task) : Prop := task.status = .pending ∨ task.status = .queued

/-- One iteration of the loop gives the task the resolved status and reports whether
    that is a change. -/
theorem resolveTask_resolves {b : Bool} (hrow : db.tasks.get? t = some task)
    (hopen : task.Unresolved) (h : resolveTask now t rows db = .ok b db') :
    (b = true ↔ resolved rows task.status ≠ task.status)
      ∧ (b = false → db'.tasks.get? t = some task)
      ∧ (db'.tasks.get? t).map (·.status) = some (resolved rows task.status) := by
  rw [resolveTask, bind_get] at h
  simp only [hrow] at h
  have hidle : ∀ b, (pure false : Txn Bool) db = .ok b db' → (b = true ↔ task.status ≠ task.status)
        ∧ (b = false → db'.tasks.get? t = some task)
        ∧ (db'.tasks.get? t).map (·.status) = some task.status := by
    intro b h
    obtain ⟨rfl, rfl⟩ := pure_ok.mp h
    exact ⟨by simp, fun _ => hrow, by rw [hrow]; rfl⟩
  rw [resolved]
  split_ifs at h ⊢ with hempty hready hpend hfail
  · exact hidle b h
  · simp only [bind_ok, pure_ok] at h
    obtain ⟨_, _, htr, _, _, hsave, rfl, rfl⟩ := h
    obtain ⟨_, rfl, _⟩ := transition_ok htr
    rw [saveTask_ok.mp hsave]
    refine ⟨by simp [hpend], by simp, ?_⟩
    rw [get?_set_self (by rw [transition_tasks htr]; exact hrow)]
    rfl
  · exact hidle b h
  · simp only [bind_ok, pure_ok] at h
    obtain ⟨_, _, htr, _, _, hsave, _, _, hrel, rfl, rfl⟩ := h
    obtain ⟨_, rfl, _⟩ := transition_ok htr
    rw [(releaseQueued_moves hrel).tasks, saveTask_ok.mp hsave]
    refine ⟨?_, by simp, ?_⟩
    · rcases hopen with hs | hs <;> simp [hs]
    · rw [get?_set_self (by rw [transition_tasks htr]; exact hrow)]
      rfl
  · exact hidle b h

/-- The loop: every task of the list is resolved by the rows read before, and no other
    task is touched. -/
theorem resolveTasks_resolves {before : Db} {ids : List Uuid} (hnd : ids.Nodup)
    (hopen : ∀ t ∈ ids, ∃ task, db.tasks.get? t = some task ∧ task.Unresolved)
    (h : resolveTasks now before ids db = .ok changed db') :
    (∀ t ∈ ids, ∀ task, db.tasks.get? t = some task →
      (t ∈ changed ↔ resolved (dependencyRows before t) task.status ≠ task.status)
        ∧ (t ∉ changed → db'.tasks.get? t = some task)
        ∧ (db'.tasks.get? t).map (·.status)
          = some (resolved (dependencyRows before t) task.status))
      ∧ ∀ t ∉ ids, t ∉ changed ∧ db'.tasks.get? t = db.tasks.get? t := by
  induction ids generalizing db changed with
  | nil =>
    obtain ⟨rfl, rfl⟩ := pure_ok.mp h
    exact ⟨by simp, fun _ _ => ⟨by simp, rfl⟩⟩
  | cons first _ ih =>
    obtain ⟨hhead, hr⟩ := nodup_cons.mp hnd
    simp only [resolveTasks, bind_ok, pure_ok] at h
    obtain ⟨b, _, hres, others, _, hoths, hchgd, rfl⟩ := h
    obtain ⟨row, hrow, hunres⟩ := hopen first mem_cons_self
    have hwaits : row.status ∈ waitingStatuses := by
      rcases hunres with hs | hs <;> rw [hs] <;> decide
    have htch := (resolveTask_follows (R := anyRules) hrow hwaits hres).2
    have hfirst := resolveTask_resolves hrow hunres hres
    obtain ⟨hlist, hunlisted⟩ := ih hr (fun u hu => by
      rw [htch u (fun hut => hhead (hut ▸ hu))]
      exact hopen u (mem_cons_of_mem _ hu)) hoths
    -- the first task is reported by its own iteration, every other one by the rest
    have hmem : ∀ u, u ∈ changed ↔ u = first ∧ b = true ∨ u ∈ others := by
      intro u
      rw [← hchgd]
      cases b <;> simp
    refine ⟨?_, ?_⟩
    · intro u hu task htask
      rcases mem_cons.mp hu with rfl | hu
      · obtain rfl := Option.mem_unique hrow htask
        obtain ⟨hnot, hkept⟩ := hunlisted u hhead
        rw [hmem, hkept]
        simp only [hnot, or_false, true_and, Bool.not_eq_true]
        exact hfirst
      · have hne : u ≠ first := fun hut => hhead (hut ▸ hu)
        rw [hmem]
        simp only [hne, false_and, false_or]
        exact hlist u hu task (by rw [htch u hne]; exact htask)
    · intro u hu
      obtain ⟨hne, hu⟩ := not_or.mp (mt mem_cons.mpr hu)
      obtain ⟨hnot, hkept⟩ := hunlisted u hu
      rw [hmem, hkept]
      exact ⟨by simp [hne, hnot], htch u hne⟩

/-- The pending and queued tasks with an edge, which the pass selects from. -/
def dependants (db : Db) : List (Uuid × Task) :=
  db.tasks.select (fun id task => (task.status = .pending ∨ task.status = .queued)
    ∧ ∃ row ∈ db.taskDependencies.rows, row.1.1 = id)

theorem mem_dependants : (t, task) ∈ dependants db ↔ db.tasks.get? t = some task
    ∧ task.Unresolved ∧ ∃ d edge, db.taskDependencies.get? (t, d) = some edge := by
  rw [dependants, mem_select, decide_eq_true_iff]
  refine and_congr_right fun _ => and_congr_right fun _ => ?_
  constructor
  · rintro ⟨⟨⟨_, d⟩, edge⟩, hmem, rfl⟩
    exact ⟨d, edge, mem_rows.mp hmem⟩
  · rintro ⟨d, edge, hedge⟩
    exact ⟨((t, d), edge), mem_rows.mpr hedge, rfl⟩

/-- **A PASS** resolves the tasks it examines. -/
theorem pass_resolves (h : resolveDependencyReadiness now locked limit db = .ok changed db')
    (ht : t ∈ unresolvedTasks db locked limit) (hrow : db.tasks.get? t = some task) :
    (t ∈ changed ↔ resolved (dependencyRows db t) task.status ≠ task.status)
      ∧ (t ∉ changed → db'.tasks.get? t = some task)
      ∧ (db'.tasks.get? t).map (·.status)
        = some (resolved (dependencyRows db t) task.status) := by
  rw [resolveDependencyReadiness, bind_get] at h
  have hopen : ∀ u ∈ unresolvedTasks db locked limit,
      ∃ task, db.tasks.get? u = some task ∧ task.Unresolved := by
    intro u hu
    obtain ⟨task, hmem⟩ := mem_earliest hu
    obtain ⟨hrow, hunres, _⟩ := mem_dependants.mp hmem
    exact ⟨task, hrow, hunres⟩
  exact (resolveTasks_resolves (earliest_nodup (select_keys_nodup _ _) _ _ _) hopen
    h).1 t ht task hrow

/-! ## Passes that change nothing -/

theorem mem_dependencyRows {row : DependencyFailurePolicy × TaskStatus} :
    row ∈ dependencyRows db t ↔ ∃ d edge prerequisite,
      db.taskDependencies.get? (t, d) = some edge ∧ db.tasks.get? d = some prerequisite
        ∧ row = (edge.failurePolicy, prerequisite.status) := by
  rw [dependencyRows, mem_filterMap]
  constructor
  · rintro ⟨⟨⟨u, d⟩, edge⟩, hmem, hrow⟩
    obtain ⟨hedge, hu⟩ := mem_select.mp hmem
    obtain ⟨prerequisite, hd, rfl⟩ := Option.map_eq_some_iff.mp hrow
    obtain rfl := of_decide_eq_true hu
    exact ⟨d, edge, prerequisite, hedge, hd, rfl⟩
  · rintro ⟨d, edge, prerequisite, hedge, hd, rfl⟩
    refine ⟨((t, d), edge), mem_select.mpr ⟨hedge, decide_eq_true rfl⟩, ?_⟩
    exact Option.map_eq_some_iff.mpr ⟨prerequisite, hd, rfl⟩

/-- All edges out of a task with an edge of a group are of the group. -/
def Gathered (edges : Table (Uuid × Uuid) (Option Uuid)) : Prop :=
  ∀ u v w g g', edges.get? (u, v) = some (some g) → edges.get? (u, w) = some g' → g' = some g

/-- One step keeps the edges gathered: a new task has only edges of its own, and a new
    edge of a group has only edges of the group beside it. -/
theorem Gathered.step {R : Rules} {a b : Cluster} (h : Gathered a.edges) (hlife : Lifecycle a)
    (hstep : Step R a b) : Gathered b.edges := by
  cases hstep with
  | submit _ _ _ _ _ hnew =>
    intro u v w g g' huv huw
    rcases get?_insertAll_cases _ _ huv with huv | ⟨_, hmem⟩
    · rcases get?_insertAll_cases _ _ huw with huw | ⟨_, hmem⟩
      · exact h u v w g g' huv huw
      · obtain ⟨_, _, heq⟩ := mem_map.mp hmem
        obtain ⟨rfl, _⟩ := Prod.mk.inj (Prod.mk.inj heq).1
        exact absurd hnew (hlife.ends _ v _ huv).1
    · obtain ⟨_, _, heq⟩ := mem_map.mp hmem
      cases (Prod.mk.inj heq).2
  | link _ _ _ _ hcan =>
    intro u v w g g' huv huw
    rcases get?_insert_cases huv with ⟨hkey, hg⟩ | huv
    · rcases get?_insert_cases huw with ⟨_, hg'⟩ | huw
      · rw [hg', hg]
      · rw [hg]
        exact hcan.grouped u w g' huw (.inl (Prod.mk.inj hkey).1)
    · rcases get?_insert_cases huw with ⟨hkey, hg'⟩ | huw
      · rw [hg']
        exact (hcan.grouped u v _ huv (.inl (Prod.mk.inj hkey).1)).symm
      · exact h u v w g g' huv huw
  | _ => exact h

/-- The task is one of the group: an edge of the group has it at one end. -/
def InGroup (db : Db) (g t : Uuid) : Prop :=
  ∃ u v edge, db.taskDependencies.get? (u, v) = some edge ∧ edge.jobGroupId = some g
    ∧ (u = t ∨ v = t)

/-- In a reachable state every edge out of a task of a group is of the group, and leads
    to a task. -/
theorem group_edge (h : Reach controlPlane anyCall db) (hgroup : InGroup db g t)
    {edge : TaskDependency} (hedge : db.taskDependencies.get? (t, d) = some edge) :
    edge.jobGroupId = some g ∧ db.tasks.get? d ≠ none := by
  obtain ⟨hlife, hgrp, hgathered⟩ := reach_any (I := fun a => Grouped a.edges ∧ Gathered a.edges)
    ⟨Grouped.empty, fun u v w g g' h => by cases h⟩
    (fun a b hlife hboth hstep => ⟨hboth.1.step hlife hstep, hboth.2.step hlife hstep⟩) h
  have hout := get?_map_of_some hedge TaskDependency.jobGroupId
  refine ⟨?_, fun hn => (hlife.ends t d _ hout).2 (get?_map_eq_none.mpr hn)⟩
  obtain ⟨u, v, _, hoth, hg, htch⟩ := hgroup
  have hin := get?_map_of_some hoth TaskDependency.jobGroupId
  rw [hg] at hin
  rcases htch with rfl | rfl
  · exact hgathered u v d g _ hin hout
  · exact hgrp.chained u v d g _ hin hout

/-- A lookup that finds every item. -/
theorem mapM_of_found {α β : Type} (f : α → Option β) {items : List α}
    (h : ∀ x ∈ items, f x ≠ none) : items.mapM f = some (items.filterMap f) := by
  induction items with
  | nil => rfl
  | cons x _ ih =>
    obtain ⟨y, hy⟩ := Option.ne_none_iff_exists'.mp (h x mem_cons_self)
    rw [mapM_cons, hy, ih (fun z hz => h z (mem_cons_of_mem x hz)),
      filterMap_cons_some hy]
    rfl

/-- What the view says, from the rows the engine reads. -/
def viewed (rows : List (DependencyFailurePolicy × TaskStatus)) : DependencyState :=
  if ∃ row ∈ rows, Unsuccessful row.2 ∧ row.1 = .cancel then .cancelled
  else if ∃ row ∈ rows, Unsuccessful row.2 then .blocked
  else if ∃ row ∈ rows, row.2 ∉ finalTaskStatuses then .waiting
  else .ready

/-- The view of a task of a group is decided by the rows the engine reads. -/
theorem groupTaskView_viewed (h : Reach controlPlane anyCall db) (hgroup : InGroup db g t)
    (hrow : db.tasks.get? t = some task) :
    ∃ view, groupTaskView db g t = some view ∧ view.state = viewed (dependencyRows db t) := by
  -- the edges of the group out of the task are all edges out of the task
  have hinc : (db.taskDependencies.select (fun _ edge => edge.jobGroupId = some g)).filter
      (·.1.1 = t) = db.taskDependencies.select (fun key _ => key.1 = t) := by
    rw [Table.select, Table.select, filter_filter]
    refine filter_congr ?_
    rintro ⟨⟨u, _⟩, _⟩ hmem
    by_cases hu : u = t
    · subst hu
      simp [(group_edge h hgroup (mem_rows.mp hmem)).1]
    · simp [hu]
  -- and each of them leads to a task
  have hf := mapM_of_found (fun edge : (Uuid × Uuid) × TaskDependency =>
      ((db.tasks.get? edge.1.2).map (·.status)).map (fun status => (edge, status)))
    (fun edge (hmem : edge ∈ db.taskDependencies.select (fun key _ => key.1 = t)) hn => by
      obtain ⟨⟨_, _⟩, _⟩ := edge
      obtain ⟨hedge, hu⟩ := mem_select.mp hmem
      obtain rfl := of_decide_eq_true hu
      rw [Option.map_eq_none_iff, Option.map_eq_none_iff] at hn
      exact (group_edge h hgroup hedge).2 hn)
  rw [groupTaskView, Dag.resolveTask]
  simp only [hinc, hf, hrow, Option.map_some, Option.bind_eq_bind, Option.bind_some]
  refine ⟨_, rfl, ?_⟩
  have hrows : dependencyRows db t = ((db.taskDependencies.select
      (fun key _ => key.1 = t)).filterMap (fun edge =>
        ((db.tasks.get? edge.1.2).map (·.status)).map
          (fun status => (edge, status)))).map
      (fun row => (row.1.2.failurePolicy, row.2)) := by
    rw [dependencyRows, map_filterMap]
    simp only [Option.map_map]
    rfl
  rw [viewed, hrows]
  generalize List.filterMap _ _ = found
  simp only [mem_filter, mem_map, exists_exists_and_eq_and, decide_eq_true_eq, ne_eq,
    filter_eq_nil_iff, not_forall, not_not, exists_prop, and_assoc]

/-- The two case analyses treat every mix of rows alike. -/
theorem viewed_resolved (hne : rows ≠ []) (hopen : status = .pending ∨ status = .queued) :
    (viewed rows = .cancelled ↔ resolved rows status = .cancelled)
      ∧ (status = .pending → (viewed rows = .ready ↔ resolved rows status = .queued))
      ∧ ((viewed rows = .waiting ∨ viewed rows = .blocked) ↔
        resolved rows status = status ∧ ¬ ∀ row ∈ rows, row.2 = .succeeded) := by
  by_cases hready : ∀ row ∈ rows, row.2 = .succeeded
  · have hview : viewed rows = .ready := by
      rw [viewed, if_neg, if_neg, if_neg]
      · rintro ⟨row, hrow, hnot⟩
        rw [hready row hrow] at hnot
        exact hnot (by decide)
      · rintro ⟨row, hrow, hfail⟩
        exact hfail.2 (hready row hrow)
      · rintro ⟨row, hrow, hfail, _⟩
        exact hfail.2 (hready row hrow)
    rw [hview, resolved, if_neg hne, if_pos hready]
    rcases hopen with rfl | rfl
    · simp
    · simpa [-Prod.forall, -not_forall] using hready
  by_cases hcncl : ∃ row ∈ rows, Unsuccessful row.2 ∧ row.1 = .cancel
  · rw [viewed, if_pos hcncl, resolved, if_neg hne, if_neg hready, if_pos hcncl]
    rcases hopen with rfl | rfl
    · simp
    · simp
  · have hview : viewed rows = .waiting ∨ viewed rows = .blocked := by
      rw [viewed, if_neg hcncl]
      split_ifs with hfail hwaiting
      · exact .inr rfl
      · exact .inl rfl
      -- a row that has neither ended nor failed has succeeded
      · refine absurd (fun row hrow => ?_) hready
        by_contra hnot
        by_cases hfin : row.2 ∈ finalTaskStatuses
        · exact hfail ⟨row, hrow, hfin, hnot⟩
        · exact hwaiting ⟨row, hrow, hfin⟩
    rw [resolved, if_neg hne, if_neg hready, if_neg hcncl]
    rcases hview with hview | hview <;> rcases hopen with rfl | rfl <;> simp [hview, hready,
      -Prod.forall, -not_forall]

/-- **VIEW AND ENGINE**: in a reachable state the view of a waiting task of a group says
    what a pass that examines the task does with it. -/
theorem group_view_agrees (db : Db) (h : Reach controlPlane anyCall db) (g t : Uuid)
    (task : Task) (hrow : db.tasks.get? t = some task)
    (hopen : task.status = .pending ∨ task.status = .queued) (hgroup : InGroup db g t)
    (hdepends : ∃ d edge, db.taskDependencies.get? (t, d) = some edge) :
    ∃ view, groupTaskView db g t = some view ∧ ∀ now locked limit changed db',
      resolveDependencyReadiness now locked limit db = .ok changed db' →
      t ∈ unresolvedTasks db locked limit →
      (view.state = .cancelled ↔
        (db'.tasks.get? t).map (fun row => row.status) = some .cancelled)
      ∧ (task.status = .pending → (view.state = .ready ↔
        (db'.tasks.get? t).map (fun row => row.status) = some .queued))
      ∧ ((view.state = .waiting ∨ view.state = .blocked) ↔
        db'.tasks.get? t = some task ∧ UnsatisfiedDependencies db t) := by
  obtain ⟨view, hview, hstate⟩ := groupTaskView_viewed h hgroup hrow
  refine ⟨view, hview, ?_⟩
  intro _ _ _ _ db' hpass ht
  obtain ⟨hchgd, hkept, hst⟩ := pass_resolves hpass ht hrow
  obtain ⟨d, edge, hedge⟩ := hdepends
  obtain ⟨prerequisite, hd⟩ := Option.ne_none_iff_exists'.mp (group_edge h hgroup hedge).2
  have hne : dependencyRows db t ≠ [] :=
    ne_nil_of_mem (mem_dependencyRows.mpr ⟨d, edge, prerequisite, hedge, hd, rfl⟩)
  have hunsatisfied : UnsatisfiedDependencies db t ↔
      ¬ ∀ row ∈ dependencyRows db t, row.2 = .succeeded := by
    simp [UnsatisfiedDependencies]
  have hsame : db'.tasks.get? t = some task ↔
      resolved (dependencyRows db t) task.status = task.status := by
    constructor
    · intro hkeep
      rw [hkeep] at hst
      exact (Option.some.inj hst).symm
    · exact fun heq => hkept (fun hmem => hchgd.mp hmem heq)
  obtain ⟨hcncd, hready, hstuck⟩ := viewed_resolved hne hopen
  rw [hstate, hst, hunsatisfied, hsame, Option.some.injEq, Option.some.injEq]
  exact ⟨hcncd, hready, hstuck⟩

/-- Task 2 of the group waits for task 1, which is cancelled. -/
def afterGroupCancel : Db :=
  controlPlane.run (groupedCalls ++ [⟨5, .cancel 1⟩]) freshCloud

/-- The view of task 2 agrees with every pass over it, and says that it is cancelled. -/
theorem group_view_of_cancelled_task :
    ∃ view, groupTaskView afterGroupCancel 70 2 = some view ∧ view.state = .cancelled
      ∧ ∀ now locked limit changed db',
        resolveDependencyReadiness now locked limit afterGroupCancel = .ok changed db' →
        2 ∈ unresolvedTasks afterGroupCancel locked limit →
        (db'.tasks.get? 2).map (fun row => row.status) = some .cancelled := by
  have htask : (afterGroupCancel.tasks.get? 2).map (·.status)
      = some .queued := by decide +kernel
  have hgroup : (afterGroupCancel.taskDependencies.get? (2, 1)).map (·.jobGroupId)
      = some (some 70) := by decide +kernel
  have hst : (groupTaskView afterGroupCancel 70 2).map (·.state)
      = some .cancelled := by decide +kernel
  obtain ⟨task, hrow, hque⟩ := Option.map_eq_some_iff.mp htask
  obtain ⟨edge, hedge, hg⟩ := Option.map_eq_some_iff.mp hgroup
  obtain ⟨view, hview, hagr⟩ := group_view_agrees afterGroupCancel (freshCloud_run _) 70 2
    task hrow (.inr hque) ⟨2, 1, edge, hedge, hg, .inl rfl⟩ ⟨1, edge, hedge⟩
  rw [hview, Option.map_some] at hst
  refine ⟨view, hview, Option.some.inj hst, ?_⟩
  intro now locked limit changed db' hpass ht
  exact (hagr now locked limit changed db' hpass ht).1.mp (Option.some.inj hst)

end MiniAiCloud
