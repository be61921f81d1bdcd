import MiniAiCloud.Candidates
import MiniAiCloud.LifecycleProofs

/-! # When the bounded scan finds the head of the queue

    The head of the whole queue is in the fair lane, whatever the limit, and no
    other task is before it in the keys the last sort has in common with the lanes.
    But that sort has no queue time: among tasks that tie on the rest, it takes the
    least id.  So the scan finds the head exactly where the head has the least id
    among its ties. -/

namespace MiniAiCloud

open OrderedQuery Table

/-! ## The lanes and the policy compute the same -/

/-- The rows as the calls that write them leave them: a queued task has its queue
    time, and no count is negative. -/
structure CandidateRows (db : Db) : Prop where
  queuedAt : ∀ t task, db.tasks.get? t = some task → task.status = .queued →
    task.queuedAt ≠ none
  gpuCount : ∀ w worker, db.workers.get? w = some worker → 0 ≤ worker.gpuCount
  reservedGpus : ∀ p state, db.quotaStates.get? p = some state → 0 ≤ state.reservedGpus

theorem effectivePriority_eq {now : Time} {aging : ℤ} {task : Task} (hque : task.queuedAt ≠ none) :
    effectivePriority now aging task = effectivePriorityExpression now aging task := by
  obtain ⟨queuedAt, hq⟩ := Option.ne_none_iff_exists'.mp hque
  have hwaited : (if 0 < now - queuedAt then now - queuedAt else 0) = max 0 (now - queuedAt) := by
    by_cases hpos : 0 < now - queuedAt
    · rw [if_pos hpos, max_eq_right hpos.le]
    · rw [if_neg hpos, max_eq_left (not_lt.mp hpos)]
  simp only [effectivePriority, effectivePriorityExpression, hq, hwaited]
  by_cases hcap : 100 ≤ task.priority + ⌊max 0 (now - queuedAt) / (aging : ℚ)⌋
  · rw [if_pos hcap, min_eq_left hcap]
  · rw [if_neg hcap, min_eq_right (not_le.mp hcap).le]

theorem ite_le_eq_max (a b : ℚ) : (if b ≤ a then a else b) = max a b := by
  by_cases hba : b ≤ a
  · rw [if_pos hba, max_eq_left hba]
  · rw [if_neg hba, max_eq_right (not_le.mp hba).le]

theorem projectDominantShare_eq {size : ClusterSize} {state : Option ProjectQuotaState}
    (hsize : 0 ≤ size.gpus) (hst : ∀ s ∈ state, 0 ≤ s.reservedGpus) :
    projectDominantShare size state = dominantShareExpression size state := by
  simp only [dominantShareExpression, ite_le_eq_max]
  cases state with
  | none =>
    show (0 : ℚ) = max (max (0 / _) (0 / _)) (if size.gpus ≠ 0 then 0 / _ else _)
    have hgpus : (if size.gpus ≠ 0 then (0 : ℚ) / size.gpus
        else if (0 : ℤ) < 0 then 1 else 0) = 0 := by
      by_cases hzero : size.gpus ≠ 0
      · rw [if_pos hzero, zero_div]
      · rw [if_neg hzero, if_neg (lt_irrefl 0)]
    rw [zero_div, zero_div, max_self]
    exact (max_eq_left hgpus.le).symm
  | some s =>
    have hreserved := hst s rfl
    show max (max _ _) (if size.gpus ≠ 0 then _ else _)
      = max (max _ _) (if size.gpus ≠ 0 then _ else _)
    congr 1
    by_cases hzero : size.gpus ≠ 0
    · have hone : max 1 size.gpus = size.gpus := by omega
      rw [if_pos hzero, if_pos hzero, hone]
      rfl
    · rw [if_neg hzero, if_neg hzero]
      refine if_congr ?_ rfl rfl
      show s.reservedGpus ≠ 0 ↔ 0 < s.reservedGpus
      omega

/-! ## The head of the queue -/

section Head

variable {db : Db} {now : Time} {aging : ℤ} {excluded : List Uuid} {m r : Uuid × Task}

theorem mem_eligible : r ∈ eligible db excluded
    ↔ db.tasks.get? r.1 = some r.2 ∧ CandidateConditions db excluded r.1 r.2 := by
  obtain ⟨_, _⟩ := r
  rw [eligible, mem_select, decide_eq_true_iff]

theorem eligible_unique (hm : m ∈ eligible db excluded) (hr : r ∈ eligible db excluded)
    (hid : m.1 = r.1) : m = r := by
  have hrow := (mem_eligible.mp hm).1
  rw [hid, (mem_eligible.mp hr).1] at hrow
  exact Prod.ext hid (Option.some.inj hrow).symm

theorem fairKey_injective (hm : m ∈ eligible db excluded) (hr : r ∈ eligible db excluded)
    (hkey : fairKey db now aging m = fairKey db now aging r) : m = r := by
  have harr := (Prod.mk.inj (Prod.mk.inj hkey).2).2
  exact eligible_unique hm hr (Prod.mk.inj (Prod.mk.inj harr).2).2

/-- Within a project the share decides nothing. -/
theorem laneKey_lt (hproj : m.2.projectId = r.2.projectId)
    (h : fairKey db now aging m < fairKey db now aging r) :
    laneKey now aging m < laneKey now aging r := by
  rw [fairKey, fairKey, Prod.Lex.toLex_lt_toLex] at h
  rw [laneKey, laneKey, Prod.Lex.toLex_lt_toLex]
  rcases h with hurg | ⟨hurg, hr⟩
  · exact .inl hurg
  · rw [Prod.Lex.toLex_lt_toLex, hproj] at hr
    rcases hr with hshare | ⟨_, harr⟩
    · exact absurd hshare (lt_irrefl _)
    · exact .inr ⟨hurg, harr⟩

/-- The head of the queue is the head of its project. -/
theorem projectRank_head (hleast : Least (fairKey db now aging) (eligible db excluded) m) :
    projectRank now aging (eligible db excluded) m = 1 := by
  have hn : (eligible db excluded).filter (fun other =>
      other.2.projectId = m.2.projectId
        ∧ laneKey now aging other < laneKey now aging m) = [] := by
    rw [List.filter_eq_nil_iff]
    intro other hoth hbef
    obtain ⟨hproj, hlt⟩ := of_decide_eq_true hbef
    by_cases heq : other = m
    · rw [heq] at hlt
      exact lt_irrefl _ hlt
    · exact lt_asymm hlt (laneKey_lt hproj.symm (hleast.lt other hoth heq))
  rw [projectRank, hn]
  rfl

/-- Every lane keeps to the queue. -/
theorem scanned_lanes {limit : ℕ} : r ∈ scanned db now aging limit excluded
      ↔ r ∈ candidateQuery db now aging limit excluded
        ∨ r ∈ priorityCandidateQuery db limit excluded
        ∨ r ∈ projectFairCandidateQuery db now aging limit excluded := by
  have hlane : ∀ x ∈ candidateQuery db now aging limit excluded
      ++ priorityCandidateQuery db limit excluded
      ++ projectFairCandidateQuery db now aging limit excluded,
      x ∈ eligible db excluded := by
    intro x hx
    rcases List.mem_append.mp hx with hx | hx
    · rcases List.mem_append.mp hx with hx | hx
      · exact mem_of_mem_take hx
      · exact mem_of_mem_take hx
    · exact (List.mem_filter.mp (mem_of_mem_take hx)).1
  rw [scanned, mem_distinctBy, List.mem_append, List.mem_append, or_assoc]
  intro a ha b hb hid
  exact eligible_unique (hlane a ha) (hlane b hb) hid

theorem eligible_of_scanned {limit : ℕ} (h : r ∈ scanned db now aging limit excluded) :
    r ∈ eligible db excluded := by
  rcases scanned_lanes.mp h with h | h | h
  · exact mem_of_mem_take h
  · exact mem_of_mem_take h
  · exact (List.mem_filter.mp (mem_of_mem_take h)).1

/-- **THE FAIR LANE** finds the head of the queue, whatever the limit. -/
theorem scanned_head {limit : ℕ} (hlim : 1 ≤ limit)
    (hleast : Least (fairKey db now aging) (eligible db excluded) m) :
    m ∈ scanned db now aging limit excluded := by
  refine scanned_lanes.mpr (.inr (.inr ?_))
  refine Least.mem_take (hleast.subset (fun r hr => (List.mem_filter.mp hr).1) ?_) hlim
  exact List.mem_filter.mpr ⟨hleast.mem, decide_eq_true (projectRank_head hleast)⟩

/-- A limit as large as the queue scans all of it. -/
theorem scanned_all {limit : ℕ} (hlim : (eligible db excluded).length ≤ limit)
    (hr : r ∈ eligible db excluded) : r ∈ scanned db now aging limit excluded :=
  scanned_lanes.mpr (.inl (mem_take_of_length hlim hr))

/-! ## The last sort -/

/-- The tasks tie on what the last sort looks at before the id. -/
structure Ties (db : Db) (now : Time) (aging : ℤ) (a b : Uuid × Task) : Prop where
  unschedulable : a.2.unschedulableReason.isSome = b.2.unschedulableReason.isSome
  priority : effectivePriorityExpression now aging a.2 = effectivePriorityExpression now aging b.2
  share : dominantShareExpression (clusterSize db) (db.quotaStates.get? a.2.projectId)
    = dominantShareExpression (clusterSize db) (db.quotaStates.get? b.2.projectId)
  queueOrder : a.2.queueOrder = b.2.queueOrder

/-- The key of the last sort, in the terms of the lanes. -/
theorem sortKey_eq (hrows : CandidateRows db) (hr : r ∈ eligible db excluded) :
    (schedulerCandidate db now aging r).sortKey
      = toLex (urgency (effectivePriorityExpression now aging r.2) r.2,
        toLex (dominantShareExpression (clusterSize db) (db.quotaStates.get? r.2.projectId),
          toLex (r.2.queueOrder, r.1))) := by
  obtain ⟨hrow, hque, _⟩ := mem_eligible.mp hr
  have hprio : effectivePriority now aging r.2 = effectivePriorityExpression now aging r.2 :=
    effectivePriority_eq (hrows.queuedAt r.1 r.2 hrow hque)
  have hgpus : 0 ≤ (clusterSize db).gpus := by
    show 0 ≤ db.workers.sum (fun _ worker =>
      if worker.status = .online then worker.gpuCount else 0)
    refine sum_nonneg ?_
    intro w worker hw
    by_cases honl : worker.status = .online
    · rw [if_pos honl]
      exact hrows.gpuCount w worker hw
    · rw [if_neg honl]
  have hshare : projectDominantShare (clusterSize db) (db.quotaStates.get? r.2.projectId) = _ :=
    projectDominantShare_eq hgpus (fun s hs => hrows.reservedGpus _ s hs)
  show toLex (urgency (effectivePriority now aging r.2) r.2,
    toLex (projectDominantShare (clusterSize db) (db.quotaStates.get? r.2.projectId), _)) = _
  rw [hprio, hshare]
  rfl

/-- The head of the queue is first in the last sort where it has the least id among
    the scanned tasks it ties with. -/
theorem sorted_head_iff (hrows : CandidateRows db)
    (hleast : Least (fairKey db now aging) (eligible db excluded) m)
    {rows : List (Uuid × Task)} (hsub : ∀ r ∈ rows, r ∈ eligible db excluded)
    (hm : m ∈ rows) :
    (orderBy SchedulerCandidate.sortKey (rows.map (schedulerCandidate db now aging))).head?
        = some (schedulerCandidate db now aging m)
      ↔ ∀ r ∈ rows, Ties db now aging m r → m.1 ≤ r.1 := by
  constructor
  · intro hhead r hr hties
    have hle := le_of_head? hhead (List.mem_map_of_mem hr)
    rw [sortKey_eq hrows hleast.mem, sortKey_eq hrows (hsub r hr), urgency, urgency,
      hties.unschedulable, hties.priority, hties.share, hties.queueOrder,
      Prod.Lex.toLex_le_toLex, Prod.Lex.toLex_le_toLex, Prod.Lex.toLex_le_toLex] at hle
    rcases hle with hlt | ⟨_, hlt | ⟨_, hlt | ⟨_, hid⟩⟩⟩
    · exact absurd hlt (lt_irrefl _)
    · exact absurd hlt (lt_irrefl _)
    · exact absurd hlt (lt_irrefl _)
    · exact hid
  · intro hties
    refine head?_orderBy ⟨List.mem_map_of_mem hm, ?_⟩
    intro _ hcand hoth
    obtain ⟨r, hr, rfl⟩ := List.mem_map.mp hcand
    have hrm : r ≠ m := fun heq => hoth (congrArg _ heq)
    have hlt := hleast.lt r (hsub r hr) hrm
    rw [sortKey_eq hrows hleast.mem, sortKey_eq hrows (hsub r hr), Prod.Lex.toLex_lt_toLex,
      Prod.Lex.toLex_lt_toLex, Prod.Lex.toLex_lt_toLex]
    rw [fairKey, fairKey, Prod.Lex.toLex_lt_toLex, Prod.Lex.toLex_lt_toLex, arrival, arrival,
      Prod.Lex.toLex_lt_toLex] at hlt
    rcases hlt with hurg | ⟨hurg, hshare | ⟨hshare, horder | ⟨horder, _⟩⟩⟩
    · exact .inl hurg
    · exact .inr ⟨hurg, .inl hshare⟩
    · exact .inr ⟨hurg, .inr ⟨hshare, .inl horder⟩⟩
    · -- a tie: the id decides
      obtain ⟨hflag, hprio⟩ := Prod.mk.inj hurg
      have hid := hties r hr ⟨hflag, neg_injective hprio, hshare, horder⟩
      have hne : m.1 ≠ r.1 := fun heq => hrm (eligible_unique hleast.mem (hsub r hr) heq).symm
      exact .inr ⟨hurg, .inr ⟨hshare, .inr ⟨horder, lt_of_le_of_ne hid hne⟩⟩⟩

end Head

/-! ## The first candidate -/

/-- The first candidate `choose_candidates` returns. -/
def firstCandidate (db : Db) (now : Time) (aging limit : ℤ) (excluded : List Uuid) :
    Except Err (Option SchedulerCandidate) :=
  (chooseCandidates db now aging limit excluded).map List.head?

theorem chooseCandidates_ok {db : Db} {now : Time} {aging limit : ℤ} {excluded : List Uuid}
    (haging : 1 ≤ aging) (hlim : 1 ≤ limit) :
    chooseCandidates db now aging limit excluded
      = .ok (orderBy SchedulerCandidate.sortKey
        ((scanned db now aging limit.toNat excluded).map (schedulerCandidate db now aging))) := by
  rw [chooseCandidates, if_neg (not_lt.mpr hlim), if_neg (not_lt.mpr haging)]

/-- **THE BOUNDED SCAN** finds the head of the queue for every limit exactly where the
    head has the least id among the tasks it ties with. -/
theorem bounded_scan_finds_head_iff (db : Db) (hrows : CandidateRows db) (now : Time)
    (aging : ℤ) (haging : 1 ≤ aging) (excluded : List Uuid) :
    (eligible db excluded = [] →
        ∀ limit, 1 ≤ limit → chooseCandidates db now aging limit excluded = .ok [])
      ∧ (eligible db excluded ≠ [] → ∃ m, Least (fairKey db now aging) (eligible db excluded) m
          ∧ ((∀ limit, 1 ≤ limit → firstCandidate db now aging limit excluded
                = .ok (some (schedulerCandidate db now aging m)))
            ↔ ∀ r ∈ eligible db excluded, Ties db now aging m r → m.1 ≤ r.1)) := by
  have hfirst : ∀ {limit : ℤ}, 1 ≤ limit → ∀ m, firstCandidate db now aging limit excluded
        = .ok (some (schedulerCandidate db now aging m))
      ↔ (orderBy SchedulerCandidate.sortKey ((scanned db now aging limit.toNat excluded).map
          (schedulerCandidate db now aging))).head?
        = some (schedulerCandidate db now aging m) := by
    intro _ hlim _
    rw [firstCandidate, chooseCandidates_ok haging hlim]
    exact ⟨fun h => Except.ok.inj h, congrArg Except.ok⟩
  refine ⟨?_, ?_⟩
  · intro hempty limit hlim
    have hn : scanned db now aging limit.toNat excluded = [] := by
      refine List.eq_nil_iff_forall_not_mem.mpr ?_
      intro r hr
      have hmem := eligible_of_scanned hr
      rw [hempty] at hmem
      exact List.not_mem_nil hmem
    rw [chooseCandidates_ok haging hlim, hn]
    rfl
  · intro hsome
    have hinj : ∀ a ∈ eligible db excluded, ∀ b ∈ eligible db excluded,
        fairKey db now aging a = fairKey db now aging b → a = b :=
      fun a ha b hb => fairKey_injective ha hb
    obtain ⟨m, hleast⟩ := exists_least hsome hinj
    refine ⟨m, hleast, ?_⟩
    constructor
    · -- a limit that scans the whole queue compares the head with all its ties
      intro hall r hr
      have hlim : (1 : ℤ) ≤ ((eligible db excluded).length + 1 : ℕ) := by omega
      have hhead := (hfirst hlim m).mp (hall _ hlim)
      rw [Int.toNat_natCast] at hhead
      exact (sorted_head_iff hrows hleast (fun r => eligible_of_scanned)
        (scanned_head (Nat.le_add_left 1 _) hleast)).mp hhead r (scanned_all (Nat.le_succ _) hr)
    · intro hties _ hlim
      refine (hfirst hlim m).mpr ((sorted_head_iff hrows hleast
        (fun r => eligible_of_scanned) (scanned_head (by omega) hleast)).mpr ?_)
      exact fun r hr => hties r (eligible_of_scanned hr)

/-- Two tasks of a project are queued one after the other. -/
def queuedCloud (first second : Uuid) : Db :=
  controlPlane.run [⟨1, .createQueued first (halfCoreTask [])⟩,
    ⟨2, .createQueued second (halfCoreTask [])⟩] freshCloud

/-- Where the ids follow the queue, the first task is found under every limit. -/
theorem bounded_scan_finds_head_in_order : ∃ task,
    (queuedCloud 1 2).tasks.get? 1 = some task ∧ task.queuedAt = some 1
      ∧ ∀ limit, 1 ≤ limit → firstCandidate (queuedCloud 1 2) 3 60 limit []
        = .ok (some (schedulerCandidate (queuedCloud 1 2) 3 60 (1, task))) := by
  have hrows : CandidateRows (queuedCloud 1 2) := by
    have htasks : ∀ row ∈ (queuedCloud 1 2).tasks.rows, row.2.queuedAt ≠ none := by
      decide +kernel
    have hwks : (queuedCloud 1 2).workers.rows = [] := by decide +kernel
    have hsts : ∀ row ∈ (queuedCloud 1 2).quotaStates.rows, 0 ≤ row.2.reservedGpus := by
      decide +kernel
    refine ⟨?_, ?_, ?_⟩
    · exact fun t task hrow _ => htasks (t, task) (mem_rows.mpr hrow)
    · intro _ _ hw
      have hmem := mem_rows.mpr hw
      rw [hwks] at hmem
      exact absurd hmem List.not_mem_nil
    · exact fun p state hst => hsts (p, state) (mem_rows.mpr hst)
  have hids : (eligible (queuedCloud 1 2) []).map Prod.fst = [1, 2] := by decide +kernel
  have hord : (orderBy (fairKey (queuedCloud 1 2) 3 60)
      (eligible (queuedCloud 1 2) [])).head?.map Prod.fst = some 1 := by decide +kernel
  have hque : ((queuedCloud 1 2).tasks.get? 1).map (·.queuedAt)
      = some (some 1) := by decide +kernel
  have hsome : eligible (queuedCloud 1 2) [] ≠ [] := by
    intro hnil
    rw [hnil] at hids
    cases hids
  obtain ⟨⟨t, task⟩, hleast, hiff⟩ := (bounded_scan_finds_head_iff (queuedCloud 1 2) hrows 3
    60 (by decide) []).2 hsome
  obtain rfl : t = 1 := by
    rw [head?_orderBy hleast] at hord
    exact Option.some.inj hord
  have hrow := (mem_eligible.mp hleast.mem).1
  rw [hrow] at hque
  refine ⟨task, hrow, Option.some.inj hque, hiff.mpr ?_⟩
  intro r hr _
  have hid : r.1 ∈ [1, 2] := by
    rw [← hids]
    exact List.mem_map_of_mem hr
  rcases List.mem_cons.mp hid with hone | htwo
  · exact hone.ge
  · rw [List.mem_singleton.mp htwo]
    exact Nat.le_succ 1

/-- **THE QUEUE IS JUMPED**: task 2 was queued first and is the head of the queue.  It is
    found where one row of each lane is scanned, and task 1 where two are. -/
theorem later_task_jumps_queue :
    ((queuedCloud 2 1).tasks.get? 2).map (fun task => task.queuedAt) = some (some 1)
      ∧ ((queuedCloud 2 1).tasks.get? 1).map (fun task => task.queuedAt) = some (some 2)
      ∧ (orderBy (fairKey (queuedCloud 2 1) 3 60) (eligible (queuedCloud 2 1) [])).map
        Prod.fst = [2, 1]
      ∧ (chooseCandidates (queuedCloud 2 1) 3 60 1 []).map
        (List.map SchedulerCandidate.taskId) = .ok [2]
      ∧ (chooseCandidates (queuedCloud 2 1) 3 60 2 []).map
        (List.map SchedulerCandidate.taskId) = .ok [1, 2] := by
  refine ⟨?_, ?_, ?_, ?_, ?_⟩
  · decide +kernel
  · decide +kernel
  · decide +kernel
  · decide +kernel
  · decide +kernel

end MiniAiCloud
