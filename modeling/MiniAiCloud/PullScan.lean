import MiniAiCloud.Candidates
import MiniAiCloud.LifecycleProofs

/-! # The rotating pull scan

    A worker that pulls reads the queue in pages and remembers for the next poll where
    it stopped.  A poll ends at the first page with a task the worker can run, wraps at
    most once and gives up after twenty pages; every such poll still brings a task of
    the queue one page closer (`turns`), so it is tried after at most one round.

    That needs every candidate of a page to be tried.  A rejected claim is passed over,
    but a claim that the quota of the project refuses ends the whole call
    (`exhausted_project_starves`). -/

namespace MiniAiCloud

open OrderedQuery Option List

/-! ## One call -/

/-- The settings of a `Scheduler` that a pull reads. -/
structure PullSettings where
  leaseSeconds : ℚ
  fallbackLimit : ℕ
  workerSessionId : Option Uuid
  prices : Prices

/-- The rows the page query selects from, in its order. -/
def pullQueue (db : Db) (worker : Worker) : List (Uuid × Task) :=
  orderBy (fun row => (toLex (match row.2.queuedAt with
      | none => ⊤
      | some queuedAt => (queuedAt : WithTop ℚ), row.1) : WithTop ℚ ×ₗ Uuid))
    (db.tasks.select fun taskId task => task.status = .queued ∧ task.cancelRequested = false
      ∧ task.cpuLimit ≤ max 0 (worker.cpuAllocatableMillicores / 1000 - worker.reservedCpu)
      ∧ task.memoryLimitMb ≤ max 0 (worker.memoryAllocatableMb - worker.reservedMemoryMb)
      ∧ task.gpuCount ≤ max 0 (worker.gpuCount - worker.reservedGpus)
      ∧ ¬ UnsatisfiedDependencies db taskId)

/-- The part of `list_queued_candidates_for_worker` after the query. -/
def runnablePage (worker : Worker) (queue : List (Uuid × Task)) (limit offset : ℕ) :
    List Uuid × ℕ :=
  let page := (queue.drop offset).take limit
  ((page.filter fun row => WorkerCanRunTask worker row.2).map Prod.fst, page.length)

/-- The loop of `_queued_candidate_ids` with so many pages left: the candidates and the
    offset to remember. -/
def scanPages (page : ℕ → List Uuid × ℕ) (limit : ℕ) : ℕ → ℕ → Bool → List Uuid × ℕ
  | 0, offset, _ => ([], offset)
  | pages + 1, offset, wrapped =>
    if (page offset).2 = 0 then
      if 0 < offset ∧ wrapped = false then scanPages page limit pages 0 true
      else ([], 0)
    else if (page offset).1 ≠ [] then ((page offset).1, offset + (page offset).2)
    else if (page offset).2 < limit then ([], 0)
    else scanPages page limit pages (offset + (page offset).2) wrapped

/-- `worker_accepts_new_tasks` and the check of the session. -/
def acceptingWorker (settings : PullSettings) (db : Db) (workerId : WorkerId) :
    Option Worker :=
  (db.workers.get? workerId).filter fun worker => worker.status = .online
    ∧ worker.runningTasks < worker.concurrency
    ∧ ∀ session ∈ settings.workerSessionId, worker.workerSessionId = session

/-- `_queued_candidate_ids`. -/
def queuedCandidateIds (settings : PullSettings) (workerId : WorkerId) (db : Db)
    (offset : ℕ) : List Uuid × ℕ :=
  match acceptingWorker settings db workerId with
  | none => ([], offset)
  | some worker => scanPages (runnablePage worker (pullQueue db worker) settings.fallbackLimit)
      settings.fallbackLimit 20 offset false

/-- `_ClaimAttempt`, or the exception that leaves `_try_claim`. -/
inductive ClaimAttempt where
  | assigned (executionId : Uuid)
  | rejected
  | workerUnavailable
  | raised (e : Err)

def ClaimAttempt.assignment : ClaimAttempt → Option Uuid
  | .assigned executionId => some executionId
  | _ => none

/-- What an attempt meets: its own transaction, the minted key, the locked devices. -/
structure ClaimMoment where
  db : Db
  now : Time
  executionId : Uuid
  locked : List Uuid

/-- `_try_claim`; the filter is the checks of `evaluate` that follow those of the worker. -/
def tryClaim (settings : PullSettings) (workerId : WorkerId) (moment : ClaimMoment)
    (taskId : Uuid) : ClaimAttempt :=
  match acceptingWorker settings moment.db workerId with
  | none => .workerUnavailable
  | some worker =>
    match (queuedTask moment.db taskId).filter fun task =>
        worker.reservedCpu + task.cpuLimit ≤ worker.cpuCount
        ∧ worker.reservedMemoryMb + task.memoryLimitMb ≤ worker.memoryTotalMb
        ∧ worker.reservedGpus + task.gpuCount ≤ worker.gpuCount
        ∧ LabelsMatch task.labels worker.labels with
    | none => .rejected
    | some _ =>
      match claim moment.now taskId workerId moment.executionId settings.leaseSeconds
          settings.workerSessionId settings.prices moment.locked moment.db with
      | .ok _ _ => .assigned moment.executionId
      | .error (.claimRejected _) _ => .rejected
      | .error e _ => .raised e

/-- A call of `claim_for_worker`: what it handed to `_try_claim`, the attempt it ended
    with unless it ran out of candidates, and the offset it leaves. -/
structure PullCall where
  handed : List Uuid
  ending : Option ClaimAttempt
  offset : ℕ

/-- What the call returns. -/
def PullCall.assignment (call : PullCall) : Option Uuid :=
  call.ending.bind ClaimAttempt.assignment

/-- The loop over the candidates. -/
def tryEach (attempt : Uuid → ClaimAttempt) : List Uuid → List Uuid × Option ClaimAttempt
  | [] => ([], none)
  | taskId :: rest =>
    match attempt taskId with
    | .rejected => (taskId :: (tryEach attempt rest).1, (tryEach attempt rest).2)
    | ending => ([taskId], some ending)

/-- What a call meets. -/
structure Poll where
  db : Db
  moment : Uuid → ClaimMoment

/-- `claim_for_worker` in pull mode, without a message. -/
def claimForWorker (settings : PullSettings) (workerId : WorkerId) (poll : Poll)
    (offset : ℕ) : PullCall :=
  let scan := queuedCandidateIds settings workerId poll.db offset
  let tried := tryEach (fun t => tryClaim settings workerId (poll.moment t) t) scan.1
  ⟨tried.1, tried.2, scan.2⟩

/-- Consecutive calls, the first one from an offset that earlier calls left. -/
def pullCall (settings : PullSettings) (workerId : WorkerId) (polls : ℕ → Poll)
    (start : ℕ) : ℕ → PullCall
  | 0 => claimForWorker settings workerId (polls 0) start
  | k + 1 => claimForWorker settings workerId (polls (k + 1))
      (pullCall settings workerId polls start k).offset

/-! ## The rotation -/

/-- How many pages, and so calls at most, until the page with the `i`-th of `n` tasks. -/
def turns (n limit i offset : ℕ) : ℕ :=
  if n ≤ offset then i / limit + 1
  else if offset ≤ i then (i - offset) / limit + 1
  else (n - offset + limit - 1) / limit + i / limit + 1

section Rotation

variable {n limit i offset : ℕ} {worker : Worker} {queue : List (Uuid × Task)}
  {row : Uuid × Task}

theorem turns_pos : 0 < turns n limit i offset := by
  rw [turns]
  split_ifs <;> exact Nat.succ_pos _

theorem turns_le (hi : i < n) : turns n limit i offset ≤ (n + limit - 1) / limit + 1 := by
  have hwhole : i / limit ≤ (n + limit - 1) / limit := Nat.div_le_div_right (by omega)
  rw [turns]
  split_ifs with hend hbef
  · omega
  · have hpart : (i - offset) / limit ≤ i / limit := Nat.div_le_div_right (by omega)
    omega
  · -- what is left of this round and the start of the next make one round
    have hsum : (n - offset + limit - 1) / limit + i / limit ≤ _ := Nat.div_add_div_le_add_div
    have hround : (n - offset + limit - 1 + i) / limit ≤ (n + limit - 1) / limit :=
      Nat.div_le_div_right (by omega)
    omega

/-- Starting over costs nothing at the end, and less than what is left before it. -/
theorem turns_zero_le (hi : i < n) (hfar : n ≤ offset ∨ i < offset) :
    turns n limit i 0 ≤ turns n limit i offset := by
  rw [turns, turns, if_neg (by omega), if_pos (Nat.zero_le i), Nat.sub_zero]
  split_ifs
  · exact le_rfl
  · omega
  · exact Nat.succ_le_succ (Nat.le_add_left _ _)

/-- A page without the task brings it closer. -/
theorem turns_page (hlim : 0 < limit) (hi : i < n) (ho : offset < n)
    (hmiss : ¬ (offset ≤ i ∧ i < offset + limit)) :
    turns n limit i (offset + min limit (n - offset)) < turns n limit i offset := by
  rw [turns, turns, if_neg (Nat.not_le.mpr ho)]
  by_cases hbef : offset ≤ i
  · have hfull : min limit (n - offset) = limit := by omega
    have hstep : (i - offset) / limit = (i - (offset + limit)) / limit + 1 := by
      rw [← Nat.add_div_right _ hlim]
      congr 1
      omega
    rw [hfull, if_neg (by omega), if_pos (by omega), if_pos hbef]
    omega
  · have hstep : (n - offset + limit - 1) / limit = (n - offset - 1) / limit + 1 := by
      rw [← Nat.add_div_right _ hlim]
      congr 1
      omega
    rw [if_neg hbef, hstep]
    by_cases hlast : n ≤ offset + min limit (n - offset)
    · rw [if_pos hlast]
      exact Nat.succ_lt_succ (Nat.lt_add_of_pos_left (Nat.succ_pos _))
    · have hfull : min limit (n - offset) = limit := by omega
      rw [if_neg hlast, if_neg (by omega), hfull,
        show n - (offset + limit) + limit - 1 = n - offset - 1 by omega]
      omega

theorem runnablePage_size (worker : Worker) (queue : List (Uuid × Task)) (limit offset : ℕ) :
    (runnablePage worker queue limit offset).2 = min limit (queue.length - offset) := by
  rw [runnablePage, length_take, length_drop]

/-- The page around a task the worker can run lists it. -/
theorem mem_runnablePage (hrow : queue[i]? = some row) (hruns : WorkerCanRunTask worker row.2)
    (hhit : offset ≤ i ∧ i < offset + limit) :
    row.1 ∈ (runnablePage worker queue limit offset).1 := by
  refine mem_map.mpr ⟨row, mem_filter.mpr ⟨?_, decide_eq_true hruns⟩, rfl⟩
  refine mem_of_getElem? (i := i - offset) ?_
  rw [getElem?_take_of_lt (by omega), getElem?_drop, Nat.add_sub_cancel' hhit.1]
  exact hrow

/-- **THE SCAN** returns the page with the task or does not move away from it; once it has
    read one page it has come closer. -/
theorem scanPages_turns (hlim : 0 < limit) (hrow : queue[i]? = some row)
    (hruns : WorkerCanRunTask worker row.2) (pages : ℕ) (offset : ℕ) (wrapped : Bool) :
    let scan := scanPages (runnablePage worker queue limit) limit pages offset wrapped
    row.1 ∈ scan.1 ∨ turns queue.length limit i scan.2 ≤ turns queue.length limit i offset
      ∧ (0 < pages ∧ offset < queue.length ∨ 1 < pages ∧ wrapped = false →
        turns queue.length limit i scan.2 < turns queue.length limit i offset) := by
  have hi : i < queue.length := (List.getElem?_eq_some_iff.mp hrow).1
  induction pages generalizing offset wrapped with
  | zero => exact .inr ⟨le_rfl, by omega⟩
  | succ _ ih =>
    rw [scanPages, runnablePage_size]
    by_cases hend : queue.length ≤ offset
    · rw [if_pos (by omega)]
      have hback : turns queue.length limit i 0 ≤ _ := turns_zero_le hi (.inl hend)
      split_ifs with hwrap
      · refine (ih 0 true).imp_right fun ⟨hle, hlt⟩ => ⟨hle.trans hback, fun hpages => ?_⟩
        exact (hlt (.inl ⟨by omega, by omega⟩)).trans_le hback
      · refine .inr ⟨hback, fun hpages => absurd hwrap ?_⟩
        rw [not_not]
        exact ⟨by omega, (hpages.resolve_left (by omega)).2⟩
    rw [if_neg (by omega)]
    by_cases hhit : offset ≤ i ∧ i < offset + limit
    · have hmem := mem_runnablePage hrow hruns hhit
      rw [if_pos (ne_nil_of_mem hmem)]
      exact .inl hmem
    have hclo := turns_page hlim hi (Nat.not_le.mp hend) hhit
    split_ifs with hf hshort
    · exact .inr ⟨hclo.le, fun _ => hclo⟩
    · have hlast : offset + min limit (queue.length - offset) = queue.length := by omega
      rw [hlast] at hclo
      have hback : turns queue.length limit i 0 ≤ _ := turns_zero_le hi (.inl le_rfl)
      exact .inr ⟨(hback.trans_lt hclo).le, fun _ => hback.trans_lt hclo⟩
    · refine (ih _ wrapped).imp_right fun ⟨hle, _⟩ => ?_
      exact ⟨(hle.trans_lt hclo).le, fun _ => hle.trans_lt hclo⟩

/-- The candidates stand on a page. -/
theorem mem_scanPages {page : ℕ → List Uuid × ℕ} {t : Uuid} (pages : ℕ) (offset : ℕ)
    (wrapped : Bool) (h : t ∈ (scanPages page limit pages offset wrapped).1) :
    ∃ o, t ∈ (page o).1 := by
  induction pages generalizing offset wrapped with
  | zero => cases h
  | succ _ ih =>
    rw [scanPages] at h
    split_ifs at h
    · exact ih 0 true h
    · cases h
    · exact ⟨offset, h⟩
    · cases h
    · exact ih _ wrapped h

end Rotation

/-! ## The calls -/

/-- Where no attempt ends the call early, one is assigned or all candidates are tried. -/
theorem tryEach_cases {attempt : Uuid → ClaimAttempt} {ids : List Uuid}
    (hopen : ∀ t ∈ ids, attempt t = .rejected ∨ (attempt t).assignment ≠ none) :
    (tryEach attempt ids).2.bind ClaimAttempt.assignment ≠ none
      ∨ (tryEach attempt ids).1 = ids ∧ ∀ t ∈ ids, (attempt t).assignment = none := by
  induction ids with
  | nil => exact .inr ⟨rfl, fun _ h => (nomatch h)⟩
  | cons t _ ih =>
    obtain ⟨hfirst, hr⟩ := forall_mem_cons.mp hopen
    rw [tryEach]
    cases hatt : attempt t with
    | rejected =>
      refine (ih hr).imp_right fun ⟨hall, hn⟩ => ⟨?_, ?_⟩
      · exact congrArg (t :: ·) hall
      · refine forall_mem_cons.mpr ⟨?_, hn⟩
        rw [hatt]
        rfl
    | assigned x => exact .inl (some_ne_none x)
    | workerUnavailable => simp [hatt, ClaimAttempt.assignment] at hfirst
    | raised => simp [hatt, ClaimAttempt.assignment] at hfirst

theorem tryClaim_available {settings : PullSettings} {w : WorkerId} {m : ClaimMoment} {t : Uuid}
    (haccs : acceptingWorker settings m.db w ≠ none)
    (hrss : ∀ e, tryClaim settings w m t ≠ .raised e) :
    tryClaim settings w m t = .rejected ∨ (tryClaim settings w m t).assignment ≠ none := by
  obtain ⟨_, hwk⟩ := ne_none_iff_exists'.mp haccs
  cases htry : tryClaim settings w m t with
  | assigned x => exact .inr (some_ne_none x)
  | rejected => exact .inl rfl
  | raised e => exact absurd htry (hrss e)
  | workerUnavailable =>
    rw [tryClaim, hwk] at htry
    dsimp only at htry
    split at htry
    · cases htry
    · split at htry <;> cases htry

/-- **NO TASK STARVES**: from any offset, over a queue that stays as it is and while the
    worker accepts tasks and no attempt raises, a task the worker can run is tried within
    one more call than the queue has pages; and if its claim would succeed, one of these
    calls returns an assignment. -/
theorem pull_scan_reaches_every_task {settings : PullSettings} {w : WorkerId}
    (polls : ℕ → Poll) (workers : ℕ → Worker) {queue : List (Uuid × Task)}
    {row : Uuid × Task} (start : ℕ) (hlim : 1 ≤ settings.fallbackLimit)
    (hwk : ∀ k, acceptingWorker settings (polls k).db w = some (workers k))
    (hqueue : ∀ k, pullQueue (polls k).db (workers k) = queue)
    (hrow : row ∈ queue) (hruns : ∀ k, WorkerCanRunTask (workers k) row.2)
    (haccepts : ∀ k t, acceptingWorker settings ((polls k).moment t).db w ≠ none)
    (hraises : ∀ k, ∀ t ∈ queue.map Prod.fst, ∀ e,
      tryClaim settings w ((polls k).moment t) t ≠ .raised e) :
    let calls := pullCall settings w polls start
    let last := (queue.length + settings.fallbackLimit - 1) / settings.fallbackLimit
    ((∀ k, (calls k).assignment = none) → ∃ k ≤ last, row.1 ∈ (calls k).handed)
    ∧ ((∀ k, (tryClaim settings w ((polls k).moment row.1) row.1).assignment ≠ none) →
        ∃ k ≤ last, (calls k).assignment ≠ none) := by
  intro calls last
  obtain ⟨i, hi⟩ := getElem?_of_mem hrow
  -- one call: an assignment, the task tried in vain, or one turn less
  have hcall : ∀ k offset, let call := claimForWorker settings w (polls k) offset
      call.assignment ≠ none
      ∨ (row.1 ∈ call.handed
          ∧ (tryClaim settings w ((polls k).moment row.1) row.1).assignment = none)
      ∨ turns queue.length settings.fallbackLimit i call.offset
        < turns queue.length settings.fallbackLimit i offset := by
    intro k offset
    have hscan := scanPages_turns hlim hi (hruns k) 20 offset false
    dsimp only at hscan
    rw [claimForWorker, queuedCandidateIds, hwk]
    dsimp only
    rw [hqueue]
    rcases hscan with hmem | ⟨_, hlt⟩
    · have hlist : ∀ t ∈ (scanPages (runnablePage (workers k) queue settings.fallbackLimit)
          settings.fallbackLimit 20 offset false).1, t ∈ queue.map Prod.fst := by
        intro t ht
        obtain ⟨o, ho⟩ := mem_scanPages 20 offset false ht
        obtain ⟨_, hoth, rfl⟩ := mem_map.mp ho
        have hpage := List.mem_of_mem_take (mem_filter.mp hoth).1
        exact mem_map_of_mem (mem_of_mem_drop hpage)
      rcases tryEach_cases fun t ht =>
        tryClaim_available (haccepts k t) (hraises k t (hlist t ht)) with
        hasg | ⟨hall, hn⟩
      · exact .inl hasg
      · refine .inr (.inl ⟨?_, hn row.1 hmem⟩)
        rw [hall]
        exact hmem
    · exact .inr (.inr (hlt (.inr ⟨by decide, rfl⟩)))
  have hreached : ∃ k ≤ last, (calls k).assignment ≠ none
      ∨ (row.1 ∈ (calls k).handed
          ∧ (tryClaim settings w ((polls k).moment row.1) row.1).assignment = none) := by
    by_contra hnever
    have hnever' := fun k hk h => hnever ⟨k, hk, h⟩
    -- otherwise the turns run out
    have hleft : ∀ k ≤ last, turns queue.length settings.fallbackLimit i (calls k).offset + k
        < turns queue.length settings.fallbackLimit i start := by
      intro k hk
      induction k with
      | zero =>
        rcases hcall 0 start with h | h | h
        · exact absurd (.inl h) (hnever' 0 hk)
        · exact absurd (.inr h) (hnever' 0 hk)
        · exact h
      | succ k ih =>
        have hbef := ih (by omega)
        rcases hcall (k + 1) (calls k).offset with h | h | h
        · exact absurd (.inl h) (hnever' (k + 1) hk)
        · exact absurd (.inr h) (hnever' (k + 1) hk)
        · have hstep : (calls (k + 1)).offset
            = (claimForWorker settings w (polls (k + 1)) (calls k).offset).offset := rfl
          rw [hstep]
          omega
    have hspent := hleft last le_rfl
    have hbound : turns queue.length settings.fallbackLimit i start ≤ _ :=
      turns_le (List.getElem?_eq_some_iff.mp hi).1
    have hone : 0 < turns queue.length settings.fallbackLimit i (calls last).offset := turns_pos
    omega
  obtain ⟨k, hk, hend⟩ := hreached
  refine ⟨fun hn => ⟨k, hk, ?_⟩, fun hclm => ⟨k, hk, ?_⟩⟩
  · exact (hend.resolve_left (not_not.mpr (hn k))).1
  · exact hend.resolve_right fun hlost => hclm k hlost.2

/-! ### An exhausted project -/

def pullSettings : PullSettings := ⟨30, 100, none, standardPrices⟩

/-- A worker, the task of a project that may run so many tasks, and one of another. -/
def pullPoll (limit : Option ℤ) : Poll :=
  let db := controlPlane.run [⟨0, registerWorker⟩, ⟨1, .createQueued 1 (halfCoreTask [])⟩,
      ⟨2, .replaceQuota 7 ⟨none, limit, none, none, none, none, none, none, none, none, none⟩⟩,
      ⟨3, .createQueued 2 { halfCoreTask [] with projectId := 8 }⟩]
    (Db.ofProjects ((Table.empty.insert 7 .active).insert 8 .active))
  ⟨db, fun _ => ⟨db, 10, 99, []⟩⟩

/-- The worker can run the second task of the queue. -/
def PullReady (poll : Poll) (worker : Worker) : Prop :=
  acceptingWorker pullSettings poll.db "w" = some worker
    ∧ (pullQueue poll.db worker).map Prod.fst = [1, 2]
    ∧ ∃ row ∈ pullQueue poll.db worker, row.1 = 2 ∧ WorkerCanRunTask worker row.2

theorem pullReady_of_decide (poll : Poll)
    (h : (acceptingWorker pullSettings poll.db "w").map (fun worker =>
      decide ((pullQueue poll.db worker).map Prod.fst = [1, 2]
        ∧ ∃ row ∈ pullQueue poll.db worker, row.1 = 2 ∧ WorkerCanRunTask worker row.2))
      = some true) : ∃ worker, PullReady poll worker := by
  obtain ⟨worker, hwk, hqueue⟩ := map_eq_some_iff.mp h
  exact ⟨worker, hwk, of_decide_eq_true hqueue⟩

/-- With room for both projects one of two calls returns an assignment. -/
theorem pull_scan_reaches_second_task :
    ∃ k ≤ 1, (pullCall pullSettings "w" (fun _ => pullPoll none) 0 k).assignment ≠ none := by
  obtain ⟨worker, hwk, hids, _, hrow, ht, hruns⟩ :=
    pullReady_of_decide (pullPoll none) (by decide +kernel)
  have hclm : ∀ t ∈ [1, 2],
      (tryClaim pullSettings "w" ((pullPoll none).moment t) t).assignment = some 99 := by
    decide +kernel
  obtain ⟨k, hk, hasg⟩ := (pull_scan_reaches_every_task (fun _ => pullPoll none)
    (fun _ => worker) 0 (by decide) (fun _ => hwk) (fun _ => rfl) hrow (fun _ => hruns)
    (fun _ _ => ne_none_iff_exists'.mpr ⟨worker, hwk⟩) fun _ t hmem e hrsd => by
      have hasg := hclm t (hids ▸ hmem)
      rw [hrsd] at hasg
      cases hasg).2 fun _ => by
    rw [ht, hclm 2 (by decide)]
    exact some_ne_none 99
  rw [← length_map Prod.fst, hids] at hk
  exact ⟨k, hk, hasg⟩

/-- The first task exceeds the quota of its project, and every call ends there: the second
    one is never tried, although its claim would succeed. -/
theorem exhausted_project_starves : (∃ worker, PullReady (pullPoll (some 0)) worker)
    ∧ (tryClaim pullSettings "w" ((pullPoll (some 0)).moment 2) 2).assignment = some 99
    ∧ ∀ k, (pullCall pullSettings "w" (fun _ => pullPoll (some 0)) 0 k).assignment = none
      ∧ (pullCall pullSettings "w" (fun _ => pullPoll (some 0)) 0 k).handed = [1] := by
  have hcall : ∀ offset ∈ [0, 2],
      let call := claimForWorker pullSettings "w" (pullPoll (some 0)) offset
      call.assignment = none ∧ call.handed = [1] ∧ call.offset = 2 := by
    decide +kernel
  refine ⟨pullReady_of_decide _ (by decide +kernel), by decide +kernel, fun k => ?_⟩
  have hends : ∃ offset ∈ [0, 2], pullCall pullSettings "w" (fun _ => pullPoll (some 0)) 0 k
      = claimForWorker pullSettings "w" (pullPoll (some 0)) offset := by
    induction k with
    | zero => exact ⟨0, by decide, rfl⟩
    | succ k ih =>
      obtain ⟨offset, hmem, hbef⟩ := ih
      refine ⟨2, by decide, ?_⟩
      rw [pullCall, hbef, (hcall offset hmem).2.2]
  obtain ⟨offset, hmem, hend⟩ := hends
  rw [hend]
  exact ⟨(hcall offset hmem).1, (hcall offset hmem).2.1⟩

end MiniAiCloud
