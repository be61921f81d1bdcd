import MiniAiCloud.Artifacts
import MiniAiCloud.Meter
import MiniAiCloud.Reachability

/-! # The artifact bytes of a project

    Each operation on an artifact gets its inversion lemma: what it found and what it
    wrote.  From these, every operation either leaves rows and counters alone, opens a
    pending artifact, or rewrites one row and moves the counter of its project by the
    difference (`Booking`); the counter therefore shows the bytes of the pending and
    ready artifacts in every run. -/

namespace MiniAiCloud

open Transaction Reachability Table Option

variable {old : Artifact} {u : Unit} {info : ArtifactObjectInfo} {key : ObjectKey} {p : Uuid}
  {reason : String}

section Inversion

variable {now : Time} {p x : Uuid} {db db' : Db} {artifact : Artifact}

theorem getArtifact_eq_some {includeDeleted : Bool} :
    getArtifact db p x includeDeleted = some artifact
      ↔ db.library.artifacts.get? x = some artifact ∧ artifact.projectId = p
        ∧ (includeDeleted = true ∨ artifact.deletedAt = none) := by
  rw [getArtifact, filter_eq_some_iff, decide_eq_true_iff]

theorem requiredLocked_ok {includeDeleted : Bool} :
    requiredLocked p x includeDeleted db = .ok artifact db'
      ↔ (db.library.artifacts.get? x = some artifact ∧ artifact.projectId = p
          ∧ (includeDeleted = true ∨ artifact.deletedAt = none)) ∧ db' = db := by
  rw [requiredLocked, bind_get, expect_ok, getArtifact_eq_some]

theorem requireExpectedArtifact_ok : requireExpectedArtifact artifact info db = .ok u db'
      ↔ (artifact.sizeBytes = some info.sizeBytes ∧ artifact.sha256 = some info.sha256)
        ∧ db' = db := by
  simp only [requireExpectedArtifact, bind_ok, raiseIf_ok, not_or, not_not]
  constructor
  · rintro ⟨_, _, ⟨⟨hsize, _⟩, rfl⟩, hsha, rfl⟩
    exact ⟨⟨hsize, hsha⟩, rfl⟩
  · rintro ⟨⟨hsize, hsha⟩, rfl⟩
    exact ⟨(), _, ⟨⟨hsize, by rw [hsha]; exact some_ne_none _⟩, rfl⟩, hsha, rfl⟩

theorem checkArtifactLimit_ok {limit : Option ℤ} {used requested : ℤ} :
    checkArtifactLimit limit used requested db = .ok u db'
      ↔ (∀ bound ∈ limit, used + requested ≤ bound) ∧ db' = db := by
  cases limit with
  | none =>
    show (pure () : Txn Unit) db = .ok u db' ↔ _
    rw [pure_ok]
    exact ⟨fun h => ⟨fun _ hb => absurd hb (not_mem_none _), h.2.symm⟩,
      fun h => ⟨rfl, h.2.symm⟩⟩
  | some bound =>
    rw [checkArtifactLimit, raiseIf_ok, not_lt]
    exact ⟨fun h => ⟨fun _ hb => some.inj hb ▸ h.1, h.2⟩, fun h => ⟨h.1 bound rfl, h.2⟩⟩

theorem insertArtifact_ok (h : insertArtifact x artifact db = .ok u db') :
    db.library.artifacts.get? x = none
      ∧ db' = db.withArtifacts (db.library.artifacts.insert x artifact) := by
  rw [insertArtifact, bind_get] at h
  simp only [↓raise_ok, modify_ok, not_not] at h
  obtain ⟨hfresh, _, hdb⟩ := h
  exact ⟨hfresh, hdb⟩

/-- **CREATING** inserts the pending row and counts its bytes. -/
theorem createPending_ok {request : PendingArtifact}
    (h : createPending now request db = .ok artifact db') :
    ∃ quota state sha256, 0 ≤ request.sizeBytes
      ∧ db.library.artifacts.get? request.artifactId = none
      ∧ db.quotas.get? request.projectId = some quota
      ∧ db.quotaStates.get? request.projectId = some state
      ∧ (∀ bound ∈ quota.maxArtifactBytes, state.artifactBytes + request.sizeBytes ≤ bound)
      ∧ artifact = request.row now sha256
      ∧ db' = (db.withArtifacts (db.library.artifacts.insert request.artifactId
          artifact)).withArtifactBytes now request.projectId request.sizeBytes := by
  simp only [createPending, normalizeSha256, bind_ok, raiseIf_ok, pure_ok, get_ok, ↓bind_expect,
      checkArtifactLimit_ok, modify_ok, not_lt, not_not] at h
  obtain ⟨_, _, ⟨hsize, rfl⟩, _, _, ⟨_, _, ⟨_, rfl⟩, rfl, rfl⟩, _, _, ⟨rfl, rfl⟩, _, _, ⟨_, rfl⟩,
      quota, hquota, state, hst, _, _, ⟨hlim, rfl⟩, _, _, hins, _, _, hdb, rfl, rfl⟩ := h
  obtain ⟨hfresh, hmid⟩ := insertArtifact_ok hins
  exact ⟨quota, state, _, hsize, hfresh, hquota, hst, hlim, rfl, by rw [hdb, hmid]⟩

/-- **VERIFYING** finds the row ready already, or makes the pending row ready. -/
theorem readyArtifact_ok (h : readyArtifact now x old key info db = .ok artifact db') :
    old.sizeBytes = some info.sizeBytes ∧ old.sha256 = some info.sha256
      ∧ ((old.state = .ready ∧ old.objectKey = key ∧ artifact = old ∧ db' = db)
        ∨ (old.state = .pending ∧ artifact = old.readied now key info
          ∧ db' = db.withArtifacts (db.library.artifacts.set x artifact))) := by
  by_cases hready : old.state = .ready
  · simp only [readyArtifact, if_pos hready, requireSameFinalArtifact, bind_ok,
      requireExpectedArtifact_ok, raiseIf_ok, pure_ok, not_not] at h
    obtain ⟨_, _, ⟨_, _, ⟨⟨hsize, hsha⟩, rfl⟩, hkey, rfl⟩, rfl, rfl⟩ := h
    exact ⟨hsize, hsha, .inl ⟨hready, hkey, rfl, rfl⟩⟩
  · simp only [readyArtifact, if_neg hready, saveArtifact, bind_ok,
      requireExpectedArtifact_ok, raiseIf_ok, modify_ok, pure_ok, not_not] at h
    obtain ⟨_, _, ⟨hpend, rfl⟩, _, _, ⟨⟨hsize, hsha⟩, rfl⟩, _, _, hdb, rfl, rfl⟩ := h
    exact ⟨hsize, hsha, .inr ⟨hpend, rfl, hdb⟩⟩

theorem markReady_ok (h : markReady now p x key info db = .ok artifact db') :
    ∃ old, db.library.artifacts.get? x = some old ∧ old.projectId = p
      ∧ readyArtifact now x old key info db = .ok artifact db' := by
  obtain ⟨old, _, hlock, hready⟩ := bind_ok.mp h
  obtain ⟨⟨hget, hproj, _⟩, rfl⟩ := requiredLocked_ok.mp hlock
  exact ⟨old, hget, hproj, hready⟩

theorem releaseQuotaBytes_ok : releaseQuotaBytes now artifact db = .ok u db'
      ↔ (∃ state, db.quotaStates.get? artifact.projectId = some state
          ∧ artifact.sizeBytes.getD 0 ≤ state.artifactBytes)
        ∧ db' = db.withArtifactBytes now artifact.projectId
          (-artifact.sizeBytes.getD 0) := by
  rw [releaseQuotaBytes, bind_get]
  simp only [bind_ok, raiseIf_ok, modify_ok]
  have hf : (¬ (db.quotaStates.get? artifact.projectId).all
        (fun state => state.artifactBytes < artifact.sizeBytes.getD 0) = true)
      ↔ ∃ state, db.quotaStates.get? artifact.projectId = some state
        ∧ artifact.sizeBytes.getD 0 ≤ state.artifactBytes := by
    cases db.quotaStates.get? artifact.projectId with
    | none => exact ⟨fun h => absurd rfl h, by rintro ⟨_, ⟨⟩, _⟩⟩
    | some state =>
      rw [all_some, decide_eq_true_iff, not_lt]
      exact ⟨fun h => ⟨state, rfl, h⟩, by rintro ⟨_, ⟨⟩, hle⟩; exact hle⟩
  constructor
  · rintro ⟨_, _, ⟨hnot, rfl⟩, hdb⟩
    exact ⟨hf.mp hnot, hdb⟩
  · rintro ⟨hst, hdb⟩
    exact ⟨(), _, ⟨hf.mpr hst, rfl⟩, hdb⟩

/-- The bytes an artifact counts for. -/
def Artifact.heldBytes (artifact : Artifact) : ℤ :=
  if artifact.state.Counted then artifact.sizeBytes.getD 0 else 0

/-- The quota states after an artifact gave its bytes back. -/
def Db.releasing (db : Db) (now : Time) (artifact : Artifact) : Db :=
  if artifact.state.Counted then
    db.withArtifactBytes now artifact.projectId (-artifact.sizeBytes.getD 0)
  else db

theorem releaseCounted_ok (h : releaseCounted now artifact db = .ok u db') :
    db' = db.releasing now artifact := by
  by_cases hcnt : artifact.state.Counted
  · rw [releaseCounted, if_pos hcnt] at h
    rw [Db.releasing, if_pos hcnt]
    exact (releaseQuotaBytes_ok.mp h).2
  · rw [releaseCounted, if_neg hcnt] at h
    rw [Db.releasing, if_neg hcnt]
    exact (pure_ok.mp h).2.symm

theorem Db.releasing_library (db : Db) (now : Time) (artifact : Artifact) :
    (db.releasing now artifact).library = db.library := by
  by_cases hcnt : artifact.state.Counted
  · rw [Db.releasing, if_pos hcnt]
    rfl
  · rw [Db.releasing, if_neg hcnt]

/-- **FAILING** finds the row failed already, or fails the pending row. -/
theorem failArtifact_ok (h : failArtifact now x old reason db = .ok artifact db') :
    (old.state = .failed ∧ artifact = old ∧ db' = db)
      ∨ (old.state = .pending ∧ artifact = old.failedFor reason
        ∧ db' = (db.releasing now old).withArtifacts
          (db.library.artifacts.set x artifact)) := by
  by_cases hfail : old.state = .failed
  · rw [failArtifact, if_pos hfail, pure_ok] at h
    exact .inl ⟨hfail, h.1.symm, h.2.symm⟩
  · simp only [failArtifact, if_neg hfail, saveArtifact, bind_ok, releaseQuotaBytes_ok,
      raiseIf_ok, modify_ok, pure_ok, not_not] at h
    obtain ⟨_, _, ⟨hpend, rfl⟩, _, _, ⟨_, hmid⟩, _, _, hdb, rfl, rfl⟩ := h
    refine .inr ⟨hpend, rfl, ?_⟩
    have hcnt : old.state.Counted := Or.inl hpend
    rw [Db.releasing, if_pos hcnt, hdb, hmid]
    rfl

theorem markFailed_ok (h : markFailed now p x reason db = .ok artifact db') :
    ∃ old, db.library.artifacts.get? x = some old ∧ old.projectId = p
      ∧ failArtifact now x old reason db = .ok artifact db' := by
  obtain ⟨old, _, hlock, hfail⟩ := bind_ok.mp h
  obtain ⟨⟨hget, hproj, _⟩, rfl⟩ := requiredLocked_ok.mp hlock
  exact ⟨old, hget, hproj, hfail⟩

/-- **DELETING** finds the row deleted already, or deletes it from any other state. -/
theorem deleteArtifact_ok (h : deleteArtifact now x old db = .ok artifact db') :
    (old.state = .deleted ∧ artifact = old ∧ db' = db)
      ∨ (old.state ≠ .deleted ∧ artifact = old.deletedAs now
        ∧ db' = (db.releasing now old).withArtifacts
          (db.library.artifacts.set x artifact)) := by
  by_cases hdeld : old.state = .deleted
  · rw [deleteArtifact, if_pos hdeld, pure_ok] at h
    exact .inl ⟨hdeld, h.1.symm, h.2.symm⟩
  · simp only [deleteArtifact, if_neg hdeld, saveArtifact, bind_ok, modify_ok, pure_ok] at h
    obtain ⟨_, _, hrel, _, _, hdb, rfl, rfl⟩ := h
    have hmid := releaseCounted_ok hrel
    refine .inr ⟨hdeld, rfl, ?_⟩
    rw [hdb, hmid, Db.releasing_library]

theorem markDeleted_ok (h : markDeleted now p x db = .ok artifact db') :
    ∃ old, db.library.artifacts.get? x = some old ∧ old.projectId = p
      ∧ deleteArtifact now x old db = .ok artifact db' := by
  obtain ⟨old, _, hlock, hdel⟩ := bind_ok.mp h
  obtain ⟨⟨hget, hproj, _⟩, rfl⟩ := requiredLocked_ok.mp hlock
  exact ⟨old, hget, hproj, hdel⟩

/-- **FENCING** finds the deletion begun already, or begins it where no reference
    stands. -/
theorem fenceArtifact_ok {referenced : Prop} [Decidable referenced]
    (h : fenceArtifact now x old referenced db = .ok artifact db') :
    ((old.state = .deleting ∨ old.state = .deleted) ∧ artifact = old ∧ db' = db)
      ∨ (¬ (old.state = .deleting ∨ old.state = .deleted) ∧ ¬ referenced
        ∧ artifact = { old with state := .deleting }
        ∧ db' = (db.releasing now old).withArtifacts
          (db.library.artifacts.set x artifact)) := by
  by_cases hbegun : old.state = .deleting ∨ old.state = .deleted
  · rw [fenceArtifact, if_pos hbegun, pure_ok] at h
    exact .inl ⟨hbegun, h.1.symm, h.2.symm⟩
  · simp only [fenceArtifact, if_neg hbegun, saveArtifact, bind_ok, raiseIf_ok, modify_ok,
      pure_ok] at h
    obtain ⟨_, _, ⟨hfree, rfl⟩, _, _, hrel, _, _, hdb, rfl, rfl⟩ := h
    have hmid := releaseCounted_ok hrel
    refine .inr ⟨hbegun, hfree, rfl, ?_⟩
    rw [hdb, hmid, Db.releasing_library]

theorem beginDelete_ok (h : beginDelete now p x db = .ok artifact db') :
    ∃ old, db.library.artifacts.get? x = some old ∧ old.projectId = p
      ∧ fenceArtifact now x old (Referenced db x) db = .ok artifact db' := by
  rw [beginDelete, bind_get] at h
  simp only [bind_ok, ↓raise_ok, requiredLocked_ok] at h
  obtain ⟨_, _, old, _, ⟨⟨hget, hproj, _⟩, rfl⟩, h⟩ := h
  exact ⟨old, hget, hproj, h⟩

end Inversion

/-! ## The operations as a system -/

inductive ArtifactOp where
  | createPending (request : PendingArtifact)
  | markReady (projectId artifactId : Uuid) (finalObjectKey : ObjectKey)
      (info : ArtifactObjectInfo)
  | markFailed (projectId artifactId : Uuid) (reason : String)
  | beginDelete (projectId artifactId : Uuid)
  | markDeleted (projectId artifactId : Uuid)

/-- The transaction of an operation. -/
def ArtifactOp.txn (now : Time) : ArtifactOp → Txn Unit
  | createPending request => void (MiniAiCloud.createPending now request)
  | markReady p x key info => void (MiniAiCloud.markReady now p x key info)
  | markFailed p x reason => void (MiniAiCloud.markFailed now p x reason)
  | beginDelete p x => void (MiniAiCloud.beginDelete now p x)
  | markDeleted p x => void (MiniAiCloud.markDeleted now p x)

/-- An operation at some time, or what the rest of the platform does in between. -/
inductive ArtifactCall where
  | call (now : Time) (op : ArtifactOp)
  | elsewhere (rest : Db)

/-- The quota states the rest of the platform leaves: every other column may change, a
    new row starts without bytes, and no row goes. -/
def carryBytes (old new : Table Uuid ProjectQuotaState) : Table Uuid ProjectQuotaState :=
  (old.mapRows (fun p state => { (new.get? p).getD state with
    artifactBytes := state.artifactBytes })).insertAll
      (new.rows.map (fun row => (row.1, { row.2 with artifactBytes := 0 })))

/-- Every operation is one transaction.  At first there are no artifacts and no bytes are
    counted. -/
def artifactLedger : System Db ArtifactCall where
  init db := db.library.artifacts = .empty
    ∧ ∀ p state, db.quotaStates.get? p = some state → state.artifactBytes = 0
  step
    | .call now op, db => commit (op.txn now) db
    | .elsewhere rest, db => { rest with
        quotaStates := carryBytes db.quotaStates rest.quotaStates
        library := { rest.library with artifacts := db.library.artifacts } }

/-! ## What a call enters in the books -/

/-- A call left artifacts and counters alone, opened a pending artifact, or rewrote an
    artifact of the same size; the counter of the project moved with it. -/
inductive ByteEntry (db db' : Db) : Prop where
  | idle (hartifacts : db'.library.artifacts = db.library.artifacts)
      (hstates : db'.quotaStates = db.quotaStates)
  | opened {x : Uuid} {artifact : Artifact} {state : ProjectQuotaState} {size : ℤ}
      {move : ProjectQuotaState → ProjectQuotaState}
      (hfresh : db.library.artifacts.get? x = none)
      (hartifacts : db'.library.artifacts = db.library.artifacts.insert x artifact)
      (hstate : db.quotaStates.get? artifact.projectId = some state)
      (hsize : artifact.sizeBytes = some size ∧ 0 ≤ size)
      (hstates : db'.quotaStates = db.quotaStates.modify artifact.projectId move)
      (hmove : ∀ s, (move s).artifactBytes = s.artifactBytes + artifact.heldBytes)
  | rewritten {x : Uuid} {old new : Artifact}
      {move : ProjectQuotaState → ProjectQuotaState}
      (hget : db.library.artifacts.get? x = some old)
      (hartifacts : db'.library.artifacts = db.library.artifacts.set x new)
      (hproject : new.projectId = old.projectId) (hsize : new.sizeBytes = old.sizeBytes)
      (hstates : db'.quotaStates = db.quotaStates.modify old.projectId move)
      (hmove : ∀ s, (move s).artifactBytes
        = s.artifactBytes + (new.heldBytes - old.heldBytes))

section Entries

variable {now : Time} {p x : Uuid} {db db' : Db} {artifact : Artifact}

theorem not_counted_failed : ¬ ArtifactState.failed.Counted := by decide

theorem not_counted_deleting : ¬ ArtifactState.deleting.Counted := by decide

theorem not_counted_deleted : ¬ ArtifactState.deleted.Counted := by decide

theorem Db.withArtifactBytes_quotaStates (db : Db) (now : Time) (p : Uuid) (bytes : ℤ) :
    (db.withArtifactBytes now p bytes).quotaStates
      = db.quotaStates.modify p (fun state => state.withArtifactBytes now bytes) := rfl

theorem Artifact.heldBytes_of_counted (h : artifact.state.Counted) :
    artifact.heldBytes = artifact.sizeBytes.getD 0 := if_pos h

theorem Artifact.heldBytes_of_not (h : ¬ artifact.state.Counted) : artifact.heldBytes = 0 :=
  if_neg h

/-- An artifact that stops counting gives its bytes back. -/
theorem ByteEntry.released {new : Artifact} (hget : db.library.artifacts.get? x = some old)
    (hproj : new.projectId = old.projectId) (hsize : new.sizeBytes = old.sizeBytes)
    (hnew : ¬ new.state.Counted) :
    ByteEntry db ((db.releasing now old).withArtifacts (db.library.artifacts.set x new)) := by
  have hzero := Artifact.heldBytes_of_not hnew
  rw [Db.releasing]
  split_ifs with hcnt
  · refine .rewritten hget rfl hproj hsize
      (db.withArtifactBytes_quotaStates now old.projectId (-old.sizeBytes.getD 0)) ?_
    intro s
    rw [hzero, Artifact.heldBytes_of_counted hcnt, zero_sub]
    rfl
  · refine .rewritten hget rfl hproj hsize (modify_id _ _).symm ?_
    intro s
    rw [hzero, Artifact.heldBytes_of_not hcnt, sub_zero, add_zero, id]

theorem createPending_enters {request : PendingArtifact}
    (h : createPending now request db = .ok artifact db') : ByteEntry db db' := by
  obtain ⟨_, state, sha256, hsize, hfresh, _, hst, _, hrow, hdb⟩ := createPending_ok h
  rw [hrow] at hdb
  rw [hdb]
  refine .opened hfresh rfl hst ⟨rfl, hsize⟩
    (db.withArtifactBytes_quotaStates now request.projectId request.sizeBytes) ?_
  intro s
  have hcnt : (request.row now sha256).state.Counted := Or.inl rfl
  rw [Artifact.heldBytes_of_counted hcnt]
  rfl

theorem markReady_enters (h : markReady now p x key info db = .ok artifact db') :
    ByteEntry db db' := by
  obtain ⟨old, hget, _, hready⟩ := markReady_ok h
  obtain ⟨hsize, _, ⟨_, _, _, rfl⟩ | ⟨hpend, hrow, hdb⟩⟩ := readyArtifact_ok hready
  · exact .idle rfl rfl
  · rw [hrow] at hdb
    rw [hdb]
    refine .rewritten hget rfl rfl hsize.symm (modify_id _ _).symm ?_
    intro s
    -- the object has the size that was reserved, so nothing moves
    have hold : old.state.Counted := Or.inl hpend
    have hnew : (old.readied now key info).state.Counted := Or.inr rfl
    have heq : (old.readied now key info).sizeBytes = old.sizeBytes := hsize.symm
    rw [Artifact.heldBytes_of_counted hold, Artifact.heldBytes_of_counted hnew, heq,
      sub_self, add_zero, id]

theorem markFailed_enters (h : markFailed now p x reason db = .ok artifact db') :
    ByteEntry db db' := by
  obtain ⟨_, hget, _, hfail⟩ := markFailed_ok h
  obtain ⟨_, _, rfl⟩ | ⟨_, hrow, hdb⟩ := failArtifact_ok hfail
  · exact .idle rfl rfl
  · rw [hdb, hrow]
    exact .released hget rfl rfl not_counted_failed

theorem markDeleted_enters (h : markDeleted now p x db = .ok artifact db') :
    ByteEntry db db' := by
  obtain ⟨_, hget, _, hdel⟩ := markDeleted_ok h
  obtain ⟨_, _, rfl⟩ | ⟨_, hrow, hdb⟩ := deleteArtifact_ok hdel
  · exact .idle rfl rfl
  · rw [hdb, hrow]
    exact .released hget rfl rfl not_counted_deleted

theorem beginDelete_enters (h : beginDelete now p x db = .ok artifact db') :
    ByteEntry db db' := by
  obtain ⟨_, hget, _, hfence⟩ := beginDelete_ok h
  rcases fenceArtifact_ok hfence with ⟨_, _, rfl⟩ | ⟨_, _, hrow, hdb⟩
  · exact .idle rfl rfl
  · rw [hdb, hrow]
    exact .released hget rfl rfl not_counted_deleting

/-- A failed call enters nothing, a successful one makes one entry. -/
theorem ByteEntry.commit {α : Type} {m : Txn α} (h : ∀ a db', m db = .ok a db' → ByteEntry db db') :
    ByteEntry db (commit (void m) db) := by
  rw [commit_void]
  cases hrun : m db with
  | ok a db' =>
    rw [commit_of_ok hrun]
    exact h a db' hrun
  | error =>
    rw [commit_of_error hrun]
    exact .idle rfl rfl

theorem artifactOp_enters (op : ArtifactOp) (now : Time) (db : Db) :
    ByteEntry db (commit (op.txn now) db) := by
  cases op with
  | createPending request => exact .commit (fun _ _ h => createPending_enters h)
  | markReady p x key info => exact .commit (fun _ _ h => markReady_enters h)
  | markFailed p x reason => exact .commit (fun _ _ h => markFailed_enters h)
  | beginDelete p x => exact .commit (fun _ _ h => beginDelete_enters h)
  | markDeleted p x => exact .commit (fun _ _ h => markDeleted_enters h)

end Entries

/-! ## The invariant -/

/-- The books are exact: every counter shows the bytes of its project, every artifact has
    a size, and its project has a counter. -/
structure ByteBooks (db : Db) : Prop where
  shows : Meter.Shows db.library.artifacts db.quotaStates Artifact.projectId
    Artifact.heldBytes ProjectQuotaState.artifactBytes
  sized : ∀ x artifact, db.library.artifacts.get? x = some artifact →
    ∃ size, artifact.sizeBytes = some size ∧ 0 ≤ size
  opened : ∀ x artifact, db.library.artifacts.get? x = some artifact →
    ∃ state, db.quotaStates.get? artifact.projectId = some state

section Books

variable {db db' : Db}

theorem ByteBooks.of_init (h : artifactLedger.init db) : ByteBooks db where
  shows := by
    intro p state hst
    rw [h.1, Meter.total_empty]
    exact h.2 p state hst
  sized := by
    intro _ _ hget
    rw [h.1] at hget
    cases hget
  opened := by
    intro _ _ hget
    rw [h.1] at hget
    cases hget

theorem opened_modify {q : Uuid} {move : ProjectQuotaState → ProjectQuotaState}
    {state : ProjectQuotaState} (h : db.quotaStates.get? q = some state) :
    ∃ state', (db.quotaStates.modify p move).get? q = some state' := by
  rw [get?_modify, h]
  exact ⟨_, rfl⟩

/-- **THE ENTRY KEEPS THE BOOKS.** -/
theorem ByteEntry.books (h : ByteEntry db db') (hbooks : ByteBooks db) : ByteBooks db' := by
  cases h with
  | idle harts hsts =>
    constructor
    · rw [harts, hsts]
      exact hbooks.shows
    · rw [harts]
      exact hbooks.sized
    · rw [harts, hsts]
      exact hbooks.opened
  | opened hfresh harts hst hsize hsts hmove =>
    constructor
    · rw [harts, hsts]
      exact hbooks.shows.add_entry hfresh (fun s _ => hmove s)
    · intro y other hget
      rw [harts] at hget
      rcases get?_insert_cases hget with ⟨_, rfl⟩ | hold
      · exact ⟨_, hsize⟩
      · exact hbooks.sized y other hold
    · intro y other hget
      rw [harts] at hget
      rw [hsts]
      rcases get?_insert_cases hget with ⟨_, rfl⟩ | hold
      · exact opened_modify hst
      · obtain ⟨_, hst'⟩ := hbooks.opened y other hold
        exact opened_modify hst'
  | rewritten hget harts hproj hsize hsts hmove =>
    constructor
    · rw [harts, hsts]
      exact hbooks.shows.set_entry hget hproj (fun s _ => hmove s)
    · intro y other hoth
      rw [harts] at hoth
      rcases get?_set_cases hoth with ⟨_, rfl⟩ | ⟨_, hold⟩
      · rw [hsize]
        exact hbooks.sized _ _ hget
      · exact hbooks.sized y other hold
    · intro y other hoth
      rw [harts] at hoth
      rw [hsts]
      rcases get?_set_cases hoth with ⟨_, rfl⟩ | ⟨_, hold⟩
      · obtain ⟨_, hst'⟩ := hbooks.opened _ _ hget
        rw [hproj]
        exact opened_modify hst'
      · obtain ⟨_, hst'⟩ := hbooks.opened y other hold
        exact opened_modify hst'

/-- A row the rest of the platform leaves is an old one with its bytes, or a new one
    without. -/
theorem carryBytes_cases {old new : Table Uuid ProjectQuotaState} {state : ProjectQuotaState}
    (h : (carryBytes old new).get? p = some state) :
    (∃ before, old.get? p = some before ∧ state.artifactBytes = before.artifactBytes)
      ∨ (old.get? p = none ∧ state.artifactBytes = 0) := by
  rcases get?_insertAll_cases _ _ h with hkept | ⟨hn, hnew⟩
  · rw [get?_mapRows] at hkept
    obtain ⟨before, hbef, rfl⟩ := map_eq_some_iff.mp hkept
    exact .inl ⟨before, hbef, rfl⟩
  · rw [get?_mapRows, map_eq_none_iff] at hn
    obtain ⟨_, _, hrow⟩ := List.mem_map.mp hnew
    exact .inr ⟨hn, by rw [← (Prod.mk.inj hrow).2]⟩

theorem carryBytes_keeps {old new : Table Uuid ProjectQuotaState} {before : ProjectQuotaState}
    (h : old.get? p = some before) :
    ∃ state, (carryBytes old new).get? p = some state := by
  refine ⟨{ (new.get? p).getD before with artifactBytes := before.artifactBytes },
    get?_insertAll_of_some _ _ ?_⟩
  rw [get?_mapRows, h]
  rfl

theorem ByteBooks.elsewhere (hbooks : ByteBooks db) (rest : Db) :
    ByteBooks (artifactLedger.step (.elsewhere rest) db) where
  shows := by
    intro p _ hst
    rcases carryBytes_cases hst with ⟨before, hbef, hbytes⟩ | ⟨hn, hbytes⟩
    · rw [hbytes]
      exact hbooks.shows p before hbef
    · -- a project without a counter has no artifacts
      rw [hbytes]
      refine (Meter.total_eq_zero ?_).symm
      intro x artifact hget hproj
      obtain ⟨_, hst'⟩ := hbooks.opened x artifact hget
      rw [hproj, hn] at hst'
      cases hst'
  sized := hbooks.sized
  opened := by
    intro x artifact hget
    obtain ⟨_, hbef⟩ := hbooks.opened x artifact hget
    exact carryBytes_keeps hbef

theorem byteBooks_reach (h : Reach artifactLedger (fun _ _ => True) db) : ByteBooks db := by
  refine h.invariant (fun _ hinit => ByteBooks.of_init hinit) ?_
  intro i db hbooks _
  cases i with
  | call now op => exact (artifactOp_enters op now db).books hbooks
  | elsewhere rest => exact hbooks.elsewhere rest

theorem Artifact.heldBytes_nonneg {artifact : Artifact} {size : ℤ}
    (hsize : artifact.sizeBytes = some size ∧ 0 ≤ size) : 0 ≤ artifact.heldBytes := by
  by_cases hcnt : artifact.state.Counted
  · rw [Artifact.heldBytes_of_counted hcnt, hsize.1]
    exact hsize.2
  · rw [Artifact.heldBytes_of_not hcnt]

/-- The bytes of a counted artifact can be given back. -/
theorem ByteBooks.releases (hbooks : ByteBooks db) {x : Uuid} {artifact : Artifact}
    (hget : db.library.artifacts.get? x = some artifact) (hcnt : artifact.state.Counted)
    (now : Time) : ∃ db', releaseQuotaBytes now artifact db = .ok () db' := by
  obtain ⟨state, hst⟩ := hbooks.opened x artifact hget
  have hle : artifact.sizeBytes.getD 0 ≤ state.artifactBytes := by
    rw [hbooks.shows _ state hst, ← Artifact.heldBytes_of_counted hcnt]
    refine Meter.weight_le_total ?_ hget
    intro y other hoth
    obtain ⟨_, hsize⟩ := hbooks.sized y other hoth
    exact Artifact.heldBytes_nonneg hsize
  exact ⟨_, releaseQuotaBytes_ok.mpr ⟨⟨state, hst, hle⟩, rfl⟩⟩

end Books

/-- The bytes of the pending and ready artifacts of a project. -/
def storedBytes (db : Db) (projectId : Uuid) : ℤ :=
  db.library.artifacts.sum (fun _ artifact =>
    if artifact.projectId = projectId then artifact.heldBytes else 0)

/-- **THE BOOKS ARE EXACT**: the counter of every project is the bytes of its pending and
    ready artifacts, a created artifact fits under the limit, and giving bytes back never
    raises. -/
theorem artifact_accounting_exact {db : Db} (hreach : Reach artifactLedger (fun _ _ => True) db) :
    (∀ p state, db.quotaStates.get? p = some state → state.artifactBytes = storedBytes db p)
      ∧ (∀ now request artifact db', createPending now request db = .ok artifact db' →
          ∃ quota state, db'.quotas.get? request.projectId = some quota
            ∧ db'.quotaStates.get? request.projectId = some state
            ∧ ∀ limit ∈ quota.maxArtifactBytes, state.artifactBytes ≤ limit)
      ∧ ∀ now x artifact, db.library.artifacts.get? x = some artifact → artifact.state.Counted →
          ∃ db', releaseQuotaBytes now artifact db = .ok () db' := by
  have hbooks := byteBooks_reach hreach
  refine ⟨hbooks.shows, ?_, fun now _ _ hget hcnt => hbooks.releases hget hcnt now⟩
  intro now request _ _ hcrt
  obtain ⟨quota, state, _, _, _, hquota, hst, hlim, _, rfl⟩ := createPending_ok hcrt
  refine ⟨quota, state.withArtifactBytes now request.sizeBytes, hquota, ?_, hlim⟩
  rw [Db.withArtifactBytes_quotaStates]
  show (db.quotaStates.modify _ _).get? _ = _
  rw [get?_modify, hst]
  exact congrArg some (if_pos rfl)

def zeroSha256 : String := "0000000000000000000000000000000000000000000000000000000000000000"

/-- An artifact of project 7 with its declared size. -/
def smallArtifact (artifactId : Uuid) (sizeBytes : ℤ) : PendingArtifact where
  artifactId := artifactId
  projectId := 7
  name := "weights"
  backend := "local"
  objectKey := ⟨7, artifactId, .staging⟩
  contentType := none
  sizeBytes := sizeBytes
  sha256 := zeroSha256
  createdByUserId := none

/-- Project 7 may store a hundred bytes. -/
def limitedProject : Db :=
  { Db.ofProjects (Table.empty.insert 7 .active) with
    quotas := Table.empty.insert 7 { maxArtifactBytes := some 100, updatedAt := 0 }
    quotaStates := Table.empty.insert 7 { accountingDate := 0, updatedAt := 0 } }

theorem limitedProject_init : artifactLedger.init limitedProject := by
  refine ⟨rfl, ?_⟩
  intro _ _ hst
  rcases get?_insert_cases hst with ⟨_, rfl⟩ | hn
  · rfl
  · cases hn

/-- One artifact is verified, and one is deleted, the first phase twice. -/
def smallLedger : Db :=
  artifactLedger.run
    [.call 0 (.createPending (smallArtifact 1 60)), .call 1 (.createPending (smallArtifact 2 30)),
     .call 2 (.markReady 7 1 ⟨7, 1, .content⟩ ⟨60, zeroSha256⟩), .call 3 (.beginDelete 7 2),
     .call 4 (.beginDelete 7 2), .call 5 (.markDeleted 7 2)] limitedProject

theorem artifact_accounting_exact_two : storedBytes smallLedger 7 = 60 := by
  have hreach : Reach artifactLedger (fun _ _ => True) smallLedger :=
    (Reach.init limitedProject_init).run _ (allowed_of_forall _ (fun _ _ _ => trivial) _)
  have hrow : (smallLedger.quotaStates.get? 7).map (·.artifactBytes)
      = some 60 := by decide +kernel
  obtain ⟨state, hst, hbytes⟩ := map_eq_some_iff.mp hrow
  rw [← (artifact_accounting_exact hreach).1 7 state hst, hbytes]

end MiniAiCloud
