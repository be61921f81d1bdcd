import MiniAiCloud.ArtifactProofs
import MiniAiCloud.ArtifactStore

/-! # Artifact requests in flight

    The artifact requests run interleaved over one database and one store, and each of
    their operations may fail.  Here is the system of these runs, what each operation does
    to the row and the objects of its artifact, and the shape of each request: what it
    awaits, in its order.  What the requests keep true is the matter of two contracts,
    about ready rows (`ReadyBytesProofs`) and about deleted rows (`DeletedBytesProofs`). -/

namespace MiniAiCloud

open Transaction Async Reachability Table ArtifactSite ArtifactStore

variable {artifact : Artifact} {info : ArtifactObjectInfo} {db : Db} {key : ObjectKey}
  {op : ArtifactAwait} {now : Time} {owner : ExecutionOwner} {request : PendingArtifact}
  {α : Type}

/-! ## The requests in flight -/

inductive ArtifactRequest where
  | create (request : PendingArtifact)
  | upload (projectId artifactId : Uuid) (request : ArtifactUpload)
  | finalize (projectId artifactId : Uuid) (payload : ArtifactObjectInfo)
  | delete (projectId artifactId : Uuid)
  | retire (rank : ObjectKey → ℕ) (projectId artifactId : Uuid)
  | publish (owner : ExecutionOwner) (bindingId : Uuid) (name : String)
      (placeholder : OutputPlaceholder) (file : OutputFile) (artifactId : Uuid)

def ArtifactRequest.artifactId : ArtifactRequest → Uuid
  | create request => request.artifactId
  | upload _ x _ | finalize _ x _ | delete _ x | retire _ _ x | publish _ _ _ _ _ x => x

def ArtifactRequest.prog (store : ArtifactStore) : ArtifactRequest → ArtifactProg Unit
  | create request => (store.create request).void
  | upload p x request => (store.upload p x request).void
  | finalize p x payload => (store.finalizeRequest p x payload).void
  | delete p x => (deleteRequest p x).void
  | retire rank p x => (deleteRetainedArtifact rank p x).void
  | publish owner bindingId name placeholder file x =>
    (store.publishFile owner bindingId name placeholder file x).void

abbrev ArtifactRequests := Pool artifactAwaits ArtifactSite ArtifactFault ArtifactRequest

inductive RequestCall where
  | start (i : ℕ) (request : ArtifactRequest) (fault : Option ArtifactFault)
  | advance (i : ℕ) (fault : Option ArtifactFault)
  /-- The host of a request has gone. -/
  | abandon (i : ℕ)
  /-- What the rest of the platform does, and time passes. -/
  | elsewhere (rest : Db) (now : Time)

/-- The requests of one store, from the first artifact on. -/
def artifactRequests (store : ArtifactStore) : System ArtifactRequests RequestCall where
  init pool := pool.shared.db.library.artifacts.rows = [] ∧ pool.shared.objects = .empty
    ∧ pool.procs = .empty
  step
    | .start i request fault, pool =>
      pool.start store.machine (ArtifactRequest.prog store) i request fault
    | .advance i fault, pool => pool.advance store.machine i fault
    | .abandon i, pool => pool.abandon i
    | .elsewhere rest now, pool => { pool with
        shared :=
          ⟨rest.withArtifacts pool.shared.db.library.artifacts, pool.shared.objects, now⟩ }

/-! ## What an operation does -/

section Operations

variable {store : ArtifactStore} {s t : ArtifactSite} {p x : Uuid}

theorem finalKey_ne_stagingKey (q y p x : Uuid) : finalKey q y ≠ stagingKey p x := by
  intro h
  exact nomatch congrArg ObjectKey.slot h

/-- The row of an artifact. -/
def ArtifactSite.row (site : ArtifactSite) (x : Uuid) : Option Artifact :=
  site.db.library.artifacts.get? x

/-- One artifact gets a new row; the objects stay. -/
structure Rerow (x : Uuid) (old new : Artifact) (s t : ArtifactSite) : Prop where
  objects : t.objects = s.objects
  before : s.row x = some old
  after : t.row x = some new
  rows : ∀ y, y ≠ x → t.row y = s.row y

theorem Rerow.refl {old : Artifact} (h : s.row x = some old) : Rerow x old old s s :=
  ⟨rfl, h, h, fun _ _ => rfl⟩

theorem Rerow.of_set {old new : Artifact} (hold : s.row x = some old)
    (hobjs : t.objects = s.objects)
    (hset : t.db.library.artifacts = s.db.library.artifacts.set x new) :
    Rerow x old new s t where
  objects := hobjs
  before := hold
  after := by
    rw [row, hset]
    exact get?_set_self hold new
  rows y hy := by
    rw [row, hset]
    exact get?_set_ne _ _ hy

theorem transact_ok {txn : Txn α} {a : α} (h : s.transact txn = .ok (a, t)) :
    ∃ db, txn s.db = .ok a db ∧ t = { s with db := db } := by
  rw [transact] at h
  split at h
  · rename_i b db hrun
    cases h
    exact ⟨db, hrun, rfl⟩
  · cases h

/-- The row of `mark_ready`: ready already, or pending and now at the final key. -/
theorem readied_of_markReady (h : markReady now p x key info s.db = .ok artifact db) :
    ∃ old new, old.projectId = p ∧ Rerow x old new s { s with db := db }
      ∧ (new = old ∧ old.state = .ready
        ∨ old.state = .pending ∧ old.sizeBytes = some info.sizeBytes
          ∧ old.sha256 = some info.sha256 ∧ new = old.readied now key info) := by
  obtain ⟨old, hget, hproj, hready⟩ := markReady_ok h
  obtain ⟨hsize, hsha, ⟨hst, _, _, rfl⟩ | ⟨hst, rfl, hdb⟩⟩ := readyArtifact_ok hready
  · exact ⟨old, old, hproj, .refl hget, .inl ⟨rfl, hst⟩⟩
  · refine ⟨old, _, hproj, .of_set hget rfl ?_, .inr ⟨hst, hsize, hsha, rfl⟩⟩
    rw [hdb]
    rfl

theorem perform_markReady (h : store.perform s (.markReady p x key info) = .ok (artifact, t)) :
    ∃ old new, old.projectId = p ∧ Rerow x old new s t
      ∧ (new = old ∧ old.state = .ready
        ∨ old.state = .pending ∧ old.sizeBytes = some info.sizeBytes
          ∧ old.sha256 = some info.sha256 ∧ new = old.readied s.now key info) := by
  obtain ⟨_, hrun, rfl⟩ := transact_ok h
  exact readied_of_markReady hrun

/-- `mark_failed` finds the row failed, or fails the pending row. -/
theorem perform_markFailed {reason : String}
    (h : store.perform s (.markFailed p x reason) = .ok (artifact, t)) :
    ∃ old new, Rerow x old new s t
      ∧ (new = old ∨ old.state = .pending ∧ new = old.failedFor reason) := by
  obtain ⟨_, hrun, rfl⟩ := transact_ok h
  obtain ⟨old, hget, _, hfail⟩ := markFailed_ok hrun
  obtain ⟨_, _, rfl⟩ | ⟨hst, rfl, hdb⟩ := failArtifact_ok hfail
  · exact ⟨old, old, .refl hget, .inl rfl⟩
  · refine ⟨old, _, .of_set hget rfl ?_, .inr ⟨hst, rfl⟩⟩
    rw [hdb]
    rfl

/-- `mark_deleted` leaves the row deleted. -/
theorem perform_markDeleted (h : store.perform s (.markDeleted p x) = .ok (artifact, t)) :
    ∃ old new, old.projectId = p ∧ Rerow x old new s t ∧ new.state = .deleted
      ∧ (new = old ∨ new = old.deletedAs s.now) := by
  obtain ⟨_, hrun, rfl⟩ := transact_ok h
  obtain ⟨old, hget, hproj, hdel⟩ := markDeleted_ok hrun
  obtain ⟨hst, _, rfl⟩ | ⟨_, rfl, hdb⟩ := deleteArtifact_ok hdel
  · exact ⟨old, old, hproj, .refl hget, hst, .inl rfl⟩
  · refine ⟨old, _, hproj, .of_set hget rfl ?_, rfl, .inr rfl⟩
    rw [hdb]
    rfl

/-- `begin_delete` leaves the row deleting, or finds it deleted. -/
theorem fenced_of_beginDelete (h : beginDelete now p x s.db = .ok artifact db) :
    ∃ old, old.projectId = p ∧ Rerow x old artifact s { s with db := db }
      ∧ (artifact.state = .deleting ∨ artifact.state = .deleted)
      ∧ (artifact = old ∨ artifact = { old with state := .deleting }) := by
  obtain ⟨old, hget, hproj, hfence⟩ := beginDelete_ok h
  obtain ⟨hst, rfl, rfl⟩ | ⟨_, _, rfl, hdb⟩ := fenceArtifact_ok hfence
  · exact ⟨artifact, hproj, .refl hget, hst, .inl rfl⟩
  · refine ⟨old, hproj, .of_set hget rfl ?_, .inl rfl, .inr rfl⟩
    rw [hdb]
    rfl

theorem perform_beginDelete (h : store.perform s (.beginDelete p x) = .ok (artifact, t)) :
    ∃ old, old.projectId = p ∧ Rerow x old artifact s t
      ∧ (artifact.state = .deleting ∨ artifact.state = .deleted)
      ∧ (artifact = old ∨ artifact = { old with state := .deleting }) := by
  rw [ArtifactStore.perform, ArtifactStore.beginDelete] at h
  cases hrun : s.transact (beginDelete s.now p x) with
  | error =>
    rw [hrun] at h
    cases h
  | ok result =>
    obtain ⟨_, _⟩ := result
    rw [hrun] at h
    obtain ⟨_, hbegin, rfl⟩ := transact_ok hrun
    simp only [bind, Except.bind] at h
    split_ifs at h
    cases h
    exact fenced_of_beginDelete hbegin

theorem perform_retire {found : Option Artifact}
    (h : store.perform s (.retire p x) = .ok (found, t)) :
    (found = none ∧ t = s)
      ∨ ∃ artifact old, found = some artifact ∧ old.projectId = p
        ∧ Rerow x old artifact s t
        ∧ (artifact.state = .deleting ∨ artifact.state = .deleted)
        ∧ (artifact = old ∨ artifact = { old with state := .deleting }) := by
  rw [perform, retire] at h
  split at h
  · rename_i artifact db hbegin
    split_ifs at h
    cases h
    obtain ⟨old, hproj, hrerow, hst, hnew⟩ := fenced_of_beginDelete hbegin
    exact .inr ⟨artifact, old, rfl, hproj, hrerow, hst, hnew⟩
  · split_ifs at h
    cases h
    exact .inl ⟨rfl, rfl⟩

/-- A new row is pending at its staging key, and was not there before. -/
structure Enrols (x : Uuid) (s t : ArtifactSite) : Prop where
  objects : t.objects = s.objects
  fresh : s.row x = none
  after : ∃ new, t.row x = some new ∧ new.state = .pending
    ∧ new.objectKey = stagingKey new.projectId x
  rows : ∀ y, y ≠ x → t.row y = s.row y

theorem enrols_of_createPending (h : createPending now request s.db = .ok artifact db)
    (hkey : request.objectKey = stagingKey request.projectId request.artifactId) :
    Enrols request.artifactId s { s with db := db } := by
  obtain ⟨_, _, _, _, hfresh, _, _, _, rfl, rfl⟩ := createPending_ok h
  exact ⟨rfl, hfresh, ⟨_, get?_insert_self hfresh _, rfl, hkey⟩, fun y hy => get?_insert_ne _ _ hy⟩

theorem perform_create (hkey : request.objectKey = stagingKey request.projectId request.artifactId)
    (h : store.perform s (.create request) = .ok (artifact, t)) :
    Enrols request.artifactId s t := by
  obtain ⟨_, hrun, rfl⟩ := transact_ok h
  exact enrols_of_createPending hrun hkey

theorem listForExecution_ok {bindings : List (Uuid × TaskArtifact)} {db' : Db}
    (h : listForExecution owner db = .ok bindings db') : db' = db := by
  simp only [listForExecution, bind_ok, get_ok, raiseIf_ok, pure_ok] at h
  obtain ⟨_, _, ⟨_, rfl⟩, _, _, ⟨_, rfl⟩, _, rfl⟩ := h
  rfl

theorem perform_createOutput
    (hkey : request.objectKey = stagingKey request.projectId request.artifactId)
    (h : store.perform s (.createOutput owner request) = .ok (artifact, t)) :
    Enrols request.artifactId s t := by
  obtain ⟨_, hrun, rfl⟩ := transact_ok h
  obtain ⟨_, _, hlist, hcrt⟩ := bind_ok.mp hrun
  rw [listForExecution_ok hlist] at hcrt
  exact enrols_of_createPending hcrt hkey

theorem lockOutput_reads (b task project x : Uuid) : Reads (lockOutput b task project x) := by
  refine .bind .get fun db => .check (.bind (.expect _ _) fun binding => ?_)
  cases binding.artifactId with
  | none => exact .bind (.expect _ _) fun _ => .pure _
  | some bound => exact .check (.pure _)

theorem bindOutput_artifacts {b task project : Uuid} {binding : TaskArtifact} {db' : Db}
    (h : bindOutput b task project x db = .ok binding db') :
    db'.library.artifacts = db.library.artifacts := by
  obtain ⟨⟨_, found⟩, _, hlock, hr⟩ := bind_ok.mp h
  rw [(lockOutput_reads b task project x).of_ok hlock] at hr
  cases found with
  | none => rw [(pure_ok.mp hr).2]
  | some =>
    simp only [writeOutput, bind_ok, modify_ok, pure_ok] at hr
    obtain ⟨_, _, hdb, _, rfl⟩ := hr
    rw [hdb]
    rfl

theorem perform_commitOutput {b : Uuid}
    (h : store.perform s (.commitOutput owner b x key info) = .ok (artifact, t)) :
    ∃ old new, old.projectId = owner.projectId ∧ Rerow x old new s t
      ∧ (new = old ∧ old.state = .ready
        ∨ old.state = .pending ∧ old.sizeBytes = some info.sizeBytes
          ∧ old.sha256 = some info.sha256 ∧ new = old.readied s.now key info) := by
  obtain ⟨db, hrun, rfl⟩ := transact_ok h
  obtain ⟨_, _, hlist, hr⟩ := bind_ok.mp hrun
  rw [listForExecution_ok hlist] at hr
  obtain ⟨_, after, hready, hr⟩ := bind_ok.mp hr
  obtain ⟨_, _, hbind, hpure⟩ := bind_ok.mp hr
  obtain ⟨old, new, hproj, hrerow, hnew⟩ := readied_of_markReady hready
  rw [(pure_ok.mp hpure).2] at hbind
  have heq := bindOutput_artifacts hbind
  have hrow : ∀ y, row { s with db := db } y
      = row { s with db := after } y := by
    intro y
    rw [row, heq]
    rfl
  exact ⟨old, new, hproj, ⟨rfl, hrerow.before, (hrow x).trans hrerow.after,
      fun y hy => (hrow y).trans (hrerow.rows y hy)⟩, hnew⟩

theorem storing_ok {result : Except ArtifactFault (α × Objects)} {a : α}
    (h : s.storing result = .ok (a, t)) :
    ∃ objects, result = .ok (a, objects) ∧ t = { s with objects := objects } := by
  cases result with
  | error => cases h
  | ok pair =>
    obtain ⟨b, objects⟩ := pair
    cases h
    exact ⟨objects, rfl, rfl⟩

/-- A put writes one object. -/
theorem perform_put {chunks : List Bytes} {size : ℤ} {sha256 : String}
    (h : store.perform s (.put key chunks size sha256) = .ok (info, t)) :
    ∃ bytes, t = { s with objects := s.objects.put key bytes } := by
  obtain ⟨_, hput, rfl⟩ := storing_ok h
  obtain ⟨_, _, hreceive⟩ := except_bind_ok.mp hput
  obtain ⟨bytes, _, hver⟩ := except_bind_ok.mp hreceive
  obtain ⟨_, _, hdone⟩ := except_bind_ok.mp hver
  cases hdone
  exact ⟨bytes, rfl⟩

theorem inspect_ok {bytes : Bytes} (h : store.inspect bytes = .ok info) :
    info = store.info bytes := by
  rw [inspect] at h
  split_ifs at h
  exact (Except.ok.inj h).symm

/-- A finalized object is the one at the final key, or was moved there from the staging
    key. -/
theorem perform_finalize {staging final : ObjectKey} {size : ℤ} {sha256 : String}
    (h : store.perform s (.finalize staging final size sha256) = .ok (info, t)) :
    ∃ bytes, info = store.info bytes
      ∧ ((s.objects.get? final = some bytes ∧ t = s)
        ∨ (s.objects.get? final = none ∧ s.objects.get? staging = some bytes
          ∧ t = { s with objects := (s.objects.erase staging).put final bytes })) := by
  obtain ⟨_, hfinalize, rfl⟩ := storing_ok h
  obtain ⟨_, _, hprom⟩ := except_bind_ok.mp hfinalize
  rw [promote] at hprom
  split at hprom
  · rename_i bytes hfin
    obtain ⟨_, hinsp, hver⟩ := except_bind_ok.mp hprom
    obtain ⟨_, _, hdone⟩ := except_bind_ok.mp hver
    cases hdone
    exact ⟨bytes, inspect_ok hinsp, .inl ⟨hfin, rfl⟩⟩
  · rename_i hfin
    split at hprom
    · cases hprom
    · rename_i bytes hstg
      obtain ⟨_, hinsp, hver⟩ := except_bind_ok.mp hprom
      obtain ⟨_, _, hdone⟩ := except_bind_ok.mp hver
      cases hdone
      exact ⟨bytes, inspect_ok hinsp, .inr ⟨hfin, hstg, rfl⟩⟩

end Operations

/-! ## The shape of the requests

    What each request awaits, in its order; what the operations keep is left open. -/

section Programs

variable {store : ArtifactStore} {inv : ArtifactSite → Prop}
  {rely guar : ArtifactSite → ArtifactSite → Prop} {s : ArtifactSite} {p x : Uuid}

theorem exec_ok {t u : ArtifactSite} {answer : op.Answer}
    (h : store.perform t op = .ok (answer, u)) :
    store.machine.exec none op t = (.ok answer, u) := by
  simp only [machine, h]

theorem exec_error {t : ArtifactSite} {fault : ArtifactFault}
    (h : store.perform t op = .error fault) :
    store.machine.exec none op t = (.error fault, t) := by
  simp only [machine, h]

/-- An operation fails without an effect, or does what it should. -/
theorem await_safe {post : Except ArtifactFault op.Answer → ArtifactSite → Prop}
    (hrefl : ∀ t, guar t t) (hfails : ∀ t fault, rely s t → inv t → post (.error fault) t)
    (hdoes : ∀ t answer u, rely s t → inv t → store.perform t op = .ok (answer, u) →
      inv u ∧ guar t u ∧ post (.ok answer) u) :
    (await op).Safe store.machine inv rely guar post s := by
  intro t ht hinv choice
  cases choice with
  | some fault => exact ⟨hinv, hrefl t, hfails t fault ht hinv⟩
  | none =>
    cases hperf : store.perform t op with
    | error fault =>
      rw [exec_error hperf]
      exact ⟨hinv, hrefl t, hfails t fault ht hinv⟩
    | ok result =>
      rw [exec_ok hperf]
      exact hdoes t result.1 result.2 ht hinv hperf

/-- The row that a request reads. -/
theorem requiredArtifact_safe {post : Except ArtifactFault Artifact → ArtifactSite → Prop}
    (hrefl : ∀ t, guar t t)
    (hfails : ∀ t fault, rely s t → inv t → post (.error fault) t)
    (hf : ∀ t artifact, rely s t → inv t → t.row x = some artifact →
      artifact.projectId = p → post (.ok artifact) t) :
    (requiredArtifact p x).Safe store.machine inv rely guar post s := by
  refine Prog.safe_bind (await_safe hrefl hfails ?_)
  intro t _ _ ht hinv hperf
  cases hperf
  refine ⟨hinv, hrefl t, ?_⟩
  cases hget : getArtifact t.db p x false with
  | none => exact hfails t _ ht hinv
  | some artifact =>
    obtain ⟨hrow, hproj, _⟩ := getArtifact_eq_some.mp hget
    exact hf t artifact ht hinv hrow hproj

theorem expectedMetadata_safe {post : Except ArtifactFault (ℤ × String) → ArtifactSite → Prop}
    (hfails : ∀ fault, post (.error fault) s)
    (hknown : ∀ size sha256, post (.ok (size, sha256)) s) :
    (expectedMetadata artifact).Safe store.machine inv rely guar post s := by
  rw [expectedMetadata]
  split
  · exact hknown _ _
  · exact hfails _

/-- An upload puts the object of a pending row, and marks the row failed if that is
    refused. -/
theorem upload_safe {request : ArtifactUpload} (hrefl : ∀ t, guar t t)
    (hput : ∀ t artifact size sha256, inv t → t.row x = some artifact →
      artifact.projectId = p → artifact.state = .pending →
      (await (.put artifact.objectKey request.chunks size sha256)).Safe store.machine inv rely
        guar (fun _ _ => True) t)
    (hfail : ∀ t reason,
      (await (.markFailed p x reason)).Safe store.machine inv rely guar (fun _ _ => True) t) :
    (store.upload p x request).Safe store.machine inv rely guar (fun _ _ => True) s := by
  refine Prog.safe_bind (requiredArtifact_safe hrefl (fun _ _ _ _ => trivial) ?_)
  intro t artifact _ hinv hrow hproj
  refine Prog.safe_raiseIf (fun _ => trivial) (fun hpend => ?_)
  refine Prog.safe_raiseIf (fun _ => trivial) (fun _ => ?_)
  refine Prog.safe_bind (expectedMetadata_safe (fun _ => trivial) (fun size sha256 => ?_))
  refine Prog.safe_raiseIf (fun _ => trivial) (fun _ => ?_)
  refine Prog.safe_raiseIf (fun _ => trivial) (fun _ => ?_)
  refine Prog.safe_bind (Prog.safe_catching ?_)
  refine (hput t artifact size sha256 hinv hrow hproj (not_not.mp hpend)).mono ?_
  intro result u _
  cases result with
  | ok => trivial
  | error =>
    rw [onError]
    split_ifs with href
    · exact (hfail u _).then (fun _ _ => id) (fun _ _ => id)
    · trivial

/-- A finalize request promotes the object of a pending row and marks the row ready; a
    refused object is removed and its row marked failed. -/
theorem finalizeRequest_safe {payload : ArtifactObjectInfo} (hrefl : ∀ t, guar t t)
    (Stored : ArtifactObjectInfo → ArtifactSite → Prop)
    (hfin : ∀ t artifact size sha256, inv t → t.row x = some artifact →
      artifact.projectId = p → artifact.state = .pending →
      (await (.finalize artifact.objectKey (finalKey p x) size sha256)).Safe store.machine inv
        rely guar (returns Stored) t)
    (hready : ∀ t info, Stored info t →
      (await (.markReady p x (finalKey p x) info)).Safe store.machine inv rely guar
        (fun _ _ => True) t)
    (hfail : ∀ t reason,
      (await (.markFailed p x reason)).Safe store.machine inv rely guar (fun _ _ => True) t)
    (hrem : ∀ t u artifact, inv t → t.row x = some artifact →
      artifact.projectId = p → artifact.state = .pending →
      (await (.remove artifact.objectKey)).Safe store.machine inv rely guar (fun _ _ => True) u) :
    (store.finalizeRequest p x payload).Safe store.machine inv rely guar (fun _ _ => True) s := by
  refine Prog.safe_bind (requiredArtifact_safe hrefl (fun _ _ _ _ => trivial) ?_)
  rintro t artifact _ hinv hrow rfl
  refine Prog.safe_raiseIf (fun _ => trivial) (fun _ => ?_)
  refine Prog.safe_bind (expectedMetadata_safe (fun _ => trivial) (fun size sha256 => ?_))
  refine Prog.safe_raiseIf (fun _ => trivial) (fun _ => ?_)
  show Prog.Safe _ _ _ _ _ (if artifact.state = .ready then _ else _) t
  split_ifs with hst
  · exact Prog.safe_raiseIf (fun _ => trivial) (fun _ => trivial)
  · refine Prog.safe_raiseIf (fun _ => trivial) (fun hnot => ?_)
    have hpend : artifact.state = .pending := not_not.mp hnot
    refine Prog.safe_bind (Prog.safe_catching ?_)
    refine (hfin t artifact size sha256 hinv hrow rfl hpend).mono ?_
    intro result u hstor
    cases result with
    | ok info => exact hready u info hstor
    | error =>
      rw [onError]
      split_ifs with href
      · exact (hfail u _).then (fun _ _ => id) fun _ v _ =>
          (hrem t v artifact hinv hrow rfl hpend).then (fun _ _ => id) (fun _ _ => id)
      · trivial

/-- A deletion fences the row, removes both objects and marks the row deleted; what is
    known grows with each step. -/
theorem deleteRequest_safe (Fenced Unstaged Emptied : ArtifactSite → Prop)
    (hbegin : (await (.beginDelete p x)).Safe store.machine inv rely guar
      (returns (fun _ => Fenced)) s)
    (hstg : ∀ t, Fenced t → (await (.remove (stagingKey p x))).Safe store.machine inv rely
      guar (returns (fun _ => Unstaged)) t)
    (hfin : ∀ t, Unstaged t → (await (.remove (finalKey p x))).Safe store.machine inv rely
      guar (returns (fun _ => Emptied)) t)
    (hdel : ∀ t, Emptied t → (await (.markDeleted p x)).Safe store.machine inv rely guar
      (fun _ _ => True) t) :
    (deleteRequest p x).Safe store.machine inv rely guar (fun _ _ => True) s := by
  have hgoes : ∀ (artifact : Artifact) t, Fenced t →
      (if artifact.state = .deleted then pure artifact else do
        removeAll [stagingKey p x, finalKey p x]
        await (.markDeleted p x) : ArtifactProg Artifact).Safe store.machine inv rely guar
          (fun _ _ => True) t := by
    intro _ t hfncd
    split_ifs with hdeld
    · trivial
    · refine Prog.safe_bind ((hstg t hfncd).then (fun _ _ => id) fun _ u hunstaged => ?_)
      exact (hfin u hunstaged).then (fun _ _ => id) fun _ v hemptied => hdel v hemptied
  exact hbegin.then (fun _ _ => id) fun artifact t hfncd => hgoes artifact t hfncd

theorem void_safe {prog : ArtifactProg α}
    (h : prog.Safe store.machine inv rely guar (fun _ _ => True) s) :
    prog.void.Safe store.machine inv rely guar (fun _ _ => True) s :=
  h.then (fun _ _ => id) (fun _ _ => id)

/-- The first operation of a request fails and ends it, or succeeds. -/
theorem first_step (store : ArtifactStore) (s : ArtifactSite) {prog : ArtifactProg Unit}
    {resume : Except ArtifactFault op.Answer → ArtifactProg Unit}
    (hprog : prog = .await op resume)
    (hends : ∀ fault, resume (.error fault) = .done (.error fault))
    (choice : Option ArtifactFault) :
    (∃ result, prog.advance store.machine choice s = (.done result, s))
      ∨ ∃ answer t, store.perform s op = .ok (answer, t)
        ∧ prog.advance store.machine choice s = (resume (.ok answer), t) := by
  subst hprog
  have hadv : (Prog.await op resume).advance store.machine choice s
      = (resume (store.machine.exec choice op s).1, (store.machine.exec choice op s).2) := rfl
  rw [hadv]
  cases choice with
  | some fault => exact .inl ⟨_, Prod.ext (hends fault) rfl⟩
  | none =>
    cases hperf : store.perform s op with
    | error fault =>
      rw [exec_error hperf]
      exact .inl ⟨_, Prod.ext (hends fault) rfl⟩
    | ok result =>
      rw [exec_ok hperf]
      exact .inr ⟨result.1, result.2, rfl, rfl⟩

/-- A request that reads its row first ends there, or has found it. -/
theorem read_step (store : ArtifactStore) (s : ArtifactSite) {prog : ArtifactProg Unit}
    {resume : Except ArtifactFault (Option Artifact) → ArtifactProg Unit}
    (hprog : prog = .await (.read p x) resume)
    (hends : ∀ fault, resume (.error fault) = .done (.error fault))
    (hmiss : ∃ result, resume (.ok none) = .done result) (choice : Option ArtifactFault) :
    (∃ result, prog.advance store.machine choice s = (.done result, s))
      ∨ ∃ artifact, s.row x = some artifact
        ∧ prog.advance store.machine choice s = (resume (.ok (some artifact)), s) := by
  rcases first_step store s hprog hends choice with hended | ⟨found, t, hread, hgoes⟩
  · exact .inl hended
  · cases hread
    rw [hgoes]
    cases hget : getArtifact s.db p x false with
    | none =>
      obtain ⟨result, hres⟩ := hmiss
      exact .inl ⟨result, by rw [hres]⟩
    | some artifact => exact .inr ⟨artifact, (getArtifact_eq_some.mp hget).1, rfl⟩

/-- An upload reads its row, and ends there unless the row is pending. -/
theorem upload_prog (store : ArtifactStore) (p x : Uuid) (request : ArtifactUpload) :
    ∃ resume, ArtifactRequest.prog store (.upload p x request) = .await (.read p x) resume
      ∧ (∀ fault, resume (.error fault) = .done (.error fault))
      ∧ (∃ result, resume (.ok none) = .done result)
      ∧ ∀ artifact, artifact.state ≠ .pending →
        ∃ result, resume (.ok (some artifact)) = .done result :=
  ⟨_, rfl, fun _ => rfl, ⟨_, rfl⟩,
    fun _ h => ⟨_, congrArg Prog.void (Prog.raiseIf_bind_pos h _ _)⟩⟩

theorem finalize_prog (store : ArtifactStore) (p x : Uuid) (payload : ArtifactObjectInfo) :
    ∃ resume, ArtifactRequest.prog store (.finalize p x payload) = .await (.read p x) resume
      ∧ (∀ fault, resume (.error fault) = .done (.error fault))
      ∧ ∃ result, resume (.ok none) = .done result :=
  ⟨_, rfl, fun _ => rfl, _, rfl⟩

theorem delete_prog (store : ArtifactStore) (p x : Uuid) :
    ∃ resume, ArtifactRequest.prog store (.delete p x) = .await (.beginDelete p x) resume
      ∧ ∀ fault, resume (.error fault) = .done (.error fault) :=
  ⟨_, rfl, fun _ => rfl⟩

theorem retire_prog (store : ArtifactStore) (rank : ObjectKey → ℕ) (p x : Uuid) :
    ∃ resume, ArtifactRequest.prog store (.retire rank p x) = .await (.retire p x) resume
      ∧ (∀ fault, resume (.error fault) = .done (.error fault))
      ∧ ∃ result, resume (.ok none) = .done result :=
  ⟨_, rfl, fun _ => rfl, _, rfl⟩

/-- A creation is refused, or has one operation. -/
theorem create_prog (store : ArtifactStore) (pending : PendingArtifact) :
    (∃ result, ArtifactRequest.prog store (.create pending) = .done result)
      ∨ ∃ resume, ArtifactRequest.prog store (.create pending)
          = .await (.create (store.staged pending)) resume
        ∧ ∀ fault, resume (.error fault) = .done (.error fault) := by
  by_cases hlarge : min store.artifactMaxBytes store.maxBytes < pending.sizeBytes
  · exact .inl ⟨_, congrArg Prog.void (Prog.raiseIf_bind_pos hlarge _ _)⟩
  · exact .inr ⟨_, (congrArg Prog.void (Prog.raiseIf_bind_neg hlarge _ _)).trans rfl,
      fun _ => rfl⟩

/-- An output is refused, or inspected. -/
theorem inspectOutput_cases (store : ArtifactStore) (name : String)
    (placeholder : OutputPlaceholder) (file : OutputFile) :
    (∃ fault, store.inspectOutput name placeholder file = .raise fault)
      ∨ ∃ bytes, store.inspectOutput name placeholder file = pure (bytes, store.info bytes) := by
  cases file with
  | missing | irregular => exact .inl ⟨_, rfl⟩
  | regular bytes =>
    by_cases hlarge : min store.artifactMaxBytes store.maxBytes < bytes.length
    · exact .inl ⟨_, Prog.raiseIf_bind_pos hlarge _ _⟩
    · by_cases hph : (store.info bytes).sizeBytes = placeholder.size
          ∧ (store.info bytes).sha256 = placeholder.sha256
      · exact .inl ⟨_, (Prog.raiseIf_bind_neg hlarge _ _).trans (Prog.raiseIf_bind_pos hph _ _)⟩
      · exact .inr ⟨bytes, (Prog.raiseIf_bind_neg hlarge _ _).trans
          (Prog.raiseIf_bind_neg hph _ _)⟩

/-- A publication has nothing to publish, or creates its row. -/
theorem publish_prog (store : ArtifactStore) (owner : ExecutionOwner) (b x : Uuid)
    (name : String) (placeholder : OutputPlaceholder) (file : OutputFile) :
    (∃ result, ArtifactRequest.prog store (.publish owner b name placeholder file x)
        = .done result)
      ∨ ∃ info resume, ArtifactRequest.prog store (.publish owner b name placeholder file x)
          = .await (.createOutput owner (store.outputRequest owner x name info)) resume
        ∧ ∀ fault, resume (.error fault) = .done (.error fault) := by
  rcases inspectOutput_cases store name placeholder file with ⟨fault, hrss⟩ | ⟨bytes, hf⟩
  · refine .inl ⟨.error fault, ?_⟩
    rw [ArtifactRequest.prog, publishFile, hrss]
    rfl
  · have hpub : store.publishFile owner b name placeholder file x
        = store.publish owner b x name bytes (store.info bytes) := by
      rw [publishFile, hf]
      rfl
    exact .inr ⟨store.info bytes, _, (congrArg Prog.void hpub).trans rfl, fun _ => rfl⟩

end Programs

end MiniAiCloud
