import MiniAiCloud.ArtifactProofs
import MiniAiCloud.References
import MiniAiCloud.RowLocks

/-! # References keep artifacts alive

    The writers of references and the operations on artifacts run as interleaved
    transactions: each locks the artifact rows it needs, reads them, and writes later;
    `begin_delete` asks for references in between.  Only the locks on artifact rows are
    modelled, the others (project, quota, task, dataset) allow fewer interleavings still.

    The headline is `referenced_artifacts_stay_ready`.  Its invariant says what each
    transaction in flight knows: the rows it read are the current ones, and a deletion
    that found no reference has none until it commits, because a new one would need the
    locked row. -/

namespace MiniAiCloud

open Transaction Reachability RowLocks OrderedQuery Table List Option

variable {y p b x : Uuid} {artifact new : Artifact} {binding : TaskArtifact} {u : Unit}

/-! ## Transactions in flight -/

/-- What a transaction has read under its locks and is about to write. -/
inductive ArtifactWork where
  | bind (taskId : Uuid) (inputIds : List Uuid) (artifacts : List (Uuid × Artifact))
      (outputs : List OutputArtifactSpec) (mint : ℕ → Uuid)
  | output (bindingId : Uuid) (binding : TaskArtifact) (artifactId : Uuid)
  | dataset (request : NewDataset)
  | version (request : NewVersion) (dataset : Dataset)
  | ready (artifactId : Uuid) (artifact : Artifact) (finalObjectKey : ObjectKey)
      (info : ArtifactObjectInfo)
  | fail (artifactId : Uuid) (artifact : Artifact) (reason : String)
  /-- `begin_delete` before it asks for references. -/
  | fence (artifactId : Uuid) (artifact : Artifact)
  /-- `begin_delete` with the answer. -/
  | fenced (artifactId : Uuid) (artifact : Artifact) (referenced : Bool)
  | delete (artifactId : Uuid) (artifact : Artifact)

/-- The writes of a transaction. -/
def ArtifactWork.txn (now : Time) : ArtifactWork → Txn Unit
  | bind taskId inputIds artifacts outputs mint =>
    void (writeBindings now taskId inputIds artifacts outputs mint)
  | output bindingId binding artifactId => void (writeOutput bindingId binding artifactId)
  | dataset request => void (writeDataset now request)
  | version request row => void (writeVersion now request row)
  | ready x artifact key info => void (readyArtifact now x artifact key info)
  | fail x artifact reason => void (failArtifact now x artifact reason)
  | fence _ _ => pure ()
  | fenced x artifact referenced => void (fenceArtifact now x artifact (referenced = true))
  | delete x artifact => void (deleteArtifact now x artifact)

inductive ReferenceOp where
  | createBindings (taskId : Uuid) (task : Task) (projectId : Uuid) (inputIds : List Uuid)
      (outputs : List OutputArtifactSpec) (mint : ℕ → Uuid)
  | bindOutput (bindingId taskId projectId artifactId : Uuid)
  | createDataset (request : NewDataset)
  | addVersion (request : NewVersion)
  | markReady (projectId artifactId : Uuid) (finalObjectKey : ObjectKey)
      (info : ArtifactObjectInfo)
  | markFailed (projectId artifactId : Uuid) (reason : String)
  | beginDelete (projectId artifactId : Uuid)
  | markDeleted (projectId artifactId : Uuid)

/-- The artifact rows a transaction locks. -/
def ReferenceOp.rows : ReferenceOp → List Uuid
  | createBindings _ _ _ inputIds _ _ => inputIds
  | bindOutput _ _ _ x => [x]
  | createDataset request => [request.artifactId]
  | addVersion request => [request.artifactId]
  | markReady _ x _ _ => [x]
  | markFailed _ x _ => [x]
  | beginDelete _ x => [x]
  | markDeleted _ x => [x]

/-- What `begin_delete` reads under its locks. -/
def lockDoomed (projectId artifactId : Uuid) : Txn Artifact := do
  let db ← get
  raiseIf (db.projects.get? projectId = none)
    (.artifactRecordNotFound "artifact project does not exist")
  raiseIf (db.quotaStates.get? projectId = none)
    (.artifactAccountingInvariant ("project " ++ toString projectId
      ++ " is missing artifact quota accounting rows"))
  requiredLocked projectId artifactId true

/-- The reads of a transaction under its locks; `none` where nothing is left to write. -/
def ReferenceOp.read : ReferenceOp → Txn (Option ArtifactWork)
  | createBindings taskId task projectId inputIds outputs mint => do
      let artifacts ← lockInputs task projectId inputIds outputs
      pure (some (.bind taskId inputIds artifacts outputs mint))
  | bindOutput bindingId taskId projectId x => do
      let (binding, found) ← lockOutput bindingId taskId projectId x
      pure (found.map (fun _ => .output bindingId binding x))
  | createDataset request => do
      let _ ← lockNewDataset request
      pure (some (.dataset request))
  | addVersion request => do
      let dataset ← lockNewVersion request
      pure (some (.version request dataset))
  | markReady projectId x key info => do
      let artifact ← requiredLocked projectId x false
      pure (some (.ready x artifact key info))
  | markFailed projectId x reason => do
      let artifact ← requiredLocked projectId x false
      pure (some (.fail x artifact reason))
  | beginDelete projectId x => do
      let artifact ← lockDoomed projectId x
      pure (some (.fence x artifact))
  | markDeleted projectId x => do
      let artifact ← requiredLocked projectId x true
      pure (some (.delete x artifact))

/-- The database, the transactions in flight, and the artifacts whose deletion a request
    or a clean-up run has begun: only these call `mark_deleted`. -/
structure Archive where
  db : Db
  sessions : Sessions Uuid ArtifactWork
  begun : List Uuid

inductive ArchiveCall where
  | start (session : ℕ) (op : ReferenceOp)
  /-- `begin_delete` asks for references. -/
  | inspect (session : ℕ)
  | finish (session : ℕ) (now : Time)
  /-- The transaction is rolled back. -/
  | abort (session : ℕ)
  | createPending (now : Time) (request : PendingArtifact)
  /-- Retention deletes tasks, and their bindings with them. -/
  | deleteTasks (taskIds : List Uuid)
  /-- What the rest of the platform does. -/
  | elsewhere (rest : Db)

/-- `mark_deleted` is called where the deletion has begun. -/
def Archive.Admits (s : Archive) : ReferenceOp → Prop
  | .markDeleted _ x => x ∈ s.begun
  | _ => True

instance (s : Archive) : (op : ReferenceOp) → Decidable (s.Admits op)
  | .markDeleted _ x => inferInstanceAs (Decidable (x ∈ s.begun))
  | .createBindings _ _ _ _ _ _ | .bindOutput _ _ _ _ | .createDataset _ | .addVersion _
  | .markReady _ _ _ _ | .markFailed _ _ _ | .beginDelete _ _ => isTrue trivial

/-- A transaction takes its locks where they are free, and reads. -/
def Archive.start (s : Archive) (session : ℕ) (op : ReferenceOp) : Archive :=
  if s.Admits op ∧ Free s.sessions op.rows ∧ s.sessions.get? session = none then
    match returned op.read s.db with
    | some (some work) => { s with sessions := s.sessions.insert session ⟨op.rows, work⟩ }
    | _ => s
  else s

def Archive.inspect (s : Archive) (session : ℕ) : Archive :=
  match s.sessions.get? session with
  | some ⟨rows, .fence x artifact⟩ => { s with
      sessions := s.sessions.set session
        ⟨rows, .fenced x artifact (decide (Referenced s.db x))⟩ }
  | _ => s

/-- The artifact whose deletion a transaction begins. -/
def ArtifactWork.begins : ArtifactWork → List Uuid
  | fenced x _ _ => [x]
  | _ => []

/-- A transaction writes, commits and gives its locks back.  One that has not asked for
    references yet has nothing to write. -/
def Archive.finish (s : Archive) (session : ℕ) (now : Time) : Archive :=
  match s.sessions.get? session with
  | none => s
  | some ⟨_, work⟩ =>
    match work.txn now s.db with
    | .ok _ db => ⟨db, s.sessions.erase session, work.begins ++ s.begun⟩
    | .error _ _ => { s with sessions := s.sessions.erase session }

/-- The bindings of deleted tasks go with them. -/
def Db.withoutTasks (db : Db) (taskIds : List Uuid) : Db :=
  db.withTaskArtifacts
    (db.library.taskArtifacts.keep (fun _ binding => binding.taskId ∉ taskIds))

/-- At first there are no references, no transactions and no deletions. -/
def archive : System Archive ArchiveCall where
  init s := (∀ x, ¬ Referenced s.db x) ∧ s.sessions = .empty ∧ s.begun = []
  step
    | .start session op, s => s.start session op
    | .inspect session, s => s.inspect session
    | .finish session now, s => s.finish session now
    | .abort session, s => { s with sessions := s.sessions.erase session }
    | .createPending now request, s =>
      { s with db := commit (createPending now request) s.db }
    | .deleteTasks taskIds, s => { s with db := s.db.withoutTasks taskIds }
    | .elsewhere rest, s => { s with db := { rest with library := s.db.library } }

/-! ## What the writers of references do -/

theorem referenced_iff {db : Db} : Referenced db x
      ↔ (∃ b binding, db.library.taskArtifacts.get? b = some binding
          ∧ binding.artifactId = some x)
        ∨ ∃ k version, db.library.datasetVersions.get? k = some version
          ∧ version.artifactId = x := by
  constructor
  · rintro (⟨⟨b, binding⟩, hrow, hx⟩ | ⟨⟨k, version⟩, hrow, hx⟩)
    · exact .inl ⟨b, binding, mem_rows.mp hrow, hx⟩
    · exact .inr ⟨k, version, mem_rows.mp hrow, hx⟩
  · rintro (⟨b, binding, hget, hx⟩ | ⟨k, version, hget, hx⟩)
    · exact .inl ⟨(b, binding), mem_rows.mpr hget, hx⟩
    · exact .inr ⟨(k, version), mem_rows.mpr hget, hx⟩

/-- The artifacts stay as they are, and new references name some of them only. -/
structure Adds (xs : List Uuid) (db db' : Db) : Prop where
  artifacts : db'.library.artifacts = db.library.artifacts
  refers : ∀ y, Referenced db' y → Referenced db y ∨ y ∈ xs

section Adding

variable {now : Time} {xs : List Uuid} {db mid db' : Db} {u : Unit}

theorem Adds.refl (xs : List Uuid) (db : Db) : Adds xs db db := ⟨rfl, fun _ h => .inl h⟩

theorem Adds.trans (h : Adds xs db mid) (h' : Adds xs mid db') : Adds xs db db' where
  artifacts := h'.artifacts.trans h.artifacts
  refers y hy := (h'.refers y hy).elim (h.refers y) Or.inr

/-- A library with the same bindings and versions has the same references. -/
theorem Adds.of_library (harts : db'.library.artifacts = db.library.artifacts)
    (hbinds : db'.library.taskArtifacts = db.library.taskArtifacts)
    (hversions : db'.library.datasetVersions = db.library.datasetVersions) :
    Adds xs db db' := by
  refine ⟨harts, fun y hy => .inl ?_⟩
  rw [Referenced, hbinds, hversions] at hy
  exact hy

theorem insertBinding_adds (h : insertBinding b binding db = .ok u db')
    (hxs : ∀ x ∈ binding.artifactId, x ∈ xs) :
    Adds xs db db' := by
  rw [insertBinding, bind_get] at h
  simp only [↓raise_ok, modify_ok] at h
  obtain ⟨_, _, _, hdb⟩ := h
  rw [hdb]
  refine ⟨rfl, ?_⟩
  intro y hy
  rcases referenced_iff.mp hy with ⟨b', binding', hget, hname⟩ | hver
  · rcases get?_insert_cases hget with ⟨_, rfl⟩ | hold
    · exact .inr (hxs y hname)
    · exact .inl (referenced_iff.mpr (.inl ⟨b', binding', hold, hname⟩))
  · exact .inl (referenced_iff.mpr (.inr hver))

theorem insertBindings_adds :
    ∀ {rows : List (Uuid × TaskArtifact)} {db db' : Db}, insertBindings rows db = .ok u db' →
      (∀ row ∈ rows, ∀ x ∈ row.2.artifactId, x ∈ xs) → Adds xs db db' := by
  intro rows
  induction rows with
  | nil =>
    intro db _ h _
    rw [insertBindings, pure_ok] at h
    rw [← h.2]
    exact Adds.refl xs db
  | cons row _ ih =>
    intro _ _ h hxs
    obtain ⟨_, _, hfirst, hr⟩ := bind_ok.mp h
    exact (insertBinding_adds hfirst (hxs row mem_cons_self)).trans
      (ih hr (fun row' hrow' => hxs row' (mem_cons_of_mem _ hrow')))

theorem validateOutput_reads (output : OutputArtifactSpec) : Reads (validateOutput output) :=
  .bind (.check (.pure _)) fun _ => .bind (.check (.check (.pure _))) fun _ => .pure _

theorem validateOutputs_reads (outputs : List OutputArtifactSpec) :
    Reads (validateOutputs outputs) := by
  induction outputs with
  | nil => exact .pure _
  | cons output _ ih =>
    exact .bind (validateOutput_reads output) fun _ => .bind ih fun _ => .pure _

/-- The bindings of a task refer to the artifacts that were locked for it. -/
theorem writeBindings_adds {taskId : Uuid} {inputIds : List Uuid}
    {artifacts : List (Uuid × Artifact)} {outputs : List OutputArtifactSpec} {mint : ℕ → Uuid}
    {bindings : List TaskArtifact}
    (h : writeBindings now taskId inputIds artifacts outputs mint db = .ok bindings db') :
    Adds (artifacts.map Prod.fst) db db' := by
  simp only [writeBindings, bind_ok, ↓raise_ok, pure_ok] at h
  obtain ⟨_, _, hspecs, _, _, _, _, hins, _, rfl⟩ := h
  rw [(validateOutputs_reads outputs).of_ok hspecs] at hins
  refine insertBindings_adds hins ?_
  intro _ hrow x hx
  obtain ⟨⟨_, _⟩, hbind, rfl⟩ := mem_map.mp hrow
  rcases mem_append.mp (fst_mem_of_mem_zipIdx hbind) with hinput | houtput
  · obtain ⟨⟨artifactId, i⟩, _, hinput⟩ := mem_filterMap.mp hinput
    obtain ⟨artifact, hlookup, rfl⟩ := map_eq_some_iff.mp hinput
    obtain rfl : artifactId = x := some.inj hx
    obtain ⟨_, _, rfl, _⟩ := lookup_eq_some_iff.mp hlookup
    exact mem_map.mpr ⟨(artifactId, artifact), by simp, rfl⟩
  · obtain ⟨_, _, rfl⟩ := mem_map.mp houtput
    cases hx

theorem writeOutput_adds {binding' : TaskArtifact}
    (h : writeOutput b binding x db = .ok binding' db') : Adds [x] db db' := by
  simp only [writeOutput, bind_ok, modify_ok, pure_ok] at h
  obtain ⟨_, _, hdb, _, rfl⟩ := h
  rw [hdb]
  refine ⟨rfl, ?_⟩
  intro y hy
  rcases referenced_iff.mp hy with ⟨b', other, hget, hname⟩ | hver
  · rcases get?_set_cases hget with ⟨_, rfl⟩ | ⟨_, hold⟩
    · exact .inr (mem_singleton.mpr (some.inj hname).symm)
    · exact .inl (referenced_iff.mpr (.inl ⟨b', other, hold, hname⟩))
  · exact .inl (referenced_iff.mpr (.inr hver))

theorem insertVersion_adds {d : Uuid} {n : ℤ} {row : DatasetVersion}
    (h : insertVersion d n row db = .ok u db') : Adds [row.artifactId] db db' := by
  rw [insertVersion, bind_get] at h
  simp only [↓raise_ok, modify_ok] at h
  obtain ⟨_, hdb⟩ := h
  rw [hdb]
  refine ⟨rfl, ?_⟩
  intro y hy
  rcases referenced_iff.mp hy with hbind | ⟨k, version, hget, hname⟩
  · exact .inl (referenced_iff.mpr (.inl hbind))
  · rcases get?_insert_cases hget with ⟨_, rfl⟩ | hold
    · exact .inr (mem_singleton.mpr hname.symm)
    · exact .inl (referenced_iff.mpr (.inr ⟨k, version, hold, hname⟩))

theorem writeDataset_adds {request : NewDataset} {version : DatasetVersion}
    (h : writeDataset now request db = .ok version db') : Adds [request.artifactId] db db' := by
  rw [writeDataset, bind_get] at h
  simp only [bind_ok, ↓raise_ok, modify_ok, pure_ok] at h
  obtain ⟨_, _, _, _, hmid, _, _, hins, _, rfl⟩ := h
  refine Adds.trans ?_ (insertVersion_adds hins)
  rw [hmid]
  exact Adds.of_library rfl rfl rfl

theorem writeVersion_adds {request : NewVersion} {dataset : Dataset} {version : DatasetVersion}
    (h : writeVersion now request dataset db = .ok version db') :
    Adds [request.artifactId] db db' := by
  simp only [writeVersion, bind_ok, modify_ok, pure_ok] at h
  obtain ⟨_, _, hins, _, _, hlast, _, rfl⟩ := h
  refine Adds.trans (insertVersion_adds hins) ?_
  rw [hlast]
  exact Adds.of_library rfl rfl rfl

end Adding

/-! ## What the readers know -/

/-- The row of an artifact that is ready. -/
def ReadyIn (db : Db) (x : Uuid) : Prop :=
  ∃ artifact, db.library.artifacts.get? x = some artifact ∧ artifact.state = .ready

/-- The row of an artifact whose deletion has begun. -/
def DoomedIn (db : Db) (x : Uuid) : Prop :=
  ∃ artifact, db.library.artifacts.get? x = some artifact
    ∧ (artifact.state = .deleting ∨ artifact.state = .deleted)

/-- The artifacts a transaction writes or refers to. -/
def ArtifactWork.names : ArtifactWork → List Uuid
  | bind _ _ artifacts _ _ => artifacts.map Prod.fst
  | output _ _ x => [x]
  | dataset request => [request.artifactId]
  | version request _ => [request.artifactId]
  | ready x _ _ _ | fail x _ _ | fence x _ | fenced x _ _ | delete x _ => [x]

/-- What a transaction has read still holds. -/
def ArtifactWork.Current (db : Db) : ArtifactWork → Prop
  | bind _ _ artifacts _ _ => ∀ x ∈ artifacts.map Prod.fst, ReadyIn db x
  | output _ _ x => ReadyIn db x
  | dataset request => ReadyIn db request.artifactId
  | version request _ => ReadyIn db request.artifactId
  | ready x artifact _ _ | fail x artifact _ | fence x artifact =>
    db.library.artifacts.get? x = some artifact
  | fenced x artifact referenced =>
    db.library.artifacts.get? x = some artifact
      ∧ (referenced = false → ¬ Referenced db x)
  | delete x artifact =>
    db.library.artifacts.get? x = some artifact
      ∧ (artifact.state = .deleting ∨ artifact.state = .deleted)

/-- A session reads current rows, and has locked those it writes or refers to. -/
def Informed (db : Db) (session : Session Uuid ArtifactWork) : Prop :=
  session.work.Current db ∧ ∀ x ∈ session.work.names, x ∈ session.rows

section Reading

variable {now : Time} {db db' : Db} {x : Uuid} {work : ArtifactWork}

/-- What a transaction knows depends on its own rows only. -/
theorem ArtifactWork.Current.frame (h : work.Current db)
    (hrows : ∀ y ∈ work.names, ∀ artifact, db.library.artifacts.get? y = some artifact →
      db'.library.artifacts.get? y = some artifact)
    (hrefs : ∀ y ∈ work.names, Referenced db' y → Referenced db y) : work.Current db' := by
  have hready : ∀ y ∈ work.names, ReadyIn db y → ReadyIn db' y :=
    fun y hy ⟨artifact, hget, hst⟩ => ⟨artifact, hrows y hy artifact hget, hst⟩
  have hone : ∀ {y : Uuid}, y ∈ [y] := mem_singleton_self _
  cases work with
  | bind _ _ artifacts _ _ => exact fun y hy => hready y hy (h y hy)
  | output _ _ y => exact hready y hone h
  | dataset request | version request _ => exact hready _ hone h
  | ready y artifact _ _ | fail y artifact _ | fence y artifact => exact hrows y hone artifact h
  | fenced y artifact =>
    exact ⟨hrows y hone artifact h.1, fun hnot hy => h.2 hnot (hrefs y hone hy)⟩
  | delete y artifact => exact ⟨hrows y hone artifact h.1, h.2⟩

/-- `create_bindings` goes on with ready inputs. -/
theorem lockInputs_ok {task : Task} {projectId : Uuid} {inputIds : List Uuid}
    {outputs : List OutputArtifactSpec} {artifacts : List (Uuid × Artifact)}
    (h : lockInputs task projectId inputIds outputs db = .ok artifacts db') :
    ∀ y ∈ artifacts.map Prod.fst, ReadyIn db y ∧ y ∈ inputIds := by
  simp only [lockInputs, bind_ok, raiseIf_ok, ↓bind_get, pure_ok] at h
  obtain ⟨_, _, ⟨_, rfl⟩, _, _, ⟨_, rfl⟩, _, _, ⟨_, rfl⟩, _, _, ⟨_, rfl⟩, _, _, ⟨hready, rfl⟩,
      rfl, _⟩ := h
  intro y hy
  obtain ⟨⟨y', artifact⟩, hrow, rfl⟩ := mem_map.mp hy
  have hst : artifact.state = .ready := by
    by_contra hnot
    exact hready ⟨(y', artifact), hrow, .inl hnot⟩
  obtain ⟨hget, hwhere⟩ := mem_select.mp (mem_orderBy.mp hrow)
  rw [decide_eq_true_iff] at hwhere
  exact ⟨⟨artifact, hget, hst⟩, hwhere.1⟩

/-- `bind_output` goes on with a ready artifact. -/
theorem lockOutput_ok {t : Uuid} (h : lockOutput b t p x db = .ok (binding, some artifact) db') :
    ReadyIn db x := by
  simp only [lockOutput, bind_ok, ↓raise_ok, get_ok, expect_ok] at h
  obtain ⟨_, _, ⟨rfl, rfl⟩, _, row, _, ⟨_, rfl⟩, hr⟩ := h
  cases hbound : row.artifactId with
  | some =>
    simp only [hbound, bind_ok, pure_ok, Prod.mk.injEq, reduceCtorEq, and_false, false_and,
      exists_false] at hr
  | none =>
    simp only [hbound, bind_ok, expect_ok, pure_ok, Prod.mk.injEq] at hr
    obtain ⟨found, _, ⟨hf, rfl⟩, _⟩ := hr
    obtain ⟨hget, hwhere⟩ := filter_eq_some_iff.mp hf
    rw [decide_eq_true_iff] at hwhere
    exact ⟨found, hget, hwhere.2.1⟩

/-- A dataset version is written for a ready artifact. -/
theorem lockReadyArtifact_ok (h : lockReadyArtifact p x db = .ok artifact db') :
    ReadyIn db x := by
  simp only [lockReadyArtifact, bind_ok, ↓raise_ok, get_ok, ↓bind_expect, pure_ok] at h
  obtain ⟨_, _, ⟨rfl, rfl⟩, found, hf, hready, rfl, _⟩ := h
  have hst : found.state = .ready := by
    by_contra hnot
    exact hready (.inl hnot)
  exact ⟨found, (getArtifact_eq_some.mp hf).1, hst⟩

theorem lockDatasetProject_ok (h : lockDatasetProject p db = .ok u db') : db' = db := by
  simp only [lockDatasetProject, bind_ok, raiseIf_ok, get_ok] at h
  obtain ⟨_, _, ⟨_, rfl⟩, _, rfl⟩ := h
  rfl

theorem lockNewDataset_ok {request : NewDataset}
    (h : lockNewDataset request db = .ok artifact db') : ReadyIn db request.artifactId := by
  simp only [lockNewDataset, bind_ok, raiseIf_ok, get_ok] at h
  obtain ⟨_, _, hproj, _, _, ⟨_, rfl⟩, _, _, ⟨_, rfl⟩, hart⟩ := h
  rw [lockDatasetProject_ok hproj] at hart
  exact lockReadyArtifact_ok hart

theorem lockNewVersion_ok {request : NewVersion} {row : Dataset}
    (h : lockNewVersion request db = .ok row db') : ReadyIn db request.artifactId := by
  simp only [lockNewVersion, bind_ok, get_ok, expect_ok] at h
  obtain ⟨_, _, hproj, _, _, ⟨_, rfl⟩, _, _, ⟨_, rfl⟩, _, _, hart, _⟩ := h
  rw [lockDatasetProject_ok hproj] at hart
  exact lockReadyArtifact_ok hart

theorem lockDoomed_ok (h : lockDoomed p x db = .ok artifact db') :
    db.library.artifacts.get? x = some artifact := by
  simp only [lockDoomed, bind_ok, ↓raise_ok, get_ok] at h
  obtain ⟨_, _, ⟨rfl, rfl⟩, _, _, hart⟩ := h
  exact (requiredLocked_ok.mp hart).1.1

/-- **A TRANSACTION STARTS INFORMED**: it has locked what it goes on to write. -/
theorem ReferenceOp.read_informed {op : ReferenceOp}
    (hbegun : ∀ p y, op = .markDeleted p y → DoomedIn db y)
    (h : op.read db = .ok (some work) db') : Informed db ⟨op.rows, work⟩ := by
  cases op with
  | createBindings =>
    obtain ⟨_, _, hlock, hr⟩ := bind_ok.mp h
    obtain rfl := some.inj (pure_ok.mp hr).1
    exact ⟨fun y hy => (lockInputs_ok hlock y hy).1, fun y hy => (lockInputs_ok hlock y hy).2⟩
  | bindOutput _ _ _ y =>
    obtain ⟨⟨_, _⟩, _, hlock, hr⟩ := bind_ok.mp h
    obtain ⟨_, rfl, rfl⟩ := map_eq_some_iff.mp (pure_ok.mp hr).1
    exact ⟨lockOutput_ok hlock, fun y hy => hy⟩
  | createDataset =>
    obtain ⟨_, _, hlock, hr⟩ := bind_ok.mp h
    obtain rfl := some.inj (pure_ok.mp hr).1
    exact ⟨lockNewDataset_ok hlock, fun y hy => hy⟩
  | addVersion =>
    obtain ⟨_, _, hlock, hr⟩ := bind_ok.mp h
    obtain rfl := some.inj (pure_ok.mp hr).1
    exact ⟨lockNewVersion_ok hlock, fun y hy => hy⟩
  | markReady projectId y key info | markFailed projectId y reason =>
    obtain ⟨_, _, hlock, hr⟩ := bind_ok.mp h
    obtain rfl := some.inj (pure_ok.mp hr).1
    exact ⟨(requiredLocked_ok.mp hlock).1.1, fun y hy => hy⟩
  | beginDelete _ y =>
    obtain ⟨_, _, hlock, hr⟩ := bind_ok.mp h
    obtain rfl := some.inj (pure_ok.mp hr).1
    exact ⟨lockDoomed_ok hlock, fun y hy => hy⟩
  | markDeleted projectId y =>
    obtain ⟨_, _, hlock, hr⟩ := bind_ok.mp h
    obtain rfl := some.inj (pure_ok.mp hr).1
    obtain ⟨⟨hget, _⟩, _⟩ := requiredLocked_ok.mp hlock
    obtain ⟨_, hf, hst⟩ := hbegun projectId y rfl
    obtain rfl := mem_unique hget hf
    exact ⟨⟨hget, hst⟩, fun y hy => hy⟩

end Reading

/-! ## What a transaction leaves -/

/-- The references stay, and one artifact gets a new row. -/
def Rewrites (x : Uuid) (artifact : Artifact) (db db' : Db) : Prop :=
  db'.library = { db.library with artifacts := db.library.artifacts.set x artifact }

/-- What a committed transaction has done to the artifacts it names. -/
inductive Outcome (names : List Uuid) (db db' : Db) : Prop where
  /-- It refers to ready artifacts. -/
  | refers {xs : List Uuid} (hadds : Adds xs db db') (hnames : ∀ x ∈ xs, x ∈ names)
      (hready : ∀ x ∈ xs, ReadyIn db x)
  /-- It rewrites an artifact, which stays ready if it is referenced and doomed if it is
      doomed. -/
  | rewrites {x : Uuid} {old new : Artifact} (hx : x ∈ names)
      (hget : db.library.artifacts.get? x = some old) (hrewrites : Rewrites x new db db')
      (hready : Referenced db x → new.state = .ready)
      (hdoomed : old.state = .deleting ∨ old.state = .deleted →
        new.state = .deleting ∨ new.state = .deleted)

section Committing

variable {now : Time} {db db' : Db} {x : Uuid} {work : ArtifactWork} {names : List Uuid}

theorem Rewrites.referenced (h : Rewrites x new db db') :
    Referenced db' y ↔ Referenced db y := by
  rw [Referenced, h]
  exact Iff.rfl

theorem Outcome.same : Outcome names db db :=
  .refers (Adds.refl [] db) (fun _ h => nomatch h) (fun _ h => nomatch h)

/-- Everything a transaction does not name is as it was. -/
theorem Outcome.frame (h : Outcome names db db') (hy : y ∉ names) :
    db'.library.artifacts.get? y = db.library.artifacts.get? y
      ∧ (Referenced db' y → Referenced db y) := by
  cases h with
  | refers hadds hnames =>
    rw [hadds.artifacts]
    exact ⟨rfl, fun h => (hadds.refers y h).resolve_right (fun hxs => hy (hnames y hxs))⟩
  | rewrites hx _ hrew =>
    rw [hrew]
    exact ⟨get?_set_ne _ _ (fun h => hy (h ▸ hx)), hrew.referenced.mp⟩

theorem Outcome.ready (h : Outcome names db db') (hbef : ∀ y, Referenced db y → ReadyIn db y)
    (hy : Referenced db' y) :
    ReadyIn db' y := by
  cases h with
  | refers hadds _ hready =>
    rw [ReadyIn, hadds.artifacts]
    exact (hadds.refers y hy).elim (hbef y) (hready y)
  | @rewrites z old new _ hget hrew hready _ =>
    have hold := hrew.referenced.mp hy
    rw [ReadyIn, hrew]
    by_cases hyz : y = z
    · subst hyz
      exact ⟨new, get?_set_self hget new, hready hold⟩
    · obtain ⟨artifact, hart, hst⟩ := hbef y hold
      exact ⟨artifact, (get?_set_ne _ _ hyz).trans hart, hst⟩

theorem Outcome.doomed (h : Outcome names db db') (hy : DoomedIn db y) :
    DoomedIn db' y := by
  cases h with
  | refers hadds =>
    rw [DoomedIn, hadds.artifacts]
    exact hy
  | @rewrites z old new _ hget hrew _ hdoom =>
    obtain ⟨artifact, hart, hst⟩ := hy
    rw [DoomedIn, hrew]
    by_cases hyz : y = z
    · subst hyz
      obtain rfl := mem_unique hget hart
      exact ⟨new, get?_set_self hget new, hdoom hst⟩
    · exact ⟨artifact, (get?_set_ne _ _ hyz).trans hart, hst⟩

/-- A pending artifact has no references, so it may go to any state. -/
theorem Outcome.of_pending {old : Artifact} (hbef : ∀ y, Referenced db y → ReadyIn db y)
    (hget : db.library.artifacts.get? x = some old) (hpend : old.state = .pending)
    (hrew : Rewrites x new db db') : Outcome [x] db db' := by
  refine .rewrites (mem_singleton_self x) hget hrew ?_ ?_
  · intro hrefd
    obtain ⟨_, hart, hready⟩ := hbef x hrefd
    obtain rfl := mem_unique hget hart
    exact absurd (hready.symm.trans hpend) (by decide)
  · intro hdoom
    rw [hpend] at hdoom
    exact absurd hdoom (by decide)

theorem Db.releasing_rewrites {old : Artifact}
    (h : db' = (db.releasing now old).withArtifacts (db.library.artifacts.set x new)) :
    Rewrites x new db db' := by
  rw [Rewrites, h, Db.withArtifacts, Db.releasing_library]

/-- **A TRANSACTION COMMITS**: an informed transaction keeps referenced artifacts ready. -/
theorem ArtifactWork.txn_outcome (hbef : ∀ y, Referenced db y → ReadyIn db y)
    (hcur : work.Current db) (h : work.txn now db = .ok u db') :
    Outcome work.names db db' := by
  cases work with
  | bind =>
    obtain ⟨_, hwrite⟩ := void_ok h
    exact .refers (writeBindings_adds hwrite) (fun y hy => hy) hcur
  | output _ _ y =>
    obtain ⟨_, hwrite⟩ := void_ok h
    exact .refers (writeOutput_adds hwrite) (fun y hy => hy)
      (fun z hz => mem_singleton.mp hz ▸ hcur)
  | dataset =>
    obtain ⟨_, hwrite⟩ := void_ok h
    exact .refers (writeDataset_adds hwrite) (fun y hy => hy)
      (fun z hz => mem_singleton.mp hz ▸ hcur)
  | version =>
    obtain ⟨_, hwrite⟩ := void_ok h
    exact .refers (writeVersion_adds hwrite) (fun y hy => hy)
      (fun z hz => mem_singleton.mp hz ▸ hcur)
  | ready =>
    obtain ⟨_, hwrite⟩ := void_ok h
    obtain ⟨_, _, ⟨_, _, _, rfl⟩ | ⟨hpend, _, hdb⟩⟩ := readyArtifact_ok hwrite
    · exact .same
    · exact .of_pending hbef hcur hpend (congrArg Db.library hdb)
  | fail =>
    obtain ⟨_, hwrite⟩ := void_ok h
    obtain ⟨_, _, rfl⟩ | ⟨hpend, _, hdb⟩ := failArtifact_ok hwrite
    · exact .same
    · exact .of_pending hbef hcur hpend (Db.releasing_rewrites hdb)
  | fence =>
    rw [(pure_ok.mp h).2]
    exact .same
  | fenced y =>
    obtain ⟨_, hwrite⟩ := void_ok h
    obtain ⟨_, _, rfl⟩ | ⟨hnot, hfree, rfl, hdb⟩ := fenceArtifact_ok hwrite
    · exact .same
    · exact .rewrites (mem_singleton_self y) hcur.1 (Db.releasing_rewrites hdb)
        (fun hy => absurd hy (hcur.2 (Bool.eq_false_iff.mpr hfree)))
        (fun hdoom => absurd hdoom hnot)
  | delete y =>
    obtain ⟨_, hwrite⟩ := void_ok h
    obtain ⟨_, _, rfl⟩ | ⟨_, rfl, hdb⟩ := deleteArtifact_ok hwrite
    · exact .same
    · refine .rewrites (mem_singleton_self y) hcur.1 (Db.releasing_rewrites hdb) ?_
        (fun _ => .inr rfl)
      -- what is referenced is ready, and the row was found deleting
      intro hrefd
      obtain ⟨_, hf, hready⟩ := hbef y hrefd
      obtain rfl := mem_unique hcur.1 hf
      have hdoom := hcur.2
      rw [hready] at hdoom
      exact absurd hdoom (by decide)

/-- A deletion that has begun is there to see. -/
theorem ArtifactWork.begins_doomed (hcur : work.Current db)
    (h : work.txn now db = .ok u db') (hy : y ∈ work.begins) : DoomedIn db' y := by
  cases work with
  | fenced _ old =>
    obtain rfl := mem_singleton.mp hy
    obtain ⟨_, hwrite⟩ := void_ok h
    obtain ⟨hdoom, _, rfl⟩ | ⟨_, _, rfl, hdb⟩ := fenceArtifact_ok hwrite
    · exact ⟨old, hcur.1, hdoom⟩
    · rw [DoomedIn, Db.releasing_rewrites hdb]
      exact ⟨_, get?_set_self hcur.1 _, .inl rfl⟩
  | _ => cases hy

end Committing

/-! ## The invariant -/

/-- Referenced artifacts are ready, and every transaction in flight knows its rows. -/
structure Archive.Sound (s : Archive) : Prop where
  ready : ∀ x, Referenced s.db x → ReadyIn s.db x
  exclusive : Exclusive s.sessions
  informed : Knows (Informed s.db) s.sessions
  begun : ∀ x ∈ s.begun, DoomedIn s.db x

section Running

variable {s : Archive} {db' : Db}

variable (h : s.Sound)

include h

/-- A change of the database that keeps the rows it finds and adds no references. -/
theorem Archive.Sound.keeping (hrows : ∀ y artifact, s.db.library.artifacts.get? y = some artifact →
      db'.library.artifacts.get? y = some artifact)
    (hrefs : ∀ y, Referenced db' y → Referenced s.db y) :
    ({ s with db := db' } : Archive).Sound where
  ready y hy := by
    obtain ⟨artifact, hget, hst⟩ := h.ready y (hrefs y hy)
    exact ⟨artifact, hrows y artifact hget, hst⟩
  exclusive := h.exclusive
  informed i session hsess :=
    ⟨(h.informed i session hsess).1.frame (fun y _ => hrows y) (fun y _ => hrefs y),
      (h.informed i session hsess).2⟩
  begun y hy := by
    obtain ⟨artifact, hget, hst⟩ := h.begun y hy
    exact ⟨artifact, hrows y artifact hget, hst⟩

/-- The locks of a transaction that is rolled back. -/
theorem Archive.Sound.erase (i : ℕ) : ({ s with sessions := s.sessions.erase i } : Archive).Sound :=
  ⟨h.ready, h.exclusive.erase, h.informed.erase, h.begun⟩

theorem Archive.Sound.start (i : ℕ) (op : ReferenceOp) : (s.start i op).Sound := by
  rw [Archive.start]
  split_ifs with hopen
  · obtain ⟨hadmits, hfree, _⟩ := hopen
    split
    · rename_i work hread
      obtain ⟨_, hok⟩ := returned_eq_some.mp hread
      have hbegun : ∀ p y, op = .markDeleted p y → DoomedIn s.db y := by
        rintro p y rfl
        exact h.begun y hadmits
      exact ⟨h.ready, h.exclusive.insert hfree, h.informed.insert (op.read_informed hbegun hok),
        h.begun⟩
    · exact h
  · exact h

/-- The answer to the question for references is true when it is given. -/
theorem Archive.Sound.inspect (i : ℕ) : (s.inspect i).Sound := by
  rw [Archive.inspect]
  split
  · rename_i rows x artifact hsess
    obtain ⟨hcur, hrows⟩ := h.informed i _ hsess
    refine ⟨h.ready, h.exclusive.set hsess rfl, h.informed.set ⟨⟨hcur, ?_⟩, hrows⟩, h.begun⟩
    exact fun hn => of_decide_eq_false hn
  · exact h

/-- **A TRANSACTION ENDS**: the others hold other rows, so what they know stays true. -/
theorem Archive.Sound.finish (i : ℕ) (now : Time) : (s.finish i now).Sound := by
  rw [Archive.finish]
  split
  · exact h
  · rename_i rows work hsess
    obtain ⟨hcur, hrows⟩ := h.informed i _ hsess
    split
    · rename_i db' hok
      have hout := work.txn_outcome h.ready hcur hok
      refine ⟨fun y => hout.ready h.ready, h.exclusive.erase, ?_, ?_⟩
      · refine h.informed.frame h.exclusive hsess ?_
        rintro t hdisjoint ⟨htcurrent, htrows⟩
        have hoth : ∀ y ∈ t.work.names, y ∉ work.names :=
          fun y hy hy' => hdisjoint y (htrows y hy) (hrows y hy')
        refine ⟨htcurrent.frame ?_ ?_, htrows⟩
        · intro y hy _ hget
          rw [(hout.frame (hoth y hy)).1]
          exact hget
        · intro y hy
          exact (hout.frame (hoth y hy)).2
      · intro y hy
        rcases mem_append.mp hy with hnew | hold
        · exact work.begins_doomed hcur hok hnew
        · exact hout.doomed (h.begun y hold)
    · exact h.erase i

theorem Archive.Sound.createPending (now : Time) (request : PendingArtifact) :
    ({ s with db := commit (createPending now request) s.db } : Archive).Sound := by
  cases hrun : MiniAiCloud.createPending now request s.db with
  | error =>
    rw [commit_of_error hrun]
    exact h
  | ok =>
    rw [commit_of_ok hrun]
    obtain ⟨_, _, _, _, _, _, _, _, _, rfl⟩ := createPending_ok hrun
    exact h.keeping (fun _ _ hget => get?_insert_of_some hget _) (fun _ hy => hy)

omit h

/-- Deleted tasks take references away. -/
theorem Db.referenced_of_withoutTasks {db : Db} {taskIds : List Uuid}
    (h : Referenced (db.withoutTasks taskIds) x) : Referenced db x := by
  rcases referenced_iff.mp h with ⟨b, binding, hget, hx⟩ | hver
  · exact referenced_iff.mpr (.inl ⟨b, binding, (get?_keep.mp hget).1, hx⟩)
  · exact referenced_iff.mpr (.inr hver)

theorem Archive.Sound.step (h : s.Sound) (call : ArchiveCall) : (archive.step call s).Sound := by
  cases call with
  | start i op => exact h.start i op
  | inspect i => exact h.inspect i
  | finish i now => exact h.finish i now
  | abort i => exact h.erase i
  | createPending now request => exact h.createPending now request
  | deleteTasks =>
    exact h.keeping (fun _ _ hget => hget) (fun _ hy => Db.referenced_of_withoutTasks hy)
  | elsewhere rest => exact h.keeping (fun _ _ hget => hget) (fun _ hy => hy)

end Running

end MiniAiCloud
