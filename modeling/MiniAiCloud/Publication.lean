import MiniAiCloud.ReadyBytesProofs

/-! # Publishing the outputs of an attempt

    When the process of an attempt has exited with code 0, the worker publishes every
    declared output that the process produced, each in three transactions around two calls of
    the store, and reports success if all of that went through.  A declaration belongs to the
    task and not to the attempt: the artifact that an earlier attempt bound to it stays bound.

    What an attempt comes to is computed here for a run in which nothing outside fails.  It
    reports success exactly when none of the outputs it produced is bound already; the
    compensation of a refused commit releases the new artifact and never the old binding. -/

namespace MiniAiCloud

open Transaction Async OrderedQuery Table List Option ArtifactStore Prog

variable {binding : TaskArtifact} {db : Db} {b x p taskId : Uuid} {α : Type} {bytes : Bytes}
  {placeholder : OutputPlaceholder}

/-! ## The report -/

/-- The settings that go into a report, and how an exception is put into words:
    `redact_text(str(exc), secret_values)`. -/
structure ExecutorSettings where
  retryMaxBackoffSeconds : ℚ
  cpuPricePerHour : ℚ
  gpuPricePerHour : ℚ
  safeError : ArtifactFault → String

/-- The report of an attempt that published its outputs. -/
def ExecutorSettings.succeeded (settings : ExecutorSettings) : Report where
  target := .succeeded
  exitCode := some 0
  errorMessage := none
  retryMaxBackoffSeconds := settings.retryMaxBackoffSeconds
  cpuPricePerHour := settings.cpuPricePerHour
  gpuPricePerHour := settings.gpuPricePerHour

/-- The report of `except Exception`. -/
def ExecutorSettings.failed (settings : ExecutorSettings) (fault : ArtifactFault) : Report where
  target := .failed
  exitCode := none
  errorMessage := some (settings.safeError fault)
  errorCategory := some .internalError
  retryMaxBackoffSeconds := settings.retryMaxBackoffSeconds
  cpuPricePerHour := settings.cpuPricePerHour
  gpuPricePerHour := settings.gpuPricePerHour

/-- What the handlers of `execute` make of an exception; a stale execution is discarded
    without a report. -/
def ExecutorSettings.onFault (settings : ExecutorSettings) : ArtifactFault → Option Report
  | .record (.staleExecution _) => none
  | fault => some (settings.failed fault)

/-- The end of `execute` after exit code 0: the report that is made of the attempt. -/
def ArtifactStore.exitReport (store : ArtifactStore) (settings : ExecutorSettings)
    (owner : ExecutionOwner) (outputs : List OutputMount) : ArtifactProg (Option Report) :=
  catching (fun _ => true) (fun fault => pure (settings.onFault fault)) (do
    let _ ← store.publishOutputs owner outputs
    pure (some settings.succeeded))

/-! ## What an attempt can count on -/

/-- A digest is written as `normalize_sha256` writes it. -/
def ArtifactStore.NormalDigest (store : ArtifactStore) : Prop :=
  ∀ bytes, isSha256 (store.digest bytes) = true
    ∧ (pyStrip (store.digest bytes)).map Char.toLower = store.digest bytes

/-- The bytes the process left at the path of an output, unless it left what the worker had
    put there. -/
def ArtifactStore.produced (store : ArtifactStore) (mount : OutputMount) : Option Bytes :=
  match mount.file, mount.placeholder with
  | .regular bytes, some placeholder =>
    if (store.info bytes).sizeBytes = placeholder.size
        ∧ (store.info bytes).sha256 = placeholder.sha256 then none
    else some bytes
  | _, _ => none

/-- The bytes of all outputs together. -/
def ArtifactStore.volume (store : ArtifactStore) (outputs : List OutputMount) : ℤ :=
  (outputs.map (fun mount => (((store.produced mount).map List.length).getD 0 : ℤ))).sum

/-- The execution is the current one. -/
def ExecutionOwner.Current (owner : ExecutionOwner) (db : Db) : Prop :=
  (∃ task ∈ db.tasks.get? owner.taskId, owner.RunsTask task)
    ∧ ∀ session ∈ owner.workerSessionId, owner.HoldsSession db session
  deriving Decidable

/-- Everything the steps of a publication ask for, except that the declarations are free:
    the worker still has the task, the project is active and has room, every required output
    was produced in an admissible size, and the ids minted for the artifacts are new. -/
structure CanPublish (store : ArtifactStore) (owner : ExecutionOwner)
    (outputs : List OutputMount) (site : ArtifactSite) : Prop where
  current : owner.Current site.db
  active : site.db.projects.get? owner.projectId = some .active
  room : ∃ quota state, site.db.quotas.get? owner.projectId = some quota
    ∧ site.db.quotaStates.get? owner.projectId = some state
    ∧ ∀ bound ∈ quota.maxArtifactBytes, state.artifactBytes + store.volume outputs ≤ bound
  declared : ∀ mount ∈ outputs, ∃ binding,
    site.db.library.taskArtifacts.get? mount.bindingId = some binding
      ∧ binding.taskId = owner.taskId ∧ binding.direction = .output
      ∧ (binding.required = true → store.produced mount ≠ none)
      ∧ binding.artifactId ≠ some mount.artifactId
  prepared : ∀ mount ∈ outputs, mount.placeholder ≠ none
  sized : ∀ mount ∈ outputs, ∀ bytes ∈ store.produced mount,
    (bytes.length : ℤ) ≤ min store.artifactMaxBytes store.maxBytes
  fresh : ∀ mount ∈ outputs, site.row mount.artifactId = none
    ∧ (∀ y artifact, site.row y = some artifact →
      artifact.objectKey ≠ stagingKey owner.projectId mount.artifactId)
    ∧ site.objects.get? (finalKey owner.projectId mount.artifactId) = none
  bindings : (outputs.map OutputMount.bindingId).Nodup
  artifacts : (outputs.map OutputMount.artifactId).Nodup

/-- The declaration names a ready artifact with these bytes in the store. -/
structure Delivered (store : ArtifactStore) (owner : ExecutionOwner) (mount : OutputMount)
    (bytes : Bytes) (site : ArtifactSite) : Prop where
  bound : ∃ binding, site.db.library.taskArtifacts.get? mount.bindingId = some binding
    ∧ binding.artifactId = some mount.artifactId
  ready : ∃ artifact, site.row mount.artifactId = some artifact ∧ artifact.state = .ready
    ∧ artifact.objectKey = finalKey owner.projectId mount.artifactId
    ∧ artifact.sizeBytes = some (store.info bytes).sizeBytes
    ∧ artifact.sha256 = some (store.info bytes).sha256
  stored : site.objects.get? (finalKey owner.projectId mount.artifactId) = some bytes

/-! ## One output -/

section Output

variable {store : ArtifactStore} {owner : ExecutionOwner} {site : ArtifactSite}
  {mount : OutputMount} {bytes : Bytes}

theorem transact_of_ok {txn : Txn α} {a : α} (h : txn site.db = .ok a db) :
    site.transact txn = .ok (a, { site with db := db }) := by
  rw [ArtifactSite.transact, h]

theorem await_runs {op : ArtifactAwait} {answer : op.Answer} {after : ArtifactSite}
    (h : store.perform site op = .ok (answer, after)) :
    (await op).run store.machine none site = (.ok answer, after) := exec_ok h

theorem await_raises {op : ArtifactAwait} {fault : ArtifactFault}
    (h : store.perform site op = .error fault) :
    (await op).run store.machine none site = (.error fault, site) := exec_error h

/-- A binding is listed under its id. -/
theorem lookup_of_mem {κ ρ : Type} [DecidableEq κ] {rows : List (κ × ρ)} {k : κ} {v : ρ}
    (hnd : (rows.map Prod.fst).Nodup) (hmem : (k, v) ∈ rows) : rows.lookup k = some v := by
  obtain ⟨before, after, rfl⟩ := append_of_mem hmem
  refine lookup_eq_some_iff.mpr ⟨before, after, rfl, ?_⟩
  intro row hrow
  rw [map_append, nodup_append] at hnd
  have hne := hnd.2.2 row.1 (mem_map_of_mem hrow) k (by rw [map_cons]; exact mem_cons_self)
  exact bne_iff_ne.mpr (Ne.symm hne)

/-- The bindings of a task, as they are listed. -/
def taskBindings (db : Db) (taskId : Uuid) : List (Uuid × TaskArtifact) :=
  orderBy (fun row => toLex (row.2.direction.value, toLex (row.2.createdAt, row.1)))
    (db.library.taskArtifacts.select (fun _ binding => binding.taskId = taskId))

theorem lookup_taskBindings (hbind : db.library.taskArtifacts.get? b = some binding)
    (htask : binding.taskId = taskId) :
    (taskBindings db taskId).lookup b = some binding := by
  refine lookup_of_mem ((perm_orderBy.map Prod.fst).nodup_iff.mpr
    (select_keys_nodup _ _)) (mem_orderBy.mpr ?_)
  exact mem_select.mpr ⟨hbind, decide_eq_true htask⟩

/-- The worker that still has the task lists its bindings. -/
theorem listForExecution_runs (h : owner.Current db) :
    listForExecution owner db = .ok (taskBindings db owner.taskId) db := by
  have hown : ¬ ¬ ((∃ task ∈ db.tasks.get? owner.taskId, owner.RunsTask task)
      ∧ ∀ session ∈ owner.workerSessionId, owner.HoldsSession db session) := not_not_intro h
  rw [listForExecution, bind_get, bind_of_ok (raiseIf_neg hown db)]
  rfl

/-- The row of an output, before it is verified. -/
def ArtifactStore.outputRow (store : ArtifactStore) (owner : ExecutionOwner) (artifactId : Uuid)
    (name : String) (bytes : Bytes) (now : Time) : Artifact :=
  (store.outputRequest owner artifactId name (store.info bytes)).row now (store.digest bytes)

/-- The database once the row of an output exists. -/
def ArtifactStore.withOutputRow (store : ArtifactStore) (owner : ExecutionOwner)
    (artifactId : Uuid) (name : String) (bytes : Bytes) (now : Time) (db : Db) : Db :=
  (db.withArtifacts (db.library.artifacts.insert artifactId
    (store.outputRow owner artifactId name bytes now))).withArtifactBytes now owner.projectId
      bytes.length

theorem createOutput_runs (name : String) {artifactId : Uuid} {quota : ProjectQuota}
    {state : ProjectQuotaState} (hdig : store.NormalDigest)
    (hcur : owner.Current site.db)
    (hact : site.db.projects.get? owner.projectId = some .active)
    (hquota : site.db.quotas.get? owner.projectId = some quota)
    (hst : site.db.quotaStates.get? owner.projectId = some state)
    (hroom : ∀ bound ∈ quota.maxArtifactBytes, state.artifactBytes + bytes.length ≤ bound)
    (hfresh : site.row artifactId = none)
    (hkeys : ∀ y artifact, site.row y = some artifact →
      artifact.objectKey ≠ stagingKey owner.projectId artifactId) :
    store.perform site (.createOutput owner
        (store.outputRequest owner artifactId name (store.info bytes)))
      = .ok (store.outputRow owner artifactId name bytes site.now,
        { site with db := store.withOutputRow owner artifactId name bytes site.now site.db }) := by
  obtain ⟨hhex, hnorm⟩ := hdig bytes
  refine transact_of_ok ?_
  refine bind_ok.mpr ⟨_, site.db, listForExecution_runs hcur, ?_⟩
  have hsha : normalizeSha256 (store.digest bytes) site.db
      = .ok (store.digest bytes) site.db := by
    rw [normalizeSha256, hnorm, bind_of_ok (raiseIf_neg (by rw [hhex]; decide) site.db)]
    rfl
  have hins : insertArtifact artifactId
        (store.outputRow owner artifactId name bytes site.now) site.db
      = .ok () (site.db.withArtifacts (site.db.library.artifacts.insert artifactId
        (store.outputRow owner artifactId name bytes site.now))) := by
    have hn : ¬ site.db.library.artifacts.get? artifactId ≠ none := not_not_intro hfresh
    rw [insertArtifact, bind_get, bind_of_ok (raiseIf_neg hn _), bind_of_ok (raiseIf_neg ?_ _)]
    · rfl
    · rintro ⟨⟨y, artifact⟩, hrow, _, hkey⟩
      exact hkeys y artifact (mem_rows.mp hrow) hkey
  simp only [createPending, bind_ok, raiseIf_ok, pure_ok, get_ok, expect_ok,
    checkArtifactLimit_ok, modify_ok, not_lt, not_not]
  exact ⟨(), _, ⟨Int.natCast_nonneg _, rfl⟩, _, _, hsha, _, _, ⟨rfl, rfl⟩, (), _,
    ⟨hact, rfl⟩, quota, _, ⟨hquota, rfl⟩, state, _, ⟨hst, rfl⟩, (), _, ⟨hroom, rfl⟩, (), _,
    hins, (), _, rfl, rfl, rfl⟩

theorem expects_ok (hdig : store.NormalDigest) (hsize : (bytes.length : ℤ) ≤ store.maxBytes) :
    store.expects (store.info bytes).sizeBytes (store.info bytes).sha256
      = .ok (store.digest bytes) := by
  obtain ⟨hhex, hnorm⟩ := hdig bytes
  have hhex' : ¬ isSha256 (store.digest bytes) = false := by
    rw [hhex]
    decide
  have hnn : ¬ (bytes.length : ℤ) < 0 := not_lt.mpr (Int.natCast_nonneg _)
  simp only [expects, info, hnorm, if_neg hhex', if_neg hnn, if_neg (not_lt.mpr hsize)]

theorem verify_info : verify (store.info bytes) (store.info bytes).sizeBytes
    (store.digest bytes) = .ok () := by
  have hsha : ¬ (store.info bytes).sha256 ≠ store.digest bytes := not_not_intro rfl
  rw [verify, if_neg (not_not_intro rfl), if_neg hsha]

theorem receive_one (hsize : (bytes.length : ℤ) ≤ store.maxBytes) :
    store.receive (store.info bytes).sizeBytes [bytes] [] = .ok bytes := by
  by_cases hempty : bytes = []
  · subst hempty
    rfl
  · simp only [receive, if_neg hempty, nil_append]
    rw [if_neg (not_lt.mpr hsize), if_neg (show ¬ (store.info bytes).sizeBytes < bytes.length
      from lt_irrefl _)]

theorem put_runs (hdig : store.NormalDigest) (hsize : (bytes.length : ℤ) ≤ store.maxBytes)
    (key : ObjectKey) :
    store.perform site (.put key [bytes] (store.info bytes).sizeBytes (store.info bytes).sha256)
      = .ok (store.info bytes, { site with objects := site.objects.put key bytes }) := by
  have hput : store.put key [bytes] (store.info bytes).sizeBytes (store.info bytes).sha256
      site.objects = .ok (store.info bytes, site.objects.put key bytes) := by
    rw [ArtifactStore.put, expects_ok hdig hsize]
    refine except_bind_ok.mpr ⟨_, rfl, except_bind_ok.mpr ⟨_, receive_one hsize,
      except_bind_ok.mpr ⟨(), verify_info, rfl⟩⟩⟩
  rw [perform, hput]
  rfl

theorem finalize_runs {staging final : ObjectKey} (hdig : store.NormalDigest)
    (hsize : (bytes.length : ℤ) ≤ store.maxBytes) (hfin : site.objects.get? final = none)
    (hstg : site.objects.get? staging = some bytes) :
    store.perform site (.finalize staging final (store.info bytes).sizeBytes
        (store.info bytes).sha256)
      = .ok (store.info bytes,
        { site with objects := (site.objects.erase staging).put final bytes }) := by
  have hinsp : store.inspect bytes = .ok (store.info bytes) := by
    rw [inspect, if_neg (not_lt.mpr hsize)]
  have hprom : store.promote staging final (store.info bytes).sizeBytes (store.digest bytes)
      site.objects = .ok (store.info bytes, (site.objects.erase staging).put final bytes) := by
    simp only [promote, hfin, hstg]
    exact except_bind_ok.mpr ⟨_, hinsp, except_bind_ok.mpr ⟨(), verify_info, rfl⟩⟩
  have hfinalize : store.finalize staging final (store.info bytes).sizeBytes
      (store.info bytes).sha256 site.objects
        = .ok (store.info bytes, (site.objects.erase staging).put final bytes) := by
    rw [finalize, expects_ok hdig hsize]
    exact hprom
  rw [perform, hfinalize]
  rfl

/-- The database once an output is ready and bound. -/
def ArtifactStore.withOutput (store : ArtifactStore) (owner : ExecutionOwner)
    (mount : OutputMount) (binding : TaskArtifact) (bytes : Bytes) (now : Time) (db : Db) : Db :=
  let db := store.withOutputRow owner mount.artifactId binding.name bytes now db
  let artifact := (store.outputRow owner mount.artifactId binding.name bytes now).readied now
    (finalKey owner.projectId mount.artifactId) (store.info bytes)
  (db.withArtifacts (db.library.artifacts.set mount.artifactId artifact)).withTaskArtifacts
    (db.library.taskArtifacts.set mount.bindingId
      { binding with artifactId := some mount.artifactId })

theorem markReady_runs (now : Time) (key : ObjectKey) (info : ArtifactObjectInfo)
    {artifact : Artifact} (hget : db.library.artifacts.get? x = some artifact)
    (hproj : artifact.projectId = p) (hst : artifact.state = .pending)
    (hdeld : artifact.deletedAt = none) (hsize : artifact.sizeBytes = some info.sizeBytes)
    (hsha : artifact.sha256 = some info.sha256) :
    markReady now p x key info db = .ok (artifact.readied now key info)
      (db.withArtifacts (db.library.artifacts.set x (artifact.readied now key info))) := by
  refine bind_ok.mpr ⟨artifact, db, requiredLocked_ok.mpr ⟨⟨hget, hproj, .inr hdeld⟩, rfl⟩, ?_⟩
  have hnot : ¬ artifact.state = .ready := by
    rw [hst]
    decide
  have hexpected : requireExpectedArtifact artifact info db = .ok () db :=
    requireExpectedArtifact_ok.mpr ⟨⟨hsize, hsha⟩, rfl⟩
  rw [readyArtifact, if_neg hnot, bind_of_ok (raiseIf_neg (not_not_intro hst) db),
    bind_of_ok hexpected]
  rfl

/-- A ready artifact is bound to a free declaration. -/
theorem bindOutput_runs {task : Task} {artifact : Artifact}
    (hart : db.library.artifacts.get? x = some artifact)
    (hready : artifact.projectId = p ∧ artifact.state = .ready ∧ artifact.deletedAt = none)
    (htask : db.tasks.get? taskId = some task) (hproj : task.projectId = p)
    (hbind : db.library.taskArtifacts.get? b = some binding)
    (hdeclares : binding.taskId = taskId ∧ binding.direction = .output)
    (hfree : binding.artifactId = none) :
    bindOutput b taskId p x db = .ok { binding with artifactId := some x }
      (db.withTaskArtifacts (db.library.taskArtifacts.set b
        { binding with artifactId := some x })) := by
  have hhere : ¬ (db.tasks.get? taskId).all (·.projectId ≠ p) = true := by
    rw [htask, all_some, decide_eq_true_iff]
    exact not_not_intro hproj
  have hlock : lockOutput b taskId p x db = .ok (binding, some artifact) db := by
    rw [lockOutput, bind_get, bind_of_ok (raiseIf_neg hhere db), hbind,
      filter_some, if_pos (decide_eq_true hdeclares), bind_of_ok (expect_ok.mpr ⟨rfl, rfl⟩)]
    simp only [hfree, hart]
    rw [filter_some, if_pos (decide_eq_true hready), bind_of_ok (expect_ok.mpr ⟨rfl, rfl⟩)]
    rfl
  exact bind_ok.mpr ⟨_, db, hlock, rfl⟩

/-- **A BOUND DECLARATION** takes no other artifact. -/
theorem bindOutput_refuses {db' : Db} {binding' : TaskArtifact}
    (hbind : db.library.taskArtifacts.get? b = some binding)
    (hbound : binding.artifactId ≠ none) (hoth : binding.artifactId ≠ some x) :
    bindOutput b taskId p x db ≠ .ok binding' db' := by
  intro h
  obtain ⟨⟨_, _⟩, _, hlock, _⟩ := bind_ok.mp h
  simp only [lockOutput, bind_ok, get_ok, ↓raise_ok, ↓bind_expect] at hlock
  obtain ⟨_, _, ⟨rfl, rfl⟩, _, row', hrow, hr⟩ := hlock
  obtain rfl : row' = binding := some.inj ((filter_eq_some_iff.mp hrow).1.symm.trans hbind)
  cases hart : row'.artifactId with
  | none => exact hbound hart
  | some =>
    simp only [hart, bind_ok, raiseIf_ok] at hr
    obtain ⟨_, _, ⟨heq, _⟩, _⟩ := hr
    rw [not_not] at heq
    rw [hart, heq] at hoth
    exact hoth rfl

/-- The site once the object of an output is at its final key. -/
def ArtifactStore.shelved (store : ArtifactStore) (owner : ExecutionOwner) (artifactId : Uuid)
    (name : String) (bytes : Bytes) (site : ArtifactSite) : ArtifactSite where
  db := store.withOutputRow owner artifactId name bytes site.now site.db
  objects := ((site.objects.put (stagingKey owner.projectId artifactId) bytes).erase
    (stagingKey owner.projectId artifactId)).put (finalKey owner.projectId artifactId) bytes
  now := site.now

/-- The site once an output is published. -/
def ArtifactStore.delivers (store : ArtifactStore) (owner : ExecutionOwner) (mount : OutputMount)
    (binding : TaskArtifact) (bytes : Bytes) (site : ArtifactSite) : ArtifactSite :=
  { store.shelved owner mount.artifactId binding.name bytes site with
    db := store.withOutput owner mount binding bytes site.now site.db }

theorem volume_cons (rest : List OutputMount) : store.volume (mount :: rest)
    = (((store.produced mount).map List.length).getD 0 : ℤ) + store.volume rest := rfl

theorem volume_nonneg (store : ArtifactStore) (outputs : List OutputMount) :
    0 ≤ store.volume outputs := by
  refine List.sum_nonneg ?_
  intro _ hsize
  obtain ⟨_, _, rfl⟩ := mem_map.mp hsize
  exact Int.natCast_nonneg _

variable {rest : List OutputMount}

/-- A transaction that does not return raises. -/
theorem transact_raises {txn : Txn α} (h : ∀ a db, txn site.db ≠ .ok a db) :
    ∃ e, site.transact txn = .error (.record e) := by
  rw [ArtifactSite.transact]
  cases hrun : txn site.db with
  | ok a db => exact absurd hrun (h a db)
  | error e => exact ⟨e, rfl⟩

/-- The compensation ends with an exception of the repositories if it began with one. -/
theorem compensate_raises {key : ObjectKey} {what : String} (e : Err) :
    ∃ e' after, (compensate owner x key what (α := α) (.record e)).run store.machine none site
      = (.error (.record e'), after) := by
  have hrem : store.perform site (.remove key)
      = .ok ((), { site with objects := site.objects.erase key }) := rfl
  rw [compensate, run_bind_ok (await_runs hrem)]
  cases hmark : store.perform { site with objects := site.objects.erase key }
      (.markFailed owner.projectId x (what ++ (ArtifactFault.record e).className)) with
  | ok =>
    rw [run_bind_ok (await_runs hmark)]
    exact ⟨e, _, rfl⟩
  | error =>
    rw [run_bind_error (await_raises hmark)]
    rw [perform, ArtifactSite.transact] at hmark
    split at hmark
    · cases hmark
    · cases hmark
      exact ⟨_, _, rfl⟩

theorem produced_eq_some (h : store.produced mount = some bytes) :
    ∃ placeholder, mount.file = .regular bytes ∧ mount.placeholder = some placeholder
      ∧ ¬ ((store.info bytes).sizeBytes = placeholder.size
        ∧ (store.info bytes).sha256 = placeholder.sha256) := by
  rw [produced] at h
  split at h
  · rename_i found placeholder hfile hph
    split_ifs at h with heq
    obtain rfl := some.inj h
    exact ⟨placeholder, hfile, hph, heq⟩
  · cases h

/-- What was not produced is refused for a reason that spares an optional output. -/
theorem inspectOutput_spares (name : String)
    (hph : mount.placeholder = some placeholder) (h : store.produced mount = none) :
    ∃ fault, store.inspectOutput name placeholder mount.file = .raise fault
      ∧ fault.sparesOptional = true := by
  rw [produced, hph] at h
  cases hfile : mount.file with
  | missing | irregular => exact ⟨_, rfl, rfl⟩
  | regular bytes =>
    rw [hfile] at h
    by_cases hlarge : min store.artifactMaxBytes store.maxBytes < bytes.length
    · exact ⟨_, raiseIf_bind_pos hlarge _ _, rfl⟩
    · by_cases heq : (store.info bytes).sizeBytes = placeholder.size
          ∧ (store.info bytes).sha256 = placeholder.sha256
      · exact ⟨_, (raiseIf_bind_neg hlarge _ _).trans (raiseIf_bind_pos heq _ _), rfl⟩
      · simp only [if_neg heq] at h
        cases h

theorem publishFile_produced (name : String) (hph : mount.placeholder = some placeholder)
    (hbytes : store.produced mount = some bytes)
    (hsize : (bytes.length : ℤ) ≤ min store.artifactMaxBytes store.maxBytes) :
    store.publishFile owner mount.bindingId name placeholder mount.file mount.artifactId
      = store.publish owner mount.bindingId mount.artifactId name bytes (store.info bytes) := by
  obtain ⟨placeholder', hfile, hph', hdiffers⟩ := produced_eq_some hbytes
  obtain rfl : placeholder' = placeholder := mem_unique hph' hph
  have hinsp : store.inspectOutput name placeholder' mount.file
      = pure (bytes, store.info bytes) := by
    rw [hfile]
    exact (raiseIf_bind_neg (not_lt.mpr hsize) _ _).trans (raiseIf_bind_neg hdiffers _ _)
  rw [publishFile, hinsp]
  rfl

/-- A round publishes the file of the declaration it finds. -/
theorem publishOutput_eq {current : List (Uuid × TaskArtifact)}
    (hf : current.lookup mount.bindingId = some binding)
    (hdir : binding.direction = .output)
    (hph : mount.placeholder = some placeholder) :
    store.publishOutput owner current mount
      = catching (fun fault => fault.sparesOptional && !binding.required)
        (fun _ => pure none)
        (do
          let artifact ← store.publishFile owner mount.bindingId binding.name placeholder
            mount.file mount.artifactId
          pure (some artifact)) := by
  rw [publishOutput, hf, hph, filter_some, if_pos (decide_eq_true hdir)]

theorem delivers_taskArtifacts_ne (hne : b ≠ mount.bindingId) :
    (store.delivers owner mount binding bytes site).db.library.taskArtifacts.get? b
      = site.db.library.taskArtifacts.get? b :=
  get?_set_ne _ _ hne

theorem delivers_row_ne {y : Uuid} (hne : y ≠ mount.artifactId) :
    (store.delivers owner mount binding bytes site).row y = site.row y :=
  (get?_set_ne _ _ hne).trans (get?_insert_ne _ _ hne)

theorem delivers_row (hfresh : site.row mount.artifactId = none) :
    (store.delivers owner mount binding bytes site).row mount.artifactId
      = some ((store.outputRow owner mount.artifactId binding.name bytes site.now).readied site.now
        (finalKey owner.projectId mount.artifactId) (store.info bytes)) :=
  get?_set_self (get?_insert_self hfresh _) _

theorem delivers_object_ne {key : ObjectKey} (hne : key.artifactId ≠ mount.artifactId) :
    (store.delivers owner mount binding bytes site).objects.get? key = site.objects.get? key := by
  have hstg : key ≠ stagingKey owner.projectId mount.artifactId := by
    rintro rfl
    exact hne rfl
  have hfin : key ≠ finalKey owner.projectId mount.artifactId := by
    rintro rfl
    exact hne rfl
  refine (get?_put_ne _ _ hfin).trans ?_
  exact (get?_erase_ne _ hstg).trans (get?_put_ne _ _ hstg)

theorem ne_of_nodup_cons {β : Type} {f : α → β} {a b : α} {l : List α}
    (h : ((a :: l).map f).Nodup) (hb : b ∈ l) : f b ≠ f a := fun heq =>
  (nodup_cons.mp h).1 (mem_map.mpr ⟨b, hb, heq⟩)

/-! ### A round of the loop -/

/-- What the loop knows of a declaration it listed. -/
structure Listed (current : List (Uuid × TaskArtifact)) (mount : OutputMount)
    (site : ArtifactSite) (binding : TaskArtifact) : Prop where
  listed : current.lookup mount.bindingId = some binding
  stands : site.db.library.taskArtifacts.get? mount.bindingId = some binding

variable {current : List (Uuid × TaskArtifact)} {binding : TaskArtifact}

variable (hdig : store.NormalDigest) (h : CanPublish store owner (mount :: rest) site)

include h

/-- What is known of the declaration of the next output. -/
theorem CanPublish.declares
    (hbind : site.db.library.taskArtifacts.get? mount.bindingId = some binding) :
    binding.taskId = owner.taskId ∧ binding.direction = .output
      ∧ (binding.required = true → store.produced mount ≠ none)
      ∧ binding.artifactId ≠ some mount.artifactId := by
  obtain ⟨_, hdecl, hcols⟩ := h.declared mount mem_cons_self
  obtain rfl := mem_unique hdecl hbind
  exact hcols

theorem publishOutput_skips (hlist : Listed current mount site binding)
    (hbytes : store.produced mount = none) :
    (store.publishOutput owner current mount).run store.machine none site = (.ok none, site) := by
  obtain ⟨_, hdir, hrequired, _⟩ := h.declares hlist.stands
  obtain ⟨_, hph⟩ := ne_none_iff_exists'.mp (h.prepared mount mem_cons_self)
  have hoptional : binding.required = false := by
    cases hreq : binding.required with
    | false => rfl
    | true => exact absurd hbytes (hrequired hreq)
  obtain ⟨fault, hrss, hspar⟩ := inspectOutput_spares binding.name hph hbytes
  rw [publishOutput_eq hlist.listed hdir hph, publishFile, hrss]
  have hfails : ((raise fault : ArtifactProg (Bytes × ArtifactObjectInfo)) >>= fun found =>
      store.publish owner mount.bindingId mount.artifactId binding.name found.1 found.2
        >>= fun artifact => pure (some artifact)).run store.machine none site
      = (.error fault, site) := rfl
  exact (run_catching_error hfails).trans (by rw [hspar, hoptional]; rfl)

/-- The round of a produced output. -/
theorem publishOutput_produced (hlist : Listed current mount site binding)
    (hbytes : store.produced mount = some bytes) :
    store.publishOutput owner current mount
      = catching (fun fault => fault.sparesOptional && !binding.required)
        (fun _ => pure none)
        (do
          let artifact ← store.publish owner mount.bindingId mount.artifactId binding.name bytes
            (store.info bytes)
          pure (some artifact)) := by
  obtain ⟨_, hph⟩ := ne_none_iff_exists'.mp (h.prepared mount mem_cons_self)
  rw [publishOutput_eq hlist.listed (h.declares hlist.stands).2.1 hph,
    publishFile_produced binding.name hph hbytes (h.sized mount mem_cons_self bytes hbytes)]

include hdig

variable (hbytes : store.produced mount = some bytes)

include hbytes

/-- Up to the commit, a publication goes through. -/
theorem publish_shelves {name : String} :
    (store.publish owner mount.bindingId mount.artifactId name bytes (store.info bytes)).run
        store.machine none site
      = (catching (fun _ => true)
          (compensate owner mount.artifactId (finalKey owner.projectId mount.artifactId)
            "Worker output commit failed: ")
          (await (.commitOutput owner mount.bindingId mount.artifactId
            (finalKey owner.projectId mount.artifactId) (store.info bytes)))).run store.machine none
        (store.shelved owner mount.artifactId name bytes site) := by
  obtain ⟨quota, state, hquota, hst, hroom⟩ := h.room
  obtain ⟨hfresh, hkeys, hfin⟩ := h.fresh mount mem_cons_self
  have hsize : (bytes.length : ℤ) ≤ store.maxBytes :=
    (h.sized mount mem_cons_self bytes hbytes).trans (min_le_right _ _)
  have hfits : ∀ bound ∈ quota.maxArtifactBytes,
      state.artifactBytes + bytes.length ≤ bound := by
    intro bound hbound
    have hall := hroom bound hbound
    rw [volume_cons, hbytes] at hall
    have hr := volume_nonneg store rest
    simp only [map_some, getD_some] at hall
    omega
  have hcrt := await_runs (createOutput_runs name hdig h.current h.active hquota hst
    hfits hfresh hkeys)
  rw [publish, run_bind_ok hcrt]
  refine run_bind_ok (run_catching_ok ?_)
  rw [run_bind_ok (await_runs (put_runs hdig hsize _))]
  refine await_runs (finalize_runs hdig hsize ?_ (get?_put_self _ _ _))
  exact (get?_put_ne _ _ (finalKey_ne_stagingKey _ _ _ _)).trans hfin

/-- **A FREE DECLARATION**: the output is published. -/
theorem publish_delivers
    (hbinding : site.db.library.taskArtifacts.get? mount.bindingId = some binding)
    (hfree : binding.artifactId = none) :
    ∃ artifact, (store.publish owner mount.bindingId mount.artifactId binding.name bytes
        (store.info bytes)).run store.machine none site
      = (.ok artifact, store.delivers owner mount binding bytes site) := by
  obtain ⟨hfresh, _, _⟩ := h.fresh mount mem_cons_self
  obtain ⟨htask, hdir, _, _⟩ := h.declares hbinding
  obtain ⟨_, hrow, hruns⟩ := h.current.1
  rw [publish_shelves hdig h hbytes]
  have hrowed : (store.withOutputRow owner mount.artifactId binding.name bytes site.now
      site.db).library.artifacts.get? mount.artifactId
        = some (store.outputRow owner mount.artifactId binding.name bytes site.now) :=
    get?_insert_self hfresh _
  have hready := markReady_runs site.now (finalKey owner.projectId mount.artifactId)
    (store.info bytes) hrowed rfl rfl rfl rfl rfl
  have hf : ((store.withOutputRow owner mount.artifactId binding.name bytes site.now
      site.db).withArtifacts ((store.withOutputRow owner mount.artifactId binding.name bytes
        site.now site.db).library.artifacts.set mount.artifactId
          ((store.outputRow owner mount.artifactId binding.name bytes site.now).readied site.now
            (finalKey owner.projectId mount.artifactId) (store.info bytes)))).library.artifacts.get?
      mount.artifactId = some _ := get?_set_self hrowed _
  have hbind := bindOutput_runs hf ⟨rfl, rfl, rfl⟩ hrow hruns.1 hbinding ⟨htask, hdir⟩ hfree
  refine ⟨_, run_catching_ok (await_runs (transact_of_ok (bind_ok.mpr
    ⟨_, _, listForExecution_runs h.current, bind_ok.mpr ⟨_, _, hready,
      bind_ok.mpr ⟨_, _, hbind, rfl⟩⟩⟩)))⟩

/-- **A BOUND DECLARATION**: the commit is refused, and the publication raises. -/
theorem publish_refused
    (hbinding : site.db.library.taskArtifacts.get? mount.bindingId = some binding)
    (hbound : binding.artifactId ≠ none) :
    ∃ e after, (store.publish owner mount.bindingId mount.artifactId binding.name bytes
        (store.info bytes)).run store.machine none site = (.error (.record e), after) := by
  obtain ⟨_, _, _, hoth⟩ := h.declares hbinding
  rw [publish_shelves hdig h hbytes]
  obtain ⟨e, hcom⟩ : ∃ e, store.perform
      (store.shelved owner mount.artifactId binding.name bytes site)
      (.commitOutput owner mount.bindingId mount.artifactId
        (finalKey owner.projectId mount.artifactId) (store.info bytes)) = .error (.record e) := by
    refine transact_raises ?_
    intro artifact db hrun
    obtain ⟨_, mid, hlist, hr⟩ := bind_ok.mp hrun
    obtain ⟨_, after, hready, hr⟩ := bind_ok.mp hr
    obtain ⟨_, last, hbind, _⟩ := bind_ok.mp hr
    rw [listForExecution_ok hlist] at hready
    obtain ⟨_, _, _, hready⟩ := markReady_ok hready
    have heq : after.library.taskArtifacts = site.db.library.taskArtifacts := by
      obtain ⟨_, _, ⟨_, _, _, rfl⟩ | ⟨_, _, rfl⟩⟩ := readyArtifact_ok hready
      · rfl
      · rfl
    exact bindOutput_refuses (by rw [heq]; exact hbinding) hbound hoth hbind
  rw [run_catching_error (await_raises hcom), if_pos rfl]
  exact compensate_raises e

omit hbytes

theorem publishOutput_delivers (hlist : Listed current mount site binding)
    (hbytes : store.produced mount = some bytes) (hfree : binding.artifactId = none) :
    ∃ artifact, (store.publishOutput owner current mount).run store.machine none site
      = (.ok (some artifact), store.delivers owner mount binding bytes site) := by
  obtain ⟨artifact, hpub⟩ := publish_delivers hdig h hbytes hlist.stands hfree
  rw [publishOutput_produced h hlist hbytes]
  exact ⟨artifact, run_catching_ok ((run_bind_ok hpub).trans rfl)⟩

/-- An optional output is not spared either: the conflict is no error of its file. -/
theorem publishOutput_refused (hlist : Listed current mount site binding)
    (hbytes : store.produced mount = some bytes) (hbound : binding.artifactId ≠ none) :
    ∃ fault after, (store.publishOutput owner current mount).run store.machine none site
      = (.error fault, after) := by
  obtain ⟨e, after, hpub⟩ := publish_refused hdig h hbytes hlist.stands hbound
  rw [publishOutput_produced h hlist hbytes]
  exact ⟨.record e, after, (run_catching_error (run_bind_error hpub)).trans rfl⟩

omit hdig

/-! ### What the next rounds can count on -/

theorem CanPublish.skip
    (hbytes : store.produced mount = none) : CanPublish store owner rest site where
  current := h.current
  active := h.active
  room := by
    obtain ⟨quota, state, hquota, hst, hroom⟩ := h.room
    refine ⟨quota, state, hquota, hst, ?_⟩
    intro bound hbound
    have hall := hroom bound hbound
    rw [volume_cons, hbytes] at hall
    simpa only [map_none, getD_none, Nat.cast_zero, zero_add] using hall
  declared m hm := h.declared m (mem_cons_of_mem _ hm)
  prepared m hm := h.prepared m (mem_cons_of_mem _ hm)
  sized m hm := h.sized m (mem_cons_of_mem _ hm)
  fresh m hm := h.fresh m (mem_cons_of_mem _ hm)
  bindings := (nodup_cons.mp h.bindings).2
  artifacts := (nodup_cons.mp h.artifacts).2

theorem delivered_now (hbind : site.db.library.taskArtifacts.get? mount.bindingId = some binding) :
    Delivered store owner mount bytes (store.delivers owner mount binding bytes site) where
  bound := ⟨_, get?_set_self hbind _, rfl⟩
  ready := ⟨_, delivers_row (h.fresh mount mem_cons_self).1, rfl, rfl, rfl, rfl⟩
  stored := get?_put_self _ _ _

theorem CanPublish.next (hbytes : store.produced mount = some bytes) :
    CanPublish store owner rest (store.delivers owner mount binding bytes site) := by
  refine ⟨h.current, h.active, ?_, ?_, ?_, ?_, ?_, (nodup_cons.mp h.bindings).2,
    (nodup_cons.mp h.artifacts).2⟩
  · obtain ⟨quota, state, hquota, hst, hroom⟩ := h.room
    refine ⟨quota, state.withArtifactBytes site.now bytes.length, hquota, ?_, ?_⟩
    · show (site.db.quotaStates.modify owner.projectId _).get? owner.projectId = _
      rw [get?_modify, hst, map_some, if_pos rfl]
    · intro bound hbound
      have hall := hroom bound hbound
      rw [volume_cons, hbytes] at hall
      simp only [map_some, getD_some] at hall
      show state.artifactBytes + bytes.length + store.volume rest ≤ bound
      omega
  · intro m hm
    obtain ⟨declared, hdecl, hr⟩ := h.declared m (mem_cons_of_mem _ hm)
    have hne := ne_of_nodup_cons h.bindings hm
    exact ⟨declared, (delivers_taskArtifacts_ne hne).trans hdecl, hr⟩
  · exact fun m hm => h.prepared m (mem_cons_of_mem _ hm)
  · exact fun m hm => h.sized m (mem_cons_of_mem _ hm)
  · intro m hm
    obtain ⟨hfresh, hkeys, hfin⟩ := h.fresh m (mem_cons_of_mem _ hm)
    have hne := ne_of_nodup_cons h.artifacts hm
    refine ⟨(delivers_row_ne hne).trans hfresh, ?_, (delivers_object_ne hne).trans hfin⟩
    intro y artifact hy
    by_cases heq : y = mount.artifactId
    · rw [heq, delivers_row (h.fresh mount mem_cons_self).1] at hy
      obtain rfl := some.inj hy
      exact finalKey_ne_stagingKey _ _ _ _
    · exact hkeys y artifact ((delivers_row_ne heq).symm.trans hy)

omit h

/-- A later round leaves what was delivered. -/
theorem Delivered.next {m : OutputMount} {bytes' : Bytes}
    (h : Delivered store owner m bytes' site) (hbind : m.bindingId ≠ mount.bindingId)
    (hart : m.artifactId ≠ mount.artifactId) :
    Delivered store owner m bytes' (store.delivers owner mount binding bytes site) where
  bound := by
    rw [delivers_taskArtifacts_ne hbind]
    exact h.bound
  ready := by
    rw [delivers_row_ne hart]
    exact h.ready
  stored := (delivers_object_ne hart).trans h.stored

end Output

/-! ## All outputs -/

/-- None of the produced outputs is bound to an artifact yet. -/
def Unbound (store : ArtifactStore) (outputs : List OutputMount) (site : ArtifactSite) : Prop :=
  ∀ mount ∈ outputs, store.produced mount ≠ none →
    ∀ binding, site.db.library.taskArtifacts.get? mount.bindingId = some binding →
      binding.artifactId = none

section Loop

variable {store : ArtifactStore} {owner : ExecutionOwner} {site : ArtifactSite}
  {mount : OutputMount} {outputs rest : List OutputMount} {current : List (Uuid × TaskArtifact)}

theorem unbound_cons (hbind : site.db.library.taskArtifacts.get? mount.bindingId = some binding) :
    Unbound store (mount :: rest) site
      ↔ (store.produced mount ≠ none → binding.artifactId = none) ∧ Unbound store rest site := by
  constructor
  · intro h
    exact ⟨fun hprod => h mount mem_cons_self hprod binding hbind,
      fun m hm => h m (mem_cons_of_mem _ hm)⟩
  · rintro ⟨hhead, hr⟩ m hm hprod found hf
    rcases mem_cons.mp hm with rfl | hm
    · obtain rfl := mem_unique hf hbind
      exact hhead hprod
    · exact hr m hm hprod found hf

/-- The bindings stand as they were listed. -/
def ListedAll (current : List (Uuid × TaskArtifact)) (outputs : List OutputMount)
    (site : ArtifactSite) : Prop :=
  ∀ mount ∈ outputs, ∀ binding,
    site.db.library.taskArtifacts.get? mount.bindingId = some binding →
      current.lookup mount.bindingId = some binding

/-- The declarations of the other outputs are as they were. -/
theorem CanPublish.keeps (h : CanPublish store owner (mount :: rest) site) {m : OutputMount}
    (hm : m ∈ rest) :
    (store.delivers owner mount binding bytes site).db.library.taskArtifacts.get? m.bindingId
      = site.db.library.taskArtifacts.get? m.bindingId :=
  delivers_taskArtifacts_ne (ne_of_nodup_cons h.bindings hm)

theorem ListedAll.next (hlist : ListedAll current (mount :: rest) site)
    (h : CanPublish store owner (mount :: rest) site) :
    ListedAll current rest (store.delivers owner mount binding bytes site) := by
  intro m hm found hf
  exact hlist m (mem_cons_of_mem _ hm) found ((h.keeps hm).symm.trans hf)

theorem CanPublish.unbound_next (h : CanPublish store owner (mount :: rest) site) :
    Unbound store rest (store.delivers owner mount binding bytes site)
      ↔ Unbound store rest site := by
  constructor
  · intro hfree m hm hprod found hf
    exact hfree m hm hprod found ((h.keeps hm).trans hf)
  · intro hfree m hm hprod found hf
    exact hfree m hm hprod found ((h.keeps hm).symm.trans hf)

/-- **ALL OUTPUTS**: if the declarations are free, the loop returns, every produced output is
    delivered, and what was delivered before stays; if one is bound, it ends with an
    exception. -/
theorem publishEach_outcome (hdig : store.NormalDigest)
    (h : CanPublish store owner outputs site) (hlist : ListedAll current outputs site) :
    (Unbound store outputs site ∧ ∃ published after,
      (store.publishEach owner current outputs).run store.machine none site
        = (.ok published, after)
      ∧ (∀ mount ∈ outputs, ∀ bytes ∈ store.produced mount, Delivered store owner mount bytes after)
      ∧ ∀ m bytes, (∀ mount ∈ outputs, m.bindingId ≠ mount.bindingId
          ∧ m.artifactId ≠ mount.artifactId) →
        Delivered store owner m bytes site → Delivered store owner m bytes after)
    ∨ (¬ Unbound store outputs site ∧ ∃ fault after,
      (store.publishEach owner current outputs).run store.machine none site
        = (.error fault, after)) := by
  induction outputs generalizing site with
  | nil =>
    exact .inl ⟨fun _ hm => (nomatch hm), [], site, rfl, fun _ hm => (nomatch hm),
      fun _ _ _ hm => hm⟩
  | cons mount rest ih =>
    obtain ⟨binding, hbind, _⟩ := h.declared mount mem_cons_self
    have hhead : Listed current mount site binding :=
      ⟨hlist mount mem_cons_self binding hbind, hbind⟩
    rw [unbound_cons hbind, publishEach]
    cases hbytes : store.produced mount with
    | none =>
      rw [run_bind_ok (publishOutput_skips h hhead hbytes)]
      rcases ih (h.skip hbytes) (fun m hm => hlist m (mem_cons_of_mem _ hm)) with
        ⟨hfree, published, after, hrun, hdelv, hkept⟩ | ⟨hbound, fault, after, hrun⟩
      · refine .inl ⟨⟨fun hprod => absurd rfl hprod, hfree⟩, published, after,
          (run_bind_ok hrun).trans rfl, ?_, fun m bytes hm =>
            hkept m bytes fun k hk => hm k (mem_cons_of_mem _ hk)⟩
        intro m hm bytes hprod
        rcases mem_cons.mp hm with rfl | hm
        · rw [hbytes] at hprod
          cases hprod
        · exact hdelv m hm bytes hprod
      · exact .inr ⟨fun hfree => hbound hfree.2, fault, after, run_bind_error hrun⟩
    | some bytes =>
      by_cases hunb : binding.artifactId = none
      · obtain ⟨artifact, hpub⟩ := publishOutput_delivers hdig h hhead hbytes hunb
        rw [run_bind_ok hpub, ← h.unbound_next]
        rcases ih (h.next hbytes) (hlist.next h) with
          ⟨hfree, published, after, hrun, hdelv, hkept⟩ | ⟨hbound, fault, after, hrun⟩
        · refine .inl ⟨⟨fun _ => hunb, hfree⟩, artifact :: published, after,
            (run_bind_ok hrun).trans rfl, ?_, ?_⟩
          · intro m hm found hprod
            rcases mem_cons.mp hm with rfl | hm
            · obtain rfl := mem_unique hbytes hprod
              refine hkept m bytes (fun k hk => ⟨?_, ?_⟩) (delivered_now h hbind)
              · exact (ne_of_nodup_cons h.bindings hk).symm
              · exact (ne_of_nodup_cons h.artifacts hk).symm
            · exact hdelv m hm found hprod
          · intro m found hm hbef
            obtain ⟨hne, hne'⟩ := hm mount mem_cons_self
            exact hkept m found (fun k hk => hm k (mem_cons_of_mem _ hk))
              (hbef.next hne hne')
        · exact .inr ⟨fun hfree => hbound hfree.2, fault, after, run_bind_error hrun⟩
      · obtain ⟨fault, after, hpub⟩ := publishOutput_refused hdig h hhead hbytes hunb
        rw [run_bind_error hpub]
        exact .inr ⟨fun hfree => hunb (hfree.1 (some_ne_none _)), fault, after, rfl⟩

/-- The loop starts from the bindings as they stand. -/
theorem publishOutputs_eq (h : CanPublish store owner outputs site) :
    (store.publishOutputs owner outputs).run store.machine none site
      = (store.publishEach owner (taskBindings site.db owner.taskId) outputs).run store.machine none
        site := by
  rw [publishOutputs]
  by_cases hn : outputs = []
  · rw [if_pos hn, hn]
    rfl
  · rw [if_neg hn]
    exact run_bind_ok (await_runs (transact_of_ok (listForExecution_runs h.current)))

theorem CanPublish.listed (h : CanPublish store owner outputs site) :
    ListedAll (taskBindings site.db owner.taskId) outputs site := by
  intro mount hm _ hbind
  obtain ⟨declared, hdecl, htask, _⟩ := h.declared mount hm
  obtain rfl := mem_unique hdecl hbind
  exact lookup_taskBindings hbind htask

theorem onFault_ne_succeeded (settings : ExecutorSettings) (fault : ArtifactFault) :
    settings.onFault fault ≠ some settings.succeeded := by
  unfold ExecutorSettings.onFault
  split
  · exact (some_ne_none _).symm
  · intro h
    exact nomatch congrArg Report.target (some.inj h)

end Loop

/-- **WHEN A RETRY SUCCEEDS**: an attempt whose process exited with code 0 and produced every
    required output, and for which no operation fails from outside, publishes all it
    produced and reports success if and only if no earlier attempt has bound one of these
    outputs. -/
theorem exit_zero_publishes_iff {store : ArtifactStore} {owner : ExecutionOwner}
    {site : ArtifactSite} {outputs : List OutputMount} (settings : ExecutorSettings)
    (hdig : store.NormalDigest) (h : CanPublish store owner outputs site) :
    (∃ after, (store.exitReport settings owner outputs).run store.machine none site
        = (.ok (some settings.succeeded), after)
      ∧ ∀ mount ∈ outputs, ∀ bytes ∈ store.produced mount, Delivered store owner mount bytes after)
    ↔ Unbound store outputs site := by
  have hoffer : ∀ {result}, (store.publishEach owner (taskBindings site.db owner.taskId)
      outputs).run store.machine none site = result →
      (store.publishOutputs owner outputs).run store.machine none site = result :=
    fun hrun => (publishOutputs_eq h).trans hrun
  rcases publishEach_outcome hdig h h.listed with ⟨hfree, _, after, hrun, hdelv, _⟩
    | ⟨hbound, fault, ended, hfails⟩
  · refine iff_of_true ⟨after, ?_, hdelv⟩ hfree
    exact run_catching_ok ((run_bind_ok (hoffer hrun)).trans rfl)
  · refine iff_of_false ?_ hbound
    rintro ⟨_, hrun, _⟩
    have hrpt : (store.exitReport settings owner outputs).run store.machine none site
        = (.ok (settings.onFault fault), ended) :=
      (run_catching_error (run_bind_error (hoffer hfails))).trans rfl
    rw [hrpt] at hrun
    exact onFault_ne_succeeded settings fault (Except.ok.inj (Prod.mk.inj hrun).1)

/-! ## A task with two outputs -/

/-- What `CanPublish` asks of a site with a project that has no artifact limit, by columns. -/
def CanPublishColumns (store : ArtifactStore) (owner : ExecutionOwner)
    (outputs : List OutputMount) (site : ArtifactSite) : Prop :=
  owner.Current site.db ∧ site.db.projects.get? owner.projectId = some .active
    ∧ (site.db.quotas.get? owner.projectId).map ProjectQuota.maxArtifactBytes = some none
    ∧ (site.db.quotaStates.get? owner.projectId).isSome = true
    ∧ (∀ mount ∈ outputs, (site.db.library.taskArtifacts.get? mount.bindingId).any
        (fun binding => binding.taskId = owner.taskId ∧ binding.direction = .output
          ∧ binding.artifactId ≠ some mount.artifactId) = true)
    ∧ (∀ mount ∈ outputs, (store.produced mount).any (fun bytes =>
        (bytes.length : ℤ) ≤ min store.artifactMaxBytes store.maxBytes) = true)
    ∧ (∀ mount ∈ outputs, ∀ row ∈ site.db.library.artifacts.rows, row.1 ≠ mount.artifactId
        ∧ row.2.objectKey ≠ stagingKey owner.projectId mount.artifactId)
    ∧ (∀ mount ∈ outputs,
        site.objects.get? (finalKey owner.projectId mount.artifactId) = none)
    ∧ (outputs.map OutputMount.bindingId).Nodup ∧ (outputs.map OutputMount.artifactId).Nodup
  deriving Decidable

theorem CanPublishColumns.canPublish {store : ArtifactStore} {owner : ExecutionOwner}
    {outputs : List OutputMount} {site : ArtifactSite}
    (h : CanPublishColumns store owner outputs site) : CanPublish store owner outputs site := by
  obtain ⟨hcur, hact, hquota, hst, hdecl, hprod, hrows, hobjs, hbinds, harts⟩ := h
  obtain ⟨quota, hquota, hlim⟩ := map_eq_some_iff.mp hquota
  obtain ⟨state, hst⟩ := isSome_iff_exists.mp hst
  have hfile : ∀ mount ∈ outputs, ∃ bytes, store.produced mount = some bytes
      ∧ (bytes.length : ℤ) ≤ min store.artifactMaxBytes store.maxBytes := by
    intro mount hm
    obtain ⟨bytes, hbytes, hsize⟩ := (any_eq_true _ _).mp (hprod mount hm)
    exact ⟨bytes, hbytes, of_decide_eq_true hsize⟩
  refine ⟨hcur, hact, ⟨quota, state, hquota, hst, ?_⟩, ?_, ?_, ?_, ?_, hbinds, harts⟩
  · intro _ hbound
    rw [hlim] at hbound
    cases hbound
  · intro mount hm
    obtain ⟨binding, hbind, hcols⟩ := (any_eq_true _ _).mp (hdecl mount hm)
    obtain ⟨htask, hdir, hoth⟩ := of_decide_eq_true hcols
    obtain ⟨_, hbytes, _⟩ := hfile mount hm
    refine ⟨binding, hbind, htask, hdir, fun _ => ?_, hoth⟩
    rw [hbytes]
    exact some_ne_none _
  · intro mount hm
    obtain ⟨_, hbytes, _⟩ := hfile mount hm
    obtain ⟨_, _, hph, _⟩ := produced_eq_some hbytes
    rw [hph]
    exact some_ne_none _
  · intro mount hm _ hbytes
    obtain ⟨_, hf, hsize⟩ := hfile mount hm
    obtain rfl := mem_unique hf hbytes
    exact hsize
  · intro mount hm
    refine ⟨?_, fun y artifact hy => (hrows mount hm _ (mem_rows.mpr hy)).2, hobjs mount hm⟩
    cases hrow : site.row mount.artifactId with
    | none => rfl
    | some => exact absurd rfl (hrows mount hm _ (mem_rows.mpr hrow)).1

/-- The task may be retried once; its first execution runs. -/
def retriableTask : Db :=
  controlPlane.run
    [⟨0, .initializeQuota 7⟩, ⟨0, registerWorker⟩,
     ⟨1, .createQueued 1 { halfCoreTask [] with maxRetries := 1 }⟩,
     ⟨3, .claim 1 "w" 11 30 none standardPrices []⟩, ⟨4, .markPulling firstOwner 30 5⟩,
     ⟨5, .markStarting firstOwner 30 5⟩, ⟨6, .markRunning firstOwner 30 5⟩] freshCloud

/-- It declares two outputs, both required. -/
def twoOutputs : ArtifactSite where
  db := retriableTask.withTaskArtifacts
    ((Table.empty.insert 20 (outputBinding 1 1 ⟨"weights", "/output/weights", true⟩)).insert 21
      (outputBinding 1 1 ⟨"metrics", "/output/metrics", true⟩))
  objects := .empty
  now := 7

def plainSettings : ExecutorSettings := ⟨60, 1, 1, ArtifactFault.message⟩

/-- The outputs of an attempt that produced `weights` and, or not, `metrics`. -/
def attemptOutputs (metrics : OutputFile) (first second : Uuid) : List OutputMount :=
  [⟨20, some ⟨32, zeroSha256⟩, .regular [1, 2], first⟩,
   ⟨21, some ⟨32, zeroSha256⟩, metrics, second⟩]

theorem smallStore_normal : smallStore.NormalDigest := by
  intro _
  show isSha256 zeroSha256 = true ∧ (pyStrip zeroSha256).map Char.toLower = zeroSha256
  decide +kernel

theorem exit_zero_publishes_first : ∃ after, (smallStore.exitReport plainSettings firstExecution
        (attemptOutputs (.regular [5]) 1 2)).run smallStore.machine none twoOutputs
        = (.ok (some plainSettings.succeeded), after)
      ∧ ∀ mount ∈ attemptOutputs (.regular [5]) 1 2, ∀ bytes ∈ smallStore.produced mount,
        Delivered smallStore firstExecution mount bytes after := by
  have hcols : CanPublishColumns smallStore firstExecution (attemptOutputs (.regular [5]) 1 2)
      twoOutputs := by
    decide +kernel
  refine (exit_zero_publishes_iff plainSettings smallStore_normal hcols.canPublish).mpr ?_
  intro _ _ _ _ hbind
  have hrows : ∀ row ∈ twoOutputs.db.library.taskArtifacts.rows, row.2.artifactId = none := by
    decide +kernel
  exact hrows _ (mem_rows.mpr hbind)

/-- The first attempt publishes `weights` and fails, since `metrics` is missing. -/
def halfPublished : ArtifactSite :=
  ((smallStore.exitReport plainSettings firstExecution (attemptOutputs .missing 1 2)).run
    smallStore.machine none twoOutputs).2

def secondOwner : Caller := { firstOwner with executionId := 12 }

def secondExecution : ExecutionOwner := { firstExecution with executionId := 12 }

/-- The failure is reported, and the task is claimed again. -/
def retriedTask : ArtifactSite :=
  { halfPublished with
    db := controlPlane.run
      [⟨7, .finishExecution firstOwner (plainSettings.failed (.outputNotProduced "metrics"))⟩,
       ⟨20, .releaseDueRetries [] 10⟩, ⟨21, .claim 1 "w" 12 30 none standardPrices []⟩,
       ⟨22, .markPulling secondOwner 30 5⟩, ⟨23, .markStarting secondOwner 30 5⟩,
       ⟨24, .markRunning secondOwner 30 5⟩] halfPublished.db
    now := 25 }

theorem reported_of_columns {result : Except ArtifactFault (Option Report) × ArtifactSite}
    {target : TaskStatus} {message : Option String}
    (h : result.1.toOption.join.map (fun report => (report.target, report.errorMessage))
      = some (target, message)) :
    ∃ report after, result = (.ok (some report), after) ∧ report.target = target
      ∧ report.errorMessage = message := by
  obtain ⟨report, hrpt, hwords⟩ := map_eq_some_iff.mp h
  obtain ⟨htgt, hmessage⟩ := Prod.mk.inj hwords
  obtain ⟨outcome, after⟩ := result
  cases outcome with
  | error => cases hrpt
  | ok found =>
    obtain rfl : found = some report := hrpt
    exact ⟨report, after, rfl, htgt, hmessage⟩

/-- The retry produces both outputs, and no operation fails from outside. -/
theorem retry_fails_after_partial_publication :
    CanPublish smallStore secondExecution (attemptOutputs (.regular [5]) 3 4) retriedTask
      ∧ ∃ report after, (smallStore.exitReport plainSettings secondExecution
          (attemptOutputs (.regular [5]) 3 4)).run smallStore.machine none retriedTask
          = (.ok (some report), after)
        ∧ report.target = .failed ∧ report.errorMessage = some "TaskArtifactConflictError" := by
  have hruns : CanPublishColumns smallStore secondExecution (attemptOutputs (.regular [5]) 3 4)
        retriedTask
      ∧ ((smallStore.exitReport plainSettings secondExecution
          (attemptOutputs (.regular [5]) 3 4)).run smallStore.machine none
            retriedTask).1.toOption.join.map (fun report => (report.target, report.errorMessage))
        = some (.failed, some "TaskArtifactConflictError") := by
    decide +kernel
  obtain ⟨hcols, hrpt⟩ := hruns
  exact ⟨hcols.canPublish, reported_of_columns hrpt⟩

end MiniAiCloud
