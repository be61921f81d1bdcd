import MiniAiCloud.ArtifactRequests
import MiniAiCloud.LifecycleProofs

/-! # A ready row has its bytes

    The code breaks this in one interleaving: the compensation of a publication removes the
    final object although a finalize request has made the row ready in the meantime
    (`ready_artifact_without_bytes`).  Where no finalize request reads an artifact while it
    is being published it holds, `ready_artifacts_have_bytes`.

    The proof is a contract between the requests: what one relies on while it waits is what
    the others guarantee.  A request that has verified a final object relies on it until the
    row is doomed, and a publication relies on nobody else making its row ready. -/

namespace MiniAiCloud

open Async Reachability OrderedQuery Table Option ArtifactSite

variable {info : ArtifactObjectInfo} {old new : Artifact} {owner : ExecutionOwner}
  {post : ArtifactSite → Prop} {b : Uuid} {name sha256 : String} {other : ArtifactRequest}
  {size : ℤ}

/-- A request that may make a row ready. -/
def ArtifactRequest.finalizes : ArtifactRequest → Bool
  | finalize _ _ _ | publish _ _ _ _ _ _ => true
  | create _ | upload _ _ _ | delete _ _ | retire _ _ _ => false

/-- A request that may remove the final object of a row that is not being deleted. -/
def ArtifactRequest.publishes : ArtifactRequest → Bool
  | publish _ _ _ _ _ _ => true
  | create _ | upload _ _ _ | finalize _ _ _ | delete _ _ | retire _ _ _ => false

section Bytes

variable {store : ArtifactStore} {s t u : ArtifactSite} {p x : Uuid} {request : ArtifactRequest}

/-- The deletion of the artifact has begun. -/
def ArtifactSite.Doomed (site : ArtifactSite) (x : Uuid) : Prop :=
  ∃ artifact, site.row x = some artifact ∧ (artifact.state = .deleting ∨ artifact.state = .deleted)

def ArtifactSite.Unready (site : ArtifactSite) (x : Uuid) : Prop :=
  ∃ artifact, site.row x = some artifact ∧ artifact.state ≠ .ready

/-- The final object of the artifact is the verified one. -/
def ArtifactSite.Holds (store : ArtifactStore) (p x : Uuid) (info : ArtifactObjectInfo)
    (site : ArtifactSite) : Prop :=
  ∃ bytes, site.objects.get? (finalKey p x) = some bytes ∧ info = store.info bytes

/-- The keys of a row, and the bytes of a ready one. -/
structure Artifact.Shelved (store : ArtifactStore) (x : Uuid) (objects : Objects)
    (artifact : Artifact) : Prop where
  key : artifact.objectKey = stagingKey artifact.projectId x
    ∨ artifact.objectKey = finalKey artifact.projectId x
  pending : artifact.state = .pending → artifact.objectKey = stagingKey artifact.projectId x
  ready : artifact.state = .ready → artifact.objectKey = finalKey artifact.projectId x
    ∧ ∃ bytes, objects.get? (finalKey artifact.projectId x) = some bytes
      ∧ artifact.sizeBytes = some (store.info bytes).sizeBytes
      ∧ artifact.sha256 = some (store.info bytes).sha256

def ArtifactSite.Stocked (store : ArtifactStore) (site : ArtifactSite) : Prop :=
  ∀ x artifact, site.row x = some artifact → artifact.Shelved store x site.objects

/-- What a request relies on while it waits: rows stay, deletions go on, a final object it
    has verified stays until the row is doomed, and nobody else makes the row ready that a
    publication created. -/
structure BytesRely (request : ArtifactRequest) (s t : ArtifactSite) : Prop where
  found : s.row request.artifactId ≠ none → t.row request.artifactId ≠ none
  doomed : s.Doomed request.artifactId → t.Doomed request.artifactId
  final : request.finalizes = true → ∀ p bytes,
    s.objects.get? (finalKey p request.artifactId) = some bytes →
    t.objects.get? (finalKey p request.artifactId) = some bytes ∨ t.Doomed request.artifactId
  unready : request.publishes = true → s.Unready request.artifactId →
    t.Unready request.artifactId

/-- What a request guarantees with each operation: it touches its own artifact only, and as
    far as the others rely on it. -/
structure BytesGuar (request : ArtifactRequest) (s t : ArtifactSite) : Prop where
  rows : ∀ y, y ≠ request.artifactId → t.row y = s.row y
  objects : ∀ key : ObjectKey, key.artifactId ≠ request.artifactId →
    t.objects.get? key = s.objects.get? key
  found : s.row request.artifactId ≠ none → t.row request.artifactId ≠ none
  doomed : s.Doomed request.artifactId → t.Doomed request.artifactId
  final : request.publishes = false → ∀ p bytes,
    s.objects.get? (finalKey p request.artifactId) = some bytes →
    t.objects.get? (finalKey p request.artifactId) = some bytes ∨ t.Doomed request.artifactId
  unready : request.finalizes = false → s.Unready request.artifactId →
    t.Unready request.artifactId

/-- A publication is alone with its artifact among the requests that finalize. -/
def ArtifactRequest.Apart (request other : ArtifactRequest) : Prop :=
  request.artifactId = other.artifactId →
    ¬ (request.publishes = true ∧ other.finalizes = true)
      ∧ ¬ (request.finalizes = true ∧ other.publishes = true)

theorem BytesRely.refl (request : ArtifactRequest) (s : ArtifactSite) : BytesRely request s s :=
  ⟨id, id, fun _ _ _ h => .inl h, fun _ h => h⟩

theorem BytesRely.trans (h : BytesRely request s t) (h' : BytesRely request t u) :
    BytesRely request s u where
  found hs := h'.found (h.found hs)
  doomed hs := h'.doomed (h.doomed hs)
  final hf p bytes hs := (h.final hf p bytes hs).elim (h'.final hf p bytes)
    (fun hd => .inr (h'.doomed hd))
  unready hp hs := h'.unready hp (h.unready hp hs)

theorem BytesGuar.refl (request : ArtifactRequest) (s : ArtifactSite) : BytesGuar request s s :=
  ⟨fun _ _ => rfl, fun _ _ => rfl, id, id, fun _ _ _ h => .inl h, fun _ h => h⟩

/-- What one request guarantees is what the others rely on. -/
theorem BytesGuar.shields (hapart : request.Apart other) (h : BytesGuar request s t) :
    BytesRely other s t := by
  by_cases heq : request.artifactId = other.artifactId
  · obtain ⟨hpub, hfinalizes⟩ := hapart heq
    have hfound := h.found
    have hdoom := h.doomed
    have hfin := h.final
    have hunr := h.unready
    rw [heq] at hfound hdoom hfin hunr
    refine ⟨hfound, hdoom, fun hoth => hfin ?_, fun hoth => hunr ?_⟩
    · exact Bool.eq_false_iff.mpr (fun hp => hpub ⟨hp, hoth⟩)
    · exact Bool.eq_false_iff.mpr (fun hf => hfinalizes ⟨hf, hoth⟩)
  · have hrow : t.row other.artifactId = s.row other.artifactId := h.rows _ (.symm heq)
    refine ⟨?_, ?_, ?_, ?_⟩
    · rw [hrow]
      exact id
    · rw [Doomed, Doomed, hrow]
      exact id
    · intro _ p _ hbytes
      rw [h.objects (finalKey p other.artifactId) (.symm heq)]
      exact .inl hbytes
    · rw [Unready, Unready, hrow]
      exact fun _ => id

/-- The contract about ready rows. -/
def bytesContract (store : ArtifactStore) : Contract ArtifactRequest ArtifactSite where
  inv := Stocked store
  rely := BytesRely
  guar := BytesGuar
  knows request site := site.row request.artifactId ≠ none
  apart := ArtifactRequest.Apart
  trans _ _ _ _ h h' := h.trans h'
  apart_symm _ _ h hsame :=
    ⟨fun hp => (h hsame.symm).2 hp.symm, fun hp => (h hsame.symm).1 hp.symm⟩
  shields _ _ _ _ hapart h := h.shields hapart
  knows_rely _ _ _ h := h.found
  knows_guar _ _ _ h := h.found

/-! ## What the operations keep -/

/-- A pending row whose object has been verified becomes a ready row with its bytes. -/
theorem readied_shelved {now : Time} (hrow : s.row x = some old) (hpend : old.state = .pending)
    (hstor : s.Holds store old.projectId x info ∨ s.Doomed x) :
    (old.readied now (finalKey old.projectId x) info).Shelved store x s.objects := by
  refine ⟨.inr rfl, fun h => (nomatch h), fun _ => ⟨rfl, ?_⟩⟩
  rcases hstor with ⟨bytes, hbytes, rfl⟩ | ⟨found, hf, hst⟩
  · exact ⟨bytes, hbytes, rfl, rfl⟩
  · obtain rfl := mem_unique hrow hf
    rw [hpend] at hst
    exact absurd hst (by decide)

/-- The row of a doomed artifact, whatever its keys. -/
theorem doomed_shelved (hold : old.Shelved store x s.objects)
    (hst : new.state = .deleting ∨ new.state = .deleted)
    (hproj : new.projectId = old.projectId) (hkey : new.objectKey = old.objectKey) :
    new.Shelved store x s.objects := by
  refine ⟨?_, ?_, ?_⟩
  · rw [hproj, hkey]
    exact hold.key
  · intro h
    rw [h] at hst
    exact absurd hst (by decide)
  · intro h
    rw [h] at hst
    exact absurd hst (by decide)

theorem ArtifactSite.doomed_iff (hrow : s.row x = some old) :
    s.Doomed x ↔ old.state = .deleting ∨ old.state = .deleted := by
  constructor
  · rintro ⟨_, hart, hst⟩
    obtain rfl := mem_unique hrow hart
    exact hst
  · exact fun hst => ⟨old, hrow, hst⟩

/-- What is known of all rows, when one has a new value. -/
theorem ArtifactSite.each_row {P : Uuid → Objects → Artifact → Prop}
    (hobjs : t.objects = s.objects) (hnew : t.row x = some new)
    (hrows : ∀ y, y ≠ x → t.row y = s.row y) (hP : P x s.objects new)
    (hinv : ∀ y artifact, s.row y = some artifact → P y s.objects artifact) :
    ∀ y artifact, t.row y = some artifact → P y t.objects artifact := by
  intro y artifact hart
  rw [hobjs]
  by_cases hy : y = x
  · subst hy
    obtain rfl := mem_unique hnew hart
    exact hP
  · exact hinv y artifact ((hrows y hy).symm.trans hart)

variable (hx : request.artifactId = x)

include hx

/-- Only the staging object of the artifact changes. -/
theorem restage_bytes {objects : Objects}
    (hobjs : ∀ key, key ≠ stagingKey p x → objects.get? key = s.objects.get? key)
    (hinv : s.Stocked store) :
    let t : ArtifactSite := { s with objects := objects }
    t.Stocked store ∧ BytesGuar request s t := by
  subst hx
  have hfin : ∀ q y, objects.get? (finalKey q y) = s.objects.get? (finalKey q y) :=
    fun q y => hobjs _ (finalKey_ne_stagingKey q y p _)
  refine ⟨?_, fun _ _ => rfl, fun key hkey => hobjs key (fun h => hkey (by rw [h]; rfl)),
    id, id, fun _ q bytes hbytes => .inl ((hfin q _).trans hbytes), fun _ h => h⟩
  intro y artifact hart
  obtain ⟨hkey, hpend, hready⟩ := hinv y artifact hart
  refine ⟨hkey, hpend, ?_⟩
  rw [hfin]
  exact hready

/-- The row of the artifact changes, within what its state allows. -/
theorem rerow_bytes (hrerow : Rerow x old new s t) (hshelved : new.Shelved store x s.objects)
    (hdoom : old.state = .deleting ∨ old.state = .deleted →
      new.state = .deleting ∨ new.state = .deleted)
    (hready : request.finalizes = false → new.state = .ready → old.state = .ready)
    (hinv : s.Stocked store) : t.Stocked store ∧ BytesGuar request s t := by
  subst hx
  obtain ⟨hobjs, hold, hnew, hrows⟩ := hrerow
  refine ⟨each_row hobjs hnew hrows hshelved hinv, hrows,
    fun key _ => by rw [hobjs], ?_, ?_, ?_, ?_⟩
  · rw [hnew]
    exact fun _ h => nomatch h
  · rw [doomed_iff hold, doomed_iff hnew]
    exact hdoom
  · intro _ _ _ hbytes
    rw [hobjs]
    exact .inl hbytes
  · rintro hfin ⟨_, hart, hst⟩
    obtain rfl := mem_unique hold hart
    exact ⟨new, hnew, fun h => hst (hready hfin h)⟩

/-- A new row. -/
theorem enrols_bytes (henr : Enrols x s t)
    (hinv : s.Stocked store) : t.Stocked store ∧ BytesGuar request s t := by
  subst hx
  obtain ⟨hobjs, hfresh, ⟨_, hnew, hpend, hkey⟩, hrows⟩ := henr
  refine ⟨each_row hobjs hnew hrows ⟨.inl hkey, fun _ => hkey, ?_⟩ hinv, hrows,
    fun key _ => by rw [hobjs], ?_, ?_, ?_, ?_⟩
  · rw [hpend]
    exact fun h => nomatch h
  · exact fun h => absurd hfresh h
  · rintro ⟨_, hart, _⟩
    exact nomatch hfresh.symm.trans hart
  · intro _ _ _ hbytes
    rw [hobjs]
    exact .inl hbytes
  · rintro _ ⟨_, hart, _⟩
    exact nomatch hfresh.symm.trans hart

/-- The final object of a row that is not ready is removed: the row is doomed, or a
    publication takes it back. -/
theorem unfinal_bytes (hwhy : s.Doomed x ∨ request.publishes = true ∧ s.Unready x)
    (hinv : s.Stocked store) :
    let t : ArtifactSite := { s with objects := s.objects.erase (finalKey p x) }
    t.Stocked store ∧ BytesGuar request s t := by
  subst hx
  have hunr : s.Unready request.artifactId := by
    rcases hwhy with ⟨artifact, hart, hst⟩ | ⟨_, h⟩
    · refine ⟨artifact, hart, fun h => ?_⟩
      rw [h] at hst
      exact absurd hst (by decide)
    · exact h
  have hoth : ∀ key : ObjectKey, key.artifactId ≠ request.artifactId →
      (s.objects.erase (finalKey p request.artifactId)).get? key = s.objects.get? key :=
    fun key hkey => get?_erase_ne _ (fun h => hkey (by rw [h]; rfl))
  refine ⟨?_, fun _ _ => rfl, hoth, id, id, ?_, fun _ h => h⟩
  · intro y artifact hart
    obtain ⟨hkey, hpend, hready⟩ := hinv y artifact hart
    refine ⟨hkey, hpend, ?_⟩
    intro hst
    by_cases hy : y = request.artifactId
    · subst hy
      obtain ⟨_, hf, hnot⟩ := hunr
      obtain rfl := mem_unique hart hf
      exact absurd hst hnot
    · rw [hoth (finalKey artifact.projectId y) hy]
      exact hready hst
  · intro hpub _ _ _
    rcases hwhy with hdoom | ⟨hpublication, _⟩
    · exact .inr hdoom
    · exact absurd hpublication (Bool.eq_false_iff.mp hpub)

/-- A staging object is moved to a final key that was free. -/
theorem promote_bytes (bytes : Bytes)
    (hfree : s.objects.get? (finalKey p x) = none) (hinv : s.Stocked store) :
    let t : ArtifactSite := { s with
      objects := (s.objects.erase (stagingKey p x)).put (finalKey p x) bytes }
    t.Stocked store ∧ BytesGuar request s t := by
  subst hx
  have hoth : ∀ key : ObjectKey, key ≠ stagingKey p request.artifactId →
      key ≠ finalKey p request.artifactId →
      ((s.objects.erase (stagingKey p request.artifactId)).put
        (finalKey p request.artifactId) bytes).get? key = s.objects.get? key := by
    intro _ hstg hfin
    rw [get?_put_ne _ _ hfin, get?_erase_ne _ hstg]
  have hkept : ∀ q y found, s.objects.get? (finalKey q y) = some found →
      ((s.objects.erase (stagingKey p request.artifactId)).put
        (finalKey p request.artifactId) bytes).get? (finalKey q y) = some found := by
    intro q y _ hf
    have hne : finalKey q y ≠ finalKey p request.artifactId := by
      intro h
      rw [h, hfree] at hf
      cases hf
    rw [hoth _ (finalKey_ne_stagingKey q y p _) hne]
    exact hf
  refine ⟨?_, fun _ _ => rfl, ?_, id, id, ?_, fun _ h => h⟩
  · intro y artifact hart
    obtain ⟨hkey, hpend, hready⟩ := hinv y artifact hart
    refine ⟨hkey, hpend, fun hst => ?_⟩
    obtain ⟨hfin, found, hf, hinfo⟩ := hready hst
    exact ⟨hfin, found, hkept _ y found hf, hinfo⟩
  · intro key hkey
    exact hoth key (fun h => hkey (by rw [h]; rfl)) (fun h => hkey (by rw [h]; rfl))
  · intro _ q found hf
    exact .inl (hkept q _ found hf)

/-! ## What the requests keep -/

/-- The operations of a request keep the contract. -/
abbrev KeepsBytes (store : ArtifactStore) (request : ArtifactRequest) {α : Type}
    (post : Except ArtifactFault α → ArtifactSite → Prop) (prog : ArtifactProg α)
    (s : ArtifactSite) : Prop :=
  prog.Safe store.machine (Stocked store) (BytesRely request) (BytesGuar request)
    post s

theorem markFailed_bytes {reason : String} :
    KeepsBytes store request (fun _ _ => True) (await (.markFailed p x reason)) s := by
  refine await_safe (BytesGuar.refl request) (fun _ _ _ _ => trivial) ?_
  intro t _ u _ hinv hperf
  obtain ⟨old, _, hrerow, hnew⟩ := perform_markFailed hperf
  have hold := hinv x old hrerow.before
  suffices h : u.Stocked store ∧ BytesGuar request t u from ⟨h.1, h.2, trivial⟩
  rcases hnew with rfl | ⟨hpend, rfl⟩
  · exact rerow_bytes hx hrerow hold id (fun _ => id) hinv
  · refine rerow_bytes hx hrerow ⟨hold.key, ?_, ?_⟩ ?_ ?_ hinv
    · exact fun h => nomatch h
    · exact fun h => nomatch h
    · rw [hpend]
      exact fun h => absurd h (by decide)
    · exact fun _ h => nomatch h

section Await

variable (hpost : ∀ t u : ArtifactSite, BytesRely request s t → u.db = t.db → post u)

include hpost

theorem put_bytes {chunks : List Bytes} : KeepsBytes store request (returns fun _ => post)
      (await (.put (stagingKey p x) chunks size sha256)) s := by
  refine await_safe (BytesGuar.refl request) (fun _ _ _ _ => trivial) ?_
  intro t _ _ ht hinv hperf
  obtain ⟨bytes, rfl⟩ := perform_put hperf
  obtain ⟨hstk, hguar⟩ := restage_bytes hx (fun key hkey => get?_put_ne t.objects bytes hkey) hinv
  exact ⟨hstk, hguar, hpost t _ ht rfl⟩

theorem removeStaging_bytes :
    KeepsBytes store request (returns fun _ => post) (await (.remove (stagingKey p x))) s := by
  refine await_safe (BytesGuar.refl request) (fun _ _ _ _ => trivial) ?_
  intro t _ _ ht hinv hperf
  cases hperf
  obtain ⟨hstk, hguar⟩ := restage_bytes hx (fun key hkey => get?_erase_ne t.objects hkey) hinv
  exact ⟨hstk, hguar, hpost t _ ht rfl⟩

theorem removeFinal_bytes
    (hwhy : ∀ t, BytesRely request s t → t.Doomed x ∨ request.publishes = true ∧ t.Unready x) :
    KeepsBytes store request (returns fun _ => post) (await (.remove (finalKey p x))) s := by
  refine await_safe (BytesGuar.refl request) (fun _ _ _ _ => trivial) ?_
  intro t _ _ ht hinv hperf
  cases hperf
  obtain ⟨hstk, hguar⟩ := unfinal_bytes (p := p) hx (hwhy t ht) hinv
  exact ⟨hstk, hguar, hpost t _ ht rfl⟩

theorem finalize_bytes :
    KeepsBytes store request (returns fun info u => u.Holds store p x info ∧ post u)
      (await (.finalize (stagingKey p x) (finalKey p x) size sha256)) s := by
  refine await_safe (BytesGuar.refl request) (fun _ _ _ _ => trivial) ?_
  intro t _ _ ht hinv hperf
  obtain ⟨bytes, rfl, ⟨hthere, rfl⟩ | ⟨hfree, _, rfl⟩⟩ := perform_finalize hperf
  · exact ⟨hinv, BytesGuar.refl request _, ⟨bytes, hthere, rfl⟩, hpost _ _ ht rfl⟩
  · obtain ⟨hstk, hguar⟩ := promote_bytes (p := p) hx bytes hfree hinv
    exact ⟨hstk, hguar, ⟨bytes, get?_put_self _ _ _, rfl⟩, hpost t _ ht rfl⟩

end Await

variable (hfin : request.finalizes = true)

include hfin

/-- A verified object stays, or the row is doomed. -/
theorem ArtifactSite.Holds.later (h : s.Holds store p x info ∨ s.Doomed x)
    (hrely : BytesRely request s t) :
    t.Holds store p x info ∨ t.Doomed x := by
  subst hx
  rcases h with ⟨bytes, hbytes, hinfo⟩ | hdoom
  · exact (hrely.final hfin p bytes hbytes).imp (fun h => ⟨bytes, h, hinfo⟩) id
  · exact .inr (hrely.doomed hdoom)

/-- `mark_ready` of a request that finalizes, alone or in the commit of a publication. -/
theorem readying_bytes
    {now : Time} (hstor : s.Holds store old.projectId x info ∨ s.Doomed x)
    (hrerow : Rerow x old new s t) (hnew : new = old ∧ old.state = .ready
      ∨ old.state = .pending ∧ old.sizeBytes = some info.sizeBytes
        ∧ old.sha256 = some info.sha256
        ∧ new = old.readied now (finalKey old.projectId x) info) (hinv : s.Stocked store) :
    t.Stocked store ∧ BytesGuar request s t := by
  have hmay : request.finalizes = false → new.state = .ready → old.state = .ready := by
    rw [hfin]
    exact fun h => nomatch h
  rcases hnew with ⟨rfl, _⟩ | ⟨hpend, _, _, rfl⟩
  · exact rerow_bytes hx hrerow (hinv x new hrerow.before) id hmay hinv
  · refine rerow_bytes hx hrerow (readied_shelved hrerow.before hpend hstor) ?_ hmay hinv
    rw [hpend]
    exact fun h => absurd h (by decide)

theorem markReady_bytes (hstor : s.Holds store p x info ∨ s.Doomed x) :
    KeepsBytes store request (fun _ _ => True) (await (.markReady p x (finalKey p x) info)) s := by
  refine await_safe (BytesGuar.refl request) (fun _ _ _ _ => trivial) ?_
  intro _ _ _ ht hinv hperf
  obtain ⟨_, _, rfl, hrerow, hnew⟩ := perform_markReady hperf
  obtain ⟨hstk, hguar⟩ := readying_bytes hx hfin (Holds.later hx hfin hstor ht) hrerow hnew hinv
  exact ⟨hstk, hguar, trivial⟩

omit hfin

/-- A row becomes doomed, or stays so. -/
theorem dooming_bytes (hrerow : Rerow x old new s t)
    (hst : new.state = .deleting ∨ new.state = .deleted)
    (hproj : new.projectId = old.projectId) (hkey : new.objectKey = old.objectKey)
    (hinv : s.Stocked store) : t.Stocked store ∧ BytesGuar request s t := by
  refine rerow_bytes hx hrerow
    (doomed_shelved (hinv x old hrerow.before) hst hproj hkey) (fun _ => hst) ?_ hinv
  intro _ h
  rw [h] at hst
  exact absurd hst (by decide)

theorem beginDelete_bytes :
    KeepsBytes store request (returns fun _ u => u.Doomed x) (await (.beginDelete p x)) s := by
  refine await_safe (BytesGuar.refl request) (fun _ _ _ _ => trivial) ?_
  intro t artifact u _ hinv hperf
  obtain ⟨old, _, hrerow, hst, hnew⟩ := perform_beginDelete hperf
  have heq : artifact.projectId = old.projectId ∧ artifact.objectKey = old.objectKey := by
    rcases hnew with rfl | rfl
    · exact ⟨rfl, rfl⟩
    · exact ⟨rfl, rfl⟩
  obtain ⟨hstk, hguar⟩ := dooming_bytes hx hrerow hst heq.1 heq.2 hinv
  exact ⟨hstk, hguar, artifact, hrerow.after, hst⟩

theorem markDeleted_bytes :
    KeepsBytes store request (fun _ _ => True) (await (.markDeleted p x)) s := by
  refine await_safe (BytesGuar.refl request) (fun _ _ _ _ => trivial) ?_
  intro _ _ _ _ hinv hperf
  obtain ⟨old, new, _, hrerow, hst, hnew⟩ := perform_markDeleted hperf
  have heq : new.projectId = old.projectId ∧ new.objectKey = old.objectKey := by
    rcases hnew with rfl | rfl
    · exact ⟨rfl, rfl⟩
    · exact ⟨rfl, rfl⟩
  obtain ⟨hstk, hguar⟩ := dooming_bytes hx hrerow (.inr hst) heq.1 heq.2 hinv
  exact ⟨hstk, hguar, trivial⟩

/-- The objects of a doomed artifact are removed. -/
theorem removeDoomed_bytes (hdoom : s.Doomed x)
    {key : ObjectKey} (hkey : key = stagingKey p x ∨ key = finalKey p x) :
    KeepsBytes store request (returns fun _ u => u.Doomed x) (await (.remove key)) s := by
  have hlater : ∀ t, BytesRely request s t → t.Doomed x := by
    subst hx
    exact fun t ht => ht.doomed hdoom
  have hpost : ∀ t u : ArtifactSite, BytesRely request s t → u.db = t.db → u.Doomed x := by
    intro t u ht hdb
    rw [Doomed, row, hdb]
    exact hlater t ht
  rcases hkey with rfl | rfl
  · exact removeStaging_bytes hx hpost
  · exact removeFinal_bytes hx hpost (fun t ht => .inl (hlater t ht))

theorem removeAll_bytes : ∀ {keys : List ObjectKey} {s : ArtifactSite},
      (∀ key ∈ keys, key = stagingKey p x ∨ key = finalKey p x) → s.Doomed x →
      KeepsBytes store request (fun _ _ => True) (removeAll keys) s := by
  intro keys
  induction keys with
  | nil => exact fun _ _ => trivial
  | cons key _ ih =>
    intro s hkeys hdoom
    refine (removeDoomed_bytes hx hdoom (hkeys key List.mem_cons_self)).then (fun _ _ => id) ?_
    exact fun _ t hafter => ih (fun k hk => hkeys k (List.mem_cons_of_mem key hk)) hafter

variable (hpub : request.publishes = true)

include hpub

/-- The row of a publication is not ready before its commit. -/
theorem BytesRely.unreadyIn
    (hunr : s.Unready x) (h : BytesRely request s t) : t.Unready x := by
  subst hx
  exact h.unready hpub hunr

/-- A failed publication takes its object back, marks its row failed, and raises. -/
theorem compensate_bytes {α : Type} {key : ObjectKey}
    (hkey : key = stagingKey p x ∨ key = finalKey p x ∧ s.Unready x) {what : String}
    {fault : ArtifactFault} :
    KeepsBytes store request (fun result _ => ∀ a, result ≠ .ok a)
      (compensate owner x key what fault : ArtifactProg α) s := by
  have hrem : KeepsBytes store request (returns fun _ _ => True) (await (.remove key)) s := by
    rcases hkey with rfl | ⟨rfl, hunr⟩
    · exact removeStaging_bytes hx (fun _ _ _ _ => trivial)
    · exact removeFinal_bytes hx (fun _ _ _ _ => trivial)
        (fun t ht => .inr ⟨hpub, ht.unreadyIn hx hpub hunr⟩)
  refine hrem.then (fun _ _ _ _ h => nomatch h) fun _ t _ => ?_
  exact (markFailed_bytes hx).then (fun _ _ _ _ h => nomatch h) fun _ _ _ _ h => nomatch h

/-- The commit of a publication makes the row ready, or leaves everything as it was. -/
theorem commitOutput_bytes (hfin : request.finalizes = true)
    (hstor : s.Holds store owner.projectId x info ∨ s.Doomed x) (hunr : s.Unready x) :
    KeepsBytes store request (onError (fun _ => true) (fun _ u => u.Unready x) (fun _ _ => True))
      (await (.commitOutput owner b x (finalKey owner.projectId x) info)) s := by
  refine await_safe (BytesGuar.refl request) ?_ ?_
  · intro _ _ ht _
    exact ht.unreadyIn hx hpub hunr
  · intro _ _ _ ht hinv hperf
    obtain ⟨_, _, hproj, hrerow, hnew⟩ := perform_commitOutput hperf
    rw [← hproj] at hstor hnew
    obtain ⟨hstk, hguar⟩ := readying_bytes hx hfin (Holds.later hx hfin hstor ht) hrerow hnew hinv
    exact ⟨hstk, hguar, trivial⟩

omit hpub

theorem createOutput_bytes : KeepsBytes store request (returns fun _ u => u.Unready x)
      (await (.createOutput owner (store.outputRequest owner x name info))) s := by
  refine await_safe (BytesGuar.refl request) (fun _ _ _ _ => trivial) ?_
  intro t _ u _ hinv hperf
  have henr : Enrols x t u := perform_createOutput rfl hperf
  obtain ⟨hstk, hguar⟩ := enrols_bytes hx henr hinv
  obtain ⟨new, hnew, hpend, _⟩ := henr.after
  refine ⟨hstk, hguar, new, hnew, ?_⟩
  rw [hpend]
  exact fun h => nomatch h

variable (hpub : request.publishes = true)

include hpub

/-- The put and the finalize of a publication. -/
theorem publishObject_bytes (hunr : s.Unready x) {bytes : Bytes} :
    KeepsBytes store request (returns fun info u => u.Holds store p x info ∧ u.Unready x)
      (do
        let _ ← await (.put (stagingKey p x) [bytes] size sha256)
        await (.finalize (stagingKey p x) (finalKey p x) size sha256)) s := by
  have hkeeps : ∀ {s' : ArtifactSite}, s'.Unready x → ∀ t u : ArtifactSite,
      BytesRely request s' t → u.db = t.db → u.Unready x := by
    intro _ hs' _ _ ht hdb
    rw [Unready, row, hdb]
    exact ht.unreadyIn hx hpub hs'
  refine (put_bytes hx (hkeeps hunr)).then (fun _ _ => id) fun _ t hafter => ?_
  exact finalize_bytes hx (hkeeps hafter)

/-- **A PUBLICATION** keeps the contract. -/
theorem publish_bytes (hfin : request.finalizes = true) {bytes : Bytes} :
    KeepsBytes store request (fun _ _ => True) (store.publish owner b x name bytes info) s := by
  refine (createOutput_bytes hx).then (fun _ _ => id) fun _ t hunr => ?_
  refine Prog.safe_bind (Prog.safe_catching ((publishObject_bytes hx hpub hunr).mono ?_))
  intro stored u hstor
  cases stored with
  | error =>
    refine (compensate_bytes hx hpub (.inl rfl)).mono ?_
    intro result _ hrss
    cases result with
    | ok a => exact absurd rfl (hrss a)
    | error => trivial
  | ok =>
    obtain ⟨hholds, hstill⟩ := hstor
    refine Prog.safe_catching ((commitOutput_bytes hx hpub hfin (.inl hholds) hstill).mono ?_)
    intro committed v hafter
    cases committed with
    | ok => trivial
    | error =>
      exact (compensate_bytes hx hpub (.inr ⟨rfl, hafter⟩)).mono (fun _ _ _ => trivial)

theorem publishFile_bytes (hfin : request.finalizes = true) {placeholder : OutputPlaceholder}
    {file : OutputFile} :
    KeepsBytes store request (fun _ _ => True)
      (store.publishFile owner b name placeholder file x) s := by
  rw [ArtifactStore.publishFile]
  rcases inspectOutput_cases store name placeholder file with ⟨fault, hrss⟩ | ⟨bytes, hf⟩
  · rw [hrss]
    trivial
  · rw [hf]
    exact publish_bytes hx hpub hfin

omit hpub

theorem retire_bytes : KeepsBytes store request
      (returns fun found u => ∀ artifact, found = some artifact → u.Doomed x
        ∧ (artifact.objectKey = stagingKey p x ∨ artifact.objectKey = finalKey p x))
      (await (.retire p x)) s := by
  refine await_safe (BytesGuar.refl request) (fun _ _ _ _ => trivial) ?_
  intro t found u _ hinv hperf
  rcases perform_retire hperf with ⟨rfl, rfl⟩ | ⟨artifact, old, rfl, rfl, hrerow, hst, hnew⟩
  · exact ⟨hinv, BytesGuar.refl request _, fun _ h => nomatch h⟩
  · have heq : artifact.projectId = old.projectId ∧ artifact.objectKey = old.objectKey := by
      rcases hnew with rfl | rfl
      · exact ⟨rfl, rfl⟩
      · exact ⟨rfl, rfl⟩
    obtain ⟨hstk, hguar⟩ := dooming_bytes hx hrerow hst heq.1 heq.2 hinv
    refine ⟨hstk, hguar, ?_⟩
    intro _ hf
    obtain rfl := some.inj hf
    rw [heq.2]
    exact ⟨⟨artifact, hrerow.after, hst⟩, (hinv x old hrerow.before).key⟩

theorem deleteRetainedArtifact_bytes {rank : ObjectKey → ℕ} :
    KeepsBytes store request (fun _ _ => True) (deleteRetainedArtifact rank p x) s := by
  refine (retire_bytes hx).then (fun _ _ => id) fun found t hretired => ?_
  cases found with
  | none => trivial
  | some artifact =>
    obtain ⟨hdoom, hkey⟩ := hretired artifact rfl
    refine (removeAll_bytes (p := p) hx ?_ hdoom).then (fun _ _ => id) ?_
    · intro _ hmem
      have hlist := List.mem_dedup.mp (mem_orderBy.mp hmem)
      simp only [List.mem_cons, List.not_mem_nil, or_false] at hlist
      rcases hlist with rfl | rfl | rfl
      · exact hkey
      · exact .inl rfl
      · exact .inr rfl
    · exact fun _ _ _ => (markDeleted_bytes hx).then (fun _ _ => id) (fun _ _ => id)

omit hx

theorem create_bytes {pending : PendingArtifact} (hx : request.artifactId = pending.artifactId) :
    KeepsBytes store request (fun _ _ => True) (store.create pending) s := by
  refine Prog.safe_raiseIf (fun _ => trivial) (fun _ => ?_)
  refine await_safe (BytesGuar.refl request) (fun _ _ _ _ => trivial) ?_
  intro _ _ _ _ hinv hperf
  have hkey : (store.staged pending).objectKey
      = stagingKey (store.staged pending).projectId (store.staged pending).artifactId := rfl
  have henr := perform_create hkey hperf
  obtain ⟨hstk, hguar⟩ := enrols_bytes hx henr hinv
  exact ⟨hstk, hguar, trivial⟩

/-- **EVERY REQUEST** keeps the contract. -/
theorem request_bytes (request : ArtifactRequest) (s : ArtifactSite) :
    KeepsBytes store request (fun _ _ => True) (request.prog store) s := by
  cases request with
  | create => exact void_safe (create_bytes rfl)
  | upload _ x =>
    refine void_safe (upload_safe (BytesGuar.refl _) ?_ (fun _ _ => markFailed_bytes rfl))
    rintro _ artifact _ _ hinv hrow rfl hst
    rw [(hinv x artifact hrow).pending hst]
    exact (put_bytes rfl (fun _ _ _ _ => trivial)).mono (fun _ _ _ => trivial)
  | finalize p x =>
    refine void_safe (finalizeRequest_safe (BytesGuar.refl _)
      (fun info u => u.Holds store p x info ∧ True) ?_ ?_ (fun _ _ => markFailed_bytes rfl) ?_)
    · rintro _ artifact _ _ hinv hrow rfl hst
      rw [(hinv x artifact hrow).pending hst]
      exact finalize_bytes rfl (fun _ _ _ _ => trivial)
    · exact fun t info hstor => markReady_bytes rfl rfl (.inl hstor.1)
    · rintro t u artifact hinv hrow rfl hst
      rw [(hinv x artifact hrow).pending hst]
      exact (removeStaging_bytes rfl (fun _ _ _ _ => trivial)).mono (fun _ _ _ => trivial)
  | delete =>
    exact void_safe (deleteRequest_safe _ _ _ (beginDelete_bytes rfl)
      (fun t ht => removeDoomed_bytes rfl ht (.inl rfl))
      (fun t ht => removeDoomed_bytes rfl ht (.inr rfl))
      (fun _ _ => markDeleted_bytes rfl))
  | retire => exact void_safe (deleteRetainedArtifact_bytes rfl)
  | publish =>
    exact void_safe (publishFile_bytes rfl rfl rfl)

/-! ## Over whole runs -/

variable {pool : ArtifactRequests}

/-- No publication of the artifact is in flight. -/
def NoPublication (pool : ArtifactRequests) (x : Uuid) : Prop :=
  ∀ entry ∈ pool.procs.rows, entry.2.1.artifactId = x → entry.2.1.publishes = false
  deriving Decidable

/-- A finalize request reads its artifact when no publication of it is in flight. -/
def FinalizesPublished : RequestCall → ArtifactRequests → Prop
  | .start _ (.finalize _ x _) _, pool => NoPublication pool x
  | .start _ (.create _) _, _ | .start _ (.upload _ _ _) _, _ | .start _ (.delete _ _) _, _
  | .start _ (.retire _ _ _) _, _ | .start _ (.publish _ _ _ _ _ _) _, _
  | .advance _ _, _ | .abandon _, _ | .elsewhere _ _, _ => True

theorem NoPublication.of_inFlight (h : NoPublication pool x) (hoth : pool.InFlight other)
    (hx : other.artifactId = x) : other.publishes = false := by
  obtain ⟨i, prog, hget⟩ := hoth
  exact h (i, other, prog) (mem_rows.mpr hget) hx

/-- A request that does not finalize goes beside any other. -/
theorem ArtifactRequest.apart_of_quiet (hfin : request.finalizes = false)
    (hpub : request.publishes = false) :
    request.Apart other := by
  intro _
  rw [hfin, hpub]
  exact ⟨fun h => Bool.false_ne_true h.1, fun h => Bool.false_ne_true h.1⟩

/-- How a request starts: it ends at once, or it goes on beside the others and its row is
    there. -/
theorem request_goes (h : pool.Sound store.machine (bytesContract store)) {i : ℕ}
    {fault : Option ArtifactFault}
    (hok : FinalizesPublished (.start i request fault) pool) :
    (∃ result, (request.prog store).advance store.machine fault pool.shared
        = (.done result, pool.shared))
      ∨ (∀ other, pool.InFlight other → request.Apart other)
        ∧ ((request.prog store).advance store.machine fault pool.shared).2.row
          request.artifactId ≠ none := by
  cases request with
  | create pending =>
    rcases create_prog store pending with ⟨result, hdone⟩ | ⟨resume, hprog, hends⟩
    · rw [hdone]
      exact .inl ⟨result, rfl⟩
    · refine (first_step store pool.shared hprog hends fault).imp id ?_
      rintro ⟨_, _, hperf, hgoes⟩
      rw [hgoes]
      refine ⟨fun _ _ => ArtifactRequest.apart_of_quiet rfl rfl, ?_⟩
      have hkey : (store.staged pending).objectKey
        = stagingKey (store.staged pending).projectId (store.staged pending).artifactId := rfl
      obtain ⟨_, hnew, _⟩ := (perform_create hkey hperf).after
      exact fun hn => nomatch hn.symm.trans hnew
  | upload p x upload =>
    obtain ⟨_, hprog, hends, hmiss, _⟩ := upload_prog store p x upload
    refine (read_step store pool.shared hprog hends hmiss fault).imp id ?_
    rintro ⟨_, hrow, hgoes⟩
    rw [hgoes]
    exact ⟨fun _ _ => ArtifactRequest.apart_of_quiet rfl rfl,
      fun hn => nomatch hn.symm.trans hrow⟩
  | finalize p x payload =>
    obtain ⟨_, hprog, hends, hmiss⟩ := finalize_prog store p x payload
    refine (read_step store pool.shared hprog hends hmiss fault).imp id ?_
    rintro ⟨_, hrow, hgoes⟩
    rw [hgoes]
    refine ⟨fun other hoth hx => ⟨fun h => Bool.false_ne_true h.1, fun h => ?_⟩,
      fun hn => nomatch hn.symm.trans hrow⟩
    exact Bool.false_ne_true ((NoPublication.of_inFlight hok hoth hx.symm).symm.trans h.2)
  | delete p x =>
    obtain ⟨_, hprog, hends⟩ := delete_prog store p x
    refine (first_step store pool.shared hprog hends fault).imp id ?_
    rintro ⟨_, _, hperf, hgoes⟩
    rw [hgoes]
    obtain ⟨_, _, hrerow, _⟩ := perform_beginDelete hperf
    exact ⟨fun _ _ => ArtifactRequest.apart_of_quiet rfl rfl,
      fun hn => nomatch hn.symm.trans hrerow.after⟩
  | retire rank p x =>
    obtain ⟨_, hprog, hends, ⟨result, hres⟩⟩ := retire_prog store rank p x
    rcases first_step store pool.shared hprog hends fault with
      hended | ⟨found, t, hperf, hgoes⟩
    · exact .inl hended
    · rw [hgoes]
      rcases perform_retire hperf with ⟨rfl, rfl⟩ | ⟨_, _, _, _, hrerow, _⟩
      · exact .inl ⟨result, by rw [hres]⟩
      · exact .inr ⟨fun _ _ => ArtifactRequest.apart_of_quiet rfl rfl,
          fun hn => nomatch hn.symm.trans hrerow.after⟩
  | publish owner b name placeholder file x =>
    rcases publish_prog store owner b x name placeholder file with
      ⟨result, hdone⟩ | ⟨info, resume, hprog, hends⟩
    · rw [hdone]
      exact .inl ⟨result, rfl⟩
    · refine (first_step store pool.shared hprog hends fault).imp id ?_
      rintro ⟨_, t, hperf, hgoes⟩
      rw [hgoes]
      have henr : Enrols x pool.shared t := perform_createOutput rfl hperf
      obtain ⟨_, hnew, _⟩ := henr.after
      refine ⟨fun other hoth hx => ?_, fun hn => nomatch hn.symm.trans hnew⟩
      -- the row is new, and what is in flight has found its row
      have hthere : pool.shared.row other.artifactId ≠ none := h.knows other hoth
      rw [← hx] at hthere
      exact absurd henr.fresh hthere

theorem artifactRequests_bytes_step (h : pool.Sound store.machine (bytesContract store))
    (call : RequestCall) (hok : FinalizesPublished call pool) :
    ((artifactRequests store).step call pool).Sound store.machine (bytesContract store) := by
  cases call with
  | start i request fault =>
    exact h.start BytesRely.refl i request fault (request_bytes request pool.shared)
      (request_goes h hok)
  | advance i fault => exact h.advance BytesRely.refl i fault
  | abandon i => exact h.abandon i
  | elsewhere =>
    exact h.outside (fun y artifact hrow => h.inv y artifact hrow)
      (fun _ _ => ⟨id, id, fun _ _ _ hbytes => .inl hbytes, fun _ hunr => hunr⟩)

end Bytes

/-- **A READY ROW HAS ITS BYTES**, whatever fails and however the requests interleave, if
    no finalize request reads an artifact while it is being published. -/
theorem ready_artifacts_have_bytes {store : ArtifactStore} {pool : ArtifactRequests}
    (h : Reach (artifactRequests store) FinalizesPublished pool) {x : Uuid}
    {artifact : Artifact} (hrow : pool.shared.row x = some artifact)
    (hready : artifact.state = .ready) :
    ∃ bytes, pool.shared.objects.get? artifact.objectKey = some bytes
      ∧ artifact.sizeBytes = some (bytes.length : ℤ)
      ∧ artifact.sha256 = some (store.digest bytes) := by
  have hsnd : pool.Sound store.machine (bytesContract store) := by
    refine h.invariant ?_ (fun call pool hpool hok => artifactRequests_bytes_step hpool call hok)
    rintro ⟨_, procs⟩ ⟨hrows, _, hprocs⟩
    obtain rfl : procs = .empty := hprocs
    refine Pool.sound_empty ?_
    intro y _ hf
    exact nomatch (get?_of_rows_nil hrows y).symm.trans hf
  obtain ⟨hkey, bytes, hbytes, hsize, hsha⟩ := (hsnd.inv x artifact hrow).ready hready
  rw [hkey]
  exact ⟨bytes, hbytes, hsize, hsha⟩

/-- A small store; every object has one checksum. -/
def smallStore : ArtifactStore := ⟨"local", 1000, 1000, fun _ => zeroSha256⟩

/-- An artifact of two bytes is created, uploaded and finalized. -/
def finalizingCalls : List RequestCall :=
  [.start 0 (.create (smallArtifact 1 2)) none,
   .start 0 (.upload 7 1 ⟨[[1, 2]], none, none⟩) none, .advance 0 none,
   .start 0 (.finalize 7 1 ⟨2, zeroSha256⟩) none, .advance 0 none, .advance 0 none]

/-- No request has come yet to the store of project 7. -/
def idleRequests : ArtifactRequests := ⟨⟨limitedProject, .empty, 0⟩, .empty⟩

theorem idleRequests_init : (artifactRequests smallStore).init idleRequests := ⟨rfl, rfl, rfl⟩

theorem ready_artifacts_have_bytes_uploaded :
    ∃ bytes, ((artifactRequests smallStore).run finalizingCalls idleRequests).shared.objects.get?
      (finalKey 7 1) = some bytes ∧ bytes.length = 2 := by
  have hruns : NoPublication
        ((artifactRequests smallStore).run (finalizingCalls.take 3) idleRequests) 1
      ∧ (((artifactRequests smallStore).run finalizingCalls idleRequests).shared.row 1).map
        (fun artifact => (artifact.state, artifact.objectKey, artifact.sizeBytes))
          = some (.ready, finalKey 7 1, some 2) := by decide +kernel
  obtain ⟨hfin, hrow⟩ := hruns
  have halw : Allowed (artifactRequests smallStore) FinalizesPublished finalizingCalls
      idleRequests := ⟨trivial, trivial, trivial, hfin, trivial, trivial, trivial⟩
  have hreach := (Reach.init idleRequests_init).run finalizingCalls halw
  obtain ⟨artifact, hart, hcols⟩ := map_eq_some_iff.mp hrow
  obtain ⟨hst, hkey, hsize⟩ : artifact.state = .ready ∧ artifact.objectKey = finalKey 7 1
      ∧ artifact.sizeBytes = some 2 := by
    simpa only [Prod.mk.injEq] using hcols
  obtain ⟨bytes, hbytes, hlen, _⟩ := ready_artifacts_have_bytes hreach hart hst
  rw [hkey] at hbytes
  rw [hsize] at hlen
  exact ⟨bytes, hbytes, by exact_mod_cast (some.inj hlen).symm⟩

/-- Task 1 runs on worker `w` as execution 11. -/
def runningTask : Db :=
  controlPlane.run
    [⟨0, .initializeQuota 7⟩, ⟨0, registerWorker⟩, ⟨1, .createQueued 1 (halfCoreTask [])⟩,
     ⟨3, .claim 1 "w" 11 30 none standardPrices []⟩, ⟨4, .markPulling firstOwner 30 5⟩,
     ⟨5, .markStarting firstOwner 30 5⟩, ⟨6, .markRunning firstOwner 30 5⟩] freshCloud

/-- It has declared an output. -/
def runningCloud : Db :=
  runningTask.withTaskArtifacts
    (Table.empty.insert 20 (outputBinding 1 1 ⟨"weights", "/output/weights", true⟩))

def firstExecution : ExecutionOwner := ⟨1, 7, "w", 11, some 100⟩

def busyRequests : ArtifactRequests := ⟨⟨runningCloud, .empty, 6⟩, .empty⟩

/-- The worker has published the object of the output, and a client finalizes the artifact
    before the worker commits. -/
def overtakenRequests : ArtifactRequests :=
  (artifactRequests smallStore).run
    [.start 0 (.publish firstExecution 20 "weights" ⟨32, zeroSha256⟩ (.regular [1, 2]) 1) none,
     .advance 0 none, .advance 0 none, .start 1 (.finalize 7 1 ⟨2, zeroSha256⟩) none,
     .advance 1 none, .advance 1 none] busyRequests

/-- The lease of the execution expires and is recovered; the commit of the worker fails, and
    its compensation removes the object. -/
def strandedRequests : ArtifactRequests :=
  (artifactRequests smallStore).run
    [.elsewhere (controlPlane.step ⟨200, .recoverExpired [] 10 3 5⟩ overtakenRequests.shared.db)
       200, .advance 0 none, .advance 0 none, .advance 0 none] overtakenRequests

theorem ready_artifact_without_bytes :
    ∃ pool artifact, Reach (artifactRequests smallStore) (fun _ _ => True) pool
      ∧ pool.shared.row 1 = some artifact ∧ artifact.state = .ready
      ∧ pool.shared.objects.get? artifact.objectKey = none := by
  have hruns : runningCloud.library.artifacts.rows = []
      ∧ (strandedRequests.shared.row 1).map (fun artifact => (artifact.state,
        strandedRequests.shared.objects.get? artifact.objectKey)) = some (.ready, none) := by
    decide +kernel
  obtain ⟨hn, hrow⟩ := hruns
  have hinit : (artifactRequests smallStore).init busyRequests := ⟨hn, rfl, rfl⟩
  have hreach : Reach (artifactRequests smallStore) (fun _ _ => True) strandedRequests :=
    ((Reach.init hinit).run _ (allowed_of_forall _ (fun _ _ _ => trivial) _)).run _
      (allowed_of_forall _ (fun _ _ _ => trivial) _)
  obtain ⟨artifact, hart, hcols⟩ := map_eq_some_iff.mp hrow
  obtain ⟨hst, hobj⟩ := Prod.mk.inj hcols
  exact ⟨strandedRequests, artifact, hreach, hart, hst, hobj⟩

end MiniAiCloud
