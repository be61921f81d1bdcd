import MiniAiCloud.ReadyBytesProofs

/-! # A deleted row has left no bytes

    The code breaks this in one interleaving: an upload that read the row before a deletion
    puts the staging object after it (`deleted_artifact_leaves_bytes`).  Where a deletion
    begins when no upload of its artifact is in flight it holds,
    `deleted_artifacts_leave_no_bytes`.

    A deletion removes the staging object first.  From then on nothing can bring either
    object back, since a final object comes only from a staging object. -/

namespace MiniAiCloud

open Async Reachability Table ArtifactSite

def ArtifactRequest.uploads : ArtifactRequest → Bool
  | upload _ _ _ => true
  | create _ | finalize _ _ _ | delete _ _ | retire _ _ _ | publish _ _ _ _ _ _ => false

def ArtifactRequest.deletes : ArtifactRequest → Bool
  | delete _ _ => true
  | create _ | upload _ _ _ | finalize _ _ _ | retire _ _ _ | publish _ _ _ _ _ _ => false

theorem ArtifactRequest.deletes_of_uploads (request : ArtifactRequest)
    (h : request.uploads = true) : request.deletes = false := by
  cases request with
  | upload => rfl
  | create _ | finalize _ _ _ | delete _ _ | retire _ _ _ | publish _ _ _ _ _ _ => cases h

section Clearing

variable {store : ArtifactStore} {s t u : ArtifactSite} {p x : Uuid} {request : ArtifactRequest}

/-- The key of a pending row, and the objects of a deleted one. -/
structure Artifact.Cleared (x : Uuid) (objects : Objects) (artifact : Artifact) : Prop where
  pending : artifact.state = .pending → artifact.objectKey = stagingKey artifact.projectId x
  deleted : artifact.state = .deleted → objects.get? (stagingKey artifact.projectId x) = none
    ∧ objects.get? (finalKey artifact.projectId x) = none

def ArtifactSite.Cleared (site : ArtifactSite) : Prop :=
  ∀ x artifact, site.row x = some artifact → artifact.Cleared x site.objects

/-- The objects that are gone stay away: a final object comes only from a staging object. -/
def ArtifactSite.StaysGone (x : Uuid) (s t : ArtifactSite) : Prop :=
  ∀ p, s.objects.get? (stagingKey p x) = none →
    t.objects.get? (stagingKey p x) = none
      ∧ (s.objects.get? (finalKey p x) = none → t.objects.get? (finalKey p x) = none)

/-- What a request relies on while it waits: no deletion begins under an upload, and what a
    deletion has removed does not come back. -/
structure ClearRely (request : ArtifactRequest) (s t : ArtifactSite) : Prop where
  doomed : s.Doomed request.artifactId → t.Doomed request.artifactId
  spared : request.uploads = true → ¬ s.Doomed request.artifactId → ¬ t.Doomed request.artifactId
  gone : request.deletes = true → s.Doomed request.artifactId →
    StaysGone request.artifactId s t

structure ClearGuar (request : ArtifactRequest) (s t : ArtifactSite) : Prop where
  rows : ∀ y, y ≠ request.artifactId → t.row y = s.row y
  objects : ∀ key : ObjectKey, key.artifactId ≠ request.artifactId →
    t.objects.get? key = s.objects.get? key
  doomed : s.Doomed request.artifactId → t.Doomed request.artifactId
  spared : request.deletes = false → ¬ s.Doomed request.artifactId →
    ¬ t.Doomed request.artifactId
  gone : s.Doomed request.artifactId → StaysGone request.artifactId s t

/-- An upload and a deletion of one artifact are never in flight together. -/
def ArtifactRequest.Uncontested (request other : ArtifactRequest) : Prop :=
  request.artifactId = other.artifactId →
    ¬ (request.uploads = true ∧ other.deletes = true)
      ∧ ¬ (request.deletes = true ∧ other.uploads = true)

/-- What is true of the row while a request is in flight. -/
def ArtifactRequest.Finds (request : ArtifactRequest) (site : ArtifactSite) : Prop :=
  (request.deletes = true → site.Doomed request.artifactId)
    ∧ (request.uploads = true → ¬ site.Doomed request.artifactId)

theorem StaysGone.refl (x : Uuid) (s : ArtifactSite) : StaysGone x s s := fun _ h => ⟨h, id⟩

theorem StaysGone.trans (h : StaysGone x s t) (h' : StaysGone x t u) :
    StaysGone x s u := by
  intro p hstg
  obtain ⟨hmid, hfin⟩ := h p hstg
  obtain ⟨hlast, hfin'⟩ := h' p hmid
  exact ⟨hlast, fun hs => hfin' (hfin hs)⟩

theorem ClearRely.refl (request : ArtifactRequest) (s : ArtifactSite) : ClearRely request s s :=
  ⟨id, fun _ => id, fun _ _ => StaysGone.refl _ s⟩

theorem ClearRely.trans (h : ClearRely request s t) (h' : ClearRely request t u) :
    ClearRely request s u where
  doomed hs := h'.doomed (h.doomed hs)
  spared hu hs := h'.spared hu (h.spared hu hs)
  gone hd hs := StaysGone.trans (h.gone hd hs) (h'.gone hd (h.doomed hs))

theorem ClearGuar.refl (request : ArtifactRequest) (s : ArtifactSite) : ClearGuar request s s :=
  ⟨fun _ _ => rfl, fun _ _ => rfl, id, fun _ => id, fun _ => StaysGone.refl _ s⟩

theorem ClearGuar.shields {other : ArtifactRequest} (hapart : request.Uncontested other)
    (h : ClearGuar request s t) : ClearRely other s t := by
  by_cases heq : request.artifactId = other.artifactId
  · have hdoom := h.doomed
    have hspar := h.spared
    have hgone := h.gone
    rw [heq] at hdoom hspar hgone
    refine ⟨hdoom, fun hupl => hspar ?_, fun _ => hgone⟩
    exact Bool.eq_false_iff.mpr (fun hdels => (hapart heq).2 ⟨hdels, hupl⟩)
  · have hrow : t.row other.artifactId = s.row other.artifactId := h.rows _ (.symm heq)
    have hdoom : t.Doomed other.artifactId ↔ s.Doomed other.artifactId := by
      rw [Doomed, Doomed, hrow]
    refine ⟨hdoom.mpr, fun _ hs ht => hs (hdoom.mp ht), fun _ _ q hstg => ?_⟩
    rw [h.objects (stagingKey q other.artifactId) (.symm heq),
      h.objects (finalKey q other.artifactId) (.symm heq)]
    exact ⟨hstg, id⟩

/-- The contract about deleted rows. -/
def clearContract : Contract ArtifactRequest ArtifactSite where
  inv := ArtifactSite.Cleared
  rely := ClearRely
  guar := ClearGuar
  knows := ArtifactRequest.Finds
  apart := ArtifactRequest.Uncontested
  trans _ _ _ _ h h' := h.trans h'
  apart_symm _ _ h hsame :=
    ⟨fun hp => (h hsame.symm).2 hp.symm, fun hp => (h hsame.symm).1 hp.symm⟩
  shields _ _ _ _ hapart h := h.shields hapart
  knows_rely _ _ _ h hfinds :=
    ⟨fun hd => h.doomed (hfinds.1 hd), fun hu => h.spared hu (hfinds.2 hu)⟩
  knows_guar request _ _ h hfinds :=
    ⟨fun hd => h.doomed (hfinds.1 hd),
      fun hu => h.spared (request.deletes_of_uploads hu) (hfinds.2 hu)⟩

/-! ## What the operations keep -/

theorem erase_none {objects : Objects} {key : ObjectKey} (k : ObjectKey)
    (h : objects.get? key = none) : (objects.erase k).get? key = none := by
  by_cases hk : key = k
  · rw [hk]
    exact get?_erase_self objects k
  · rw [get?_erase_ne objects hk]
    exact h

variable (hx : request.artifactId = x)

include hx

/-- The objects of the artifact change, and those that are gone stay away. -/
theorem reobject_clear {objects : Objects}
    (hobjs : ∀ key : ObjectKey, key.artifactId ≠ x → objects.get? key = s.objects.get? key)
    (hgone : s.Doomed x → StaysGone x s { s with objects := objects })
    (hinv : s.Cleared) :
    let t : ArtifactSite := { s with objects := objects }
    t.Cleared ∧ ClearGuar request s t := by
  subst hx
  refine ⟨?_, fun _ _ => rfl, hobjs, id, fun _ => id, hgone⟩
  intro y artifact hrow
  obtain ⟨hpend, hdeld⟩ := hinv y artifact hrow
  refine ⟨hpend, fun hst => ?_⟩
  obtain ⟨hstg, hfin⟩ := hdeld hst
  by_cases hy : y = request.artifactId
  · subst hy
    obtain ⟨hstill, hnew⟩ := hgone ⟨artifact, hrow, .inr hst⟩ artifact.projectId hstg
    exact ⟨hstill, hnew hfin⟩
  · rw [hobjs (stagingKey artifact.projectId y) hy, hobjs (finalKey artifact.projectId y) hy]
    exact ⟨hstg, hfin⟩

theorem rerow_clear {old new : Artifact} (hrerow : Rerow x old new s t)
    (hclr : new.Cleared x s.objects)
    (hdoom : old.state = .deleting ∨ old.state = .deleted →
      new.state = .deleting ∨ new.state = .deleted)
    (hspar : request.deletes = false → new.state = .deleting ∨ new.state = .deleted →
      old.state = .deleting ∨ old.state = .deleted)
    (hinv : s.Cleared) : t.Cleared ∧ ClearGuar request s t := by
  subst hx
  obtain ⟨hobjs, hold, hnew, hrows⟩ := hrerow
  refine ⟨each_row hobjs hnew hrows hclr hinv, hrows, fun key _ => by rw [hobjs],
    ?_, ?_, ?_⟩
  · rw [doomed_iff hold, doomed_iff hnew]
    exact hdoom
  · rw [doomed_iff hold, doomed_iff hnew]
    exact fun hdels hnot hst => hnot (hspar hdels hst)
  · intro _ q hstg
    rw [hobjs]
    exact ⟨hstg, id⟩

theorem enrols_clear (henr : Enrols x s t)
    (hinv : s.Cleared) : t.Cleared ∧ ClearGuar request s t := by
  subst hx
  obtain ⟨hobjs, hfresh, ⟨_, hnew, hpend, hkey⟩, hrows⟩ := henr
  have hnot : ¬ s.Doomed request.artifactId := by
    rintro ⟨_, hart, _⟩
    exact nomatch hfresh.symm.trans hart
  refine ⟨each_row hobjs hnew hrows ⟨fun _ => hkey, fun h => ?_⟩ hinv, hrows,
    fun key _ => by rw [hobjs], fun h => absurd h hnot, ?_, fun h => absurd h hnot⟩
  · rw [hpend] at h
    cases h
  · rw [doomed_iff hnew, hpend]
    exact fun _ _ hst => absurd hst (by decide)

/-! ## What the requests keep -/

/-- The operations of a request keep the contract. -/
abbrev KeepsClear (store : ArtifactStore) (request : ArtifactRequest) {α : Type}
    (post : Except ArtifactFault α → ArtifactSite → Prop) (prog : ArtifactProg α)
    (s : ArtifactSite) : Prop :=
  prog.Safe store.machine ArtifactSite.Cleared (ClearRely request) (ClearGuar request) post s

theorem put_clear (hupl : request.uploads = true)
    (hspar : ¬ s.Doomed x) {chunks : List Bytes} {size : ℤ} {sha256 : String} :
    KeepsClear store request (fun _ _ => True) (await (.put (stagingKey p x) chunks size sha256))
      s := by
  refine await_safe (ClearGuar.refl request) (fun _ _ _ _ => trivial) ?_
  intro t _ _ ht hinv hperf
  obtain ⟨bytes, rfl⟩ := perform_put hperf
  have hstill : ¬ t.Doomed x := by
    subst hx
    exact ht.spared hupl hspar
  have hoth : ∀ key : ObjectKey, key.artifactId ≠ x →
      (t.objects.put (stagingKey p x) bytes).get? key = t.objects.get? key :=
    fun key hkey => get?_put_ne _ _ (fun h => hkey (by rw [h]; rfl))
  obtain ⟨hclr, hguar⟩ := reobject_clear hx hoth (fun h => absurd h hstill) hinv
  exact ⟨hclr, hguar, trivial⟩

/-- Removing an object brings none back. -/
theorem remove_clear {key : ObjectKey} (hkey : key.artifactId = x)
    {post : ArtifactSite → Prop}
    (hpost : ∀ t : ArtifactSite, ClearRely request s t →
      post { t with objects := t.objects.erase key }) :
    KeepsClear store request (returns fun _ => post) (await (.remove key)) s := by
  refine await_safe (ClearGuar.refl request) (fun _ _ _ _ => trivial) ?_
  intro t _ _ ht hinv hperf
  cases hperf
  obtain ⟨hclr, hguar⟩ := reobject_clear (s := t) hx
    (fun other hoth => get?_erase_ne t.objects (fun h => hoth (by rw [h]; exact hkey)))
    (fun _ q hstg => ⟨erase_none key hstg, fun hfin => erase_none key hfin⟩) hinv
  exact ⟨hclr, hguar, hpost t ht⟩

/-- A final object comes from a staging object, so none comes where both are gone. -/
theorem finalize_clear {size : ℤ} {sha256 : String} :
    KeepsClear store request (returns fun _ _ => True)
      (await (.finalize (stagingKey p x) (finalKey p x) size sha256)) s := by
  refine await_safe (ClearGuar.refl request) (fun _ _ _ _ => trivial) ?_
  intro t _ _ _ hinv hperf
  obtain ⟨bytes, rfl, ⟨_, rfl⟩ | ⟨_, hstaged, rfl⟩⟩ := perform_finalize hperf
  · exact ⟨hinv, ClearGuar.refl request _, trivial⟩
  · have hoth : ∀ key : ObjectKey, key ≠ stagingKey p x → key ≠ finalKey p x →
        ((t.objects.erase (stagingKey p x)).put (finalKey p x) bytes).get? key
          = t.objects.get? key := by
      intro _ hstg hfin
      rw [get?_put_ne _ _ hfin, get?_erase_ne _ hstg]
    have hgone : StaysGone x t { t with
        objects := (t.objects.erase (stagingKey p x)).put (finalKey p x) bytes } := by
      intro q hn
      have hq : q ≠ p := by
        rintro rfl
        exact nomatch hn.symm.trans hstaged
      have hstg : stagingKey q x ≠ stagingKey p x := fun h => hq (congrArg ObjectKey.projectId h)
      have hfin : finalKey q x ≠ finalKey p x := fun h => hq (congrArg ObjectKey.projectId h)
      exact ⟨(hoth _ hstg (finalKey_ne_stagingKey p x q x).symm).trans hn,
        fun h => (hoth _ (finalKey_ne_stagingKey q x p x) hfin).trans h⟩
    obtain ⟨hclr, hguar⟩ := reobject_clear hx
      (fun key hkey => hoth key (fun h => hkey (by rw [h]; rfl))
        (fun h => hkey (by rw [h]; rfl)))
      (fun _ => hgone) hinv
    exact ⟨hclr, hguar, trivial⟩

theorem markFailed_clear {reason : String} :
    KeepsClear store request (fun _ _ => True) (await (.markFailed p x reason)) s := by
  refine await_safe (ClearGuar.refl request) (fun _ _ _ _ => trivial) ?_
  intro t _ u _ hinv hperf
  obtain ⟨_, new, hrerow, hnew⟩ := perform_markFailed hperf
  suffices h : u.Cleared ∧ ClearGuar request t u from ⟨h.1, h.2, trivial⟩
  rcases hnew with rfl | ⟨hpend, rfl⟩
  · exact rerow_clear hx hrerow (hinv x new hrerow.before) id (fun _ => id) hinv
  · refine rerow_clear hx hrerow ⟨fun h => (nomatch h), fun h => nomatch h⟩ ?_ ?_ hinv
    · rw [hpend]
      exact fun h => absurd h (by decide)
    · exact fun _ h => h.elim (fun h => nomatch h) (fun h => nomatch h)

theorem markReady_clear {key : ObjectKey}
    {info : ArtifactObjectInfo} :
    KeepsClear store request (fun _ _ => True) (await (.markReady p x key info)) s := by
  refine await_safe (ClearGuar.refl request) (fun _ _ _ _ => trivial) ?_
  intro t _ u _ hinv hperf
  obtain ⟨_, new, _, hrerow, hnew⟩ := perform_markReady hperf
  suffices h : u.Cleared ∧ ClearGuar request t u from ⟨h.1, h.2, trivial⟩
  rcases hnew with ⟨rfl, _⟩ | ⟨hpend, _, _, rfl⟩
  · exact rerow_clear hx hrerow (hinv x new hrerow.before) id (fun _ => id) hinv
  · refine rerow_clear hx hrerow ⟨fun h => (nomatch h), fun h => nomatch h⟩ ?_ ?_ hinv
    · rw [hpend]
      exact fun h => absurd h (by decide)
    · exact fun _ h => h.elim (fun h => nomatch h) (fun h => nomatch h)

theorem beginDelete_clear (hdels : request.deletes = true) :
    KeepsClear store request (returns fun _ u => u.Doomed x) (await (.beginDelete p x)) s := by
  refine await_safe (ClearGuar.refl request) (fun _ _ _ _ => trivial) ?_
  intro t artifact u _ hinv hperf
  obtain ⟨_, _, hrerow, hst, hnew⟩ := perform_beginDelete hperf
  have hclr : artifact.Cleared x t.objects := by
    rcases hnew with rfl | rfl
    · exact hinv x artifact hrerow.before
    · exact ⟨fun h => (nomatch h), fun h => nomatch h⟩
  obtain ⟨hclear, hguar⟩ := rerow_clear hx hrerow hclr (fun _ => hst)
    (fun h => absurd hdels (Bool.eq_false_iff.mp h)) hinv
  exact ⟨hclear, hguar, artifact, hrerow.after, hst⟩

/-- The row is marked deleted where both objects are gone. -/
theorem markDeleted_clear (hdels : request.deletes = true)
    (hdoom : s.Doomed x) (hstg : s.objects.get? (stagingKey p x) = none)
    (hfin : s.objects.get? (finalKey p x) = none) :
    KeepsClear store request (fun _ _ => True) (await (.markDeleted p x)) s := by
  refine await_safe (ClearGuar.refl request) (fun _ _ _ _ => trivial) ?_
  intro t _ _ ht hinv hperf
  obtain ⟨old, new, rfl, hrerow, hst, hnew⟩ := perform_markDeleted hperf
  have hgone : t.objects.get? (stagingKey old.projectId x) = none
      ∧ t.objects.get? (finalKey old.projectId x) = none := by
    subst hx
    obtain ⟨hstill, hn⟩ := ht.gone hdels hdoom old.projectId hstg
    exact ⟨hstill, hn hfin⟩
  have hproj : new.projectId = old.projectId := by
    rcases hnew with rfl | rfl
    · rfl
    · rfl
  have hclr : new.Cleared x t.objects := by
    refine ⟨fun h => ?_, fun _ => ?_⟩
    · rw [hst] at h
      cases h
    · rw [hproj]
      exact hgone
  obtain ⟨hclear, hguar⟩ := rerow_clear hx hrerow hclr (fun _ => .inr hst)
    (fun h => absurd hdels (Bool.eq_false_iff.mp h)) hinv
  exact ⟨hclear, hguar, trivial⟩

omit hx

theorem create_clear {pending : PendingArtifact} (hx : request.artifactId = pending.artifactId) :
    KeepsClear store request (fun _ _ => True) (store.create pending) s := by
  refine Prog.safe_raiseIf (fun _ => trivial) (fun _ => ?_)
  refine await_safe (ClearGuar.refl request) (fun _ _ _ _ => trivial) ?_
  intro _ _ _ _ hinv hperf
  have hkey : (store.staged pending).objectKey
      = stagingKey (store.staged pending).projectId (store.staged pending).artifactId := rfl
  have henr := perform_create hkey hperf
  obtain ⟨hclr, hguar⟩ := enrols_clear hx henr hinv
  exact ⟨hclr, hguar, trivial⟩

/-- A row that is pending is not doomed. -/
theorem ArtifactSite.spared_of_pending {artifact : Artifact} (hrow : s.row x = some artifact)
    (hpend : artifact.state = .pending) : ¬ s.Doomed x := by
  rw [doomed_iff hrow, hpend]
  decide

theorem upload_clear (p x : Uuid) (upload : ArtifactUpload) :
    KeepsClear store (.upload p x upload) (fun _ _ => True) (store.upload p x upload) s := by
  refine upload_safe (ClearGuar.refl _) ?_ (fun _ _ => markFailed_clear rfl)
  rintro _ artifact _ _ hinv hrow rfl hst
  rw [(hinv x artifact hrow).pending hst]
  exact put_clear rfl rfl (spared_of_pending hrow hst)

theorem finalizeRequest_clear (p x : Uuid) (payload : ArtifactObjectInfo) :
    KeepsClear store (.finalize p x payload) (fun _ _ => True)
      (store.finalizeRequest p x payload) s := by
  refine finalizeRequest_safe (ClearGuar.refl _) (fun _ _ => True) ?_
    (fun _ _ _ => markReady_clear rfl) (fun _ _ => markFailed_clear rfl) ?_
  · rintro _ artifact _ _ hinv hrow rfl hst
    rw [(hinv x artifact hrow).pending hst]
    exact finalize_clear rfl
  · rintro t u artifact hinv hrow rfl hst
    rw [(hinv x artifact hrow).pending hst]
    have hrem : KeepsClear store (.finalize artifact.projectId x payload)
        (returns fun _ _ => True) (await (.remove (stagingKey artifact.projectId x))) u :=
      remove_clear rfl rfl (fun _ _ => trivial)
    exact hrem.mono (fun _ _ _ => trivial)

/-- A deletion removes the staging object first, so that no finalize request can bring the
    final object back. -/
theorem deleteRequest_clear (p x : Uuid) :
    KeepsClear store (.delete p x) (fun _ _ => True) (deleteRequest p x) s := by
  refine deleteRequest_safe (fun u => u.Doomed x)
    (fun u => u.Doomed x ∧ u.objects.get? (stagingKey p x) = none)
    (fun u => u.Doomed x ∧ u.objects.get? (stagingKey p x) = none
      ∧ u.objects.get? (finalKey p x) = none)
    (beginDelete_clear rfl rfl) ?_ ?_ ?_
  · intro t hdoom
    exact remove_clear rfl rfl (fun u hu => ⟨hu.doomed hdoom, get?_erase_self _ _⟩)
  · rintro t ⟨hdoom, hstg⟩
    refine remove_clear rfl rfl (fun u hu => ⟨hu.doomed hdoom, ?_, get?_erase_self _ _⟩)
    exact erase_none _ (hu.gone rfl hdoom p hstg).1
  · rintro t ⟨hdoom, hstg, hfin⟩
    exact markDeleted_clear rfl rfl hdoom hstg hfin

/-! ## Over whole runs -/

variable {pool : ArtifactRequests}

/-- No upload of the artifact is in flight. -/
def NoUpload (pool : ArtifactRequests) (x : Uuid) : Prop :=
  ∀ entry ∈ pool.procs.rows, entry.2.1.artifactId = x → entry.2.1.uploads = false
  deriving Decidable

/-- The requests of clients: what the worker and the clean-up do is left out. -/
def ArtifactRequest.FromClient : ArtifactRequest → Prop
  | create _ | upload _ _ _ | finalize _ _ _ | delete _ _ => True
  | retire _ _ _ | publish _ _ _ _ _ _ => False

/-- Clients send requests, and a deletion begins when no upload of its artifact is in
    flight. -/
def DeletesSettled : RequestCall → ArtifactRequests → Prop
  | .start _ (.delete _ x) _, pool => NoUpload pool x
  | .start _ (.create _) _, _ | .start _ (.upload _ _ _) _, _
  | .start _ (.finalize _ _ _) _, _ => True
  | .start _ (.retire _ _ _) _, _ | .start _ (.publish _ _ _ _ _ _) _, _ => False
  | .advance _ _, _ | .abandon _, _ | .elsewhere _ _, _ => True

theorem ArtifactRequest.uncontested_of_quiet {other : ArtifactRequest}
    (hupl : request.uploads = false) (hdels : request.deletes = false) :
    request.Uncontested other := by
  intro _
  rw [hupl, hdels]
  exact ⟨fun h => Bool.false_ne_true h.1, fun h => Bool.false_ne_true h.1⟩

/-- How a request of a client starts: it ends at once, or it goes on beside the others. -/
theorem request_goes_clear (h : pool.Sound store.machine clearContract) {i : ℕ}
    {fault : Option ArtifactFault} (hok : DeletesSettled (.start i request fault) pool) :
    (∃ result, (request.prog store).advance store.machine fault pool.shared
        = (.done result, pool.shared))
      ∨ (∀ other, pool.InFlight other → request.Uncontested other)
        ∧ request.Finds ((request.prog store).advance store.machine fault pool.shared).2 := by
  cases request with
  | create pending | finalize p x payload =>
    exact .inr ⟨fun _ _ => ArtifactRequest.uncontested_of_quiet rfl rfl,
      fun hd => (nomatch hd), fun hu => nomatch hu⟩
  | upload p x upload =>
    obtain ⟨_, hprog, hends, hmiss, hsett⟩ := upload_prog store p x upload
    rcases read_step store pool.shared hprog hends hmiss fault with
      hended | ⟨artifact, hrow, hgoes⟩
    · exact .inl hended
    · rw [hgoes]
      by_cases hpend : artifact.state = .pending
      · have hspar := spared_of_pending hrow hpend
        refine .inr ⟨fun other hoth hx => ⟨fun hclash => ?_, fun hclash => ?_⟩,
          fun hd => (nomatch hd), fun _ => hspar⟩
        · have hdoom := (h.knows other hoth).1 hclash.2
          rw [← hx] at hdoom
          exact hspar hdoom
        · exact Bool.false_ne_true hclash.1
      · obtain ⟨result, hres⟩ := hsett artifact hpend
        exact .inl ⟨result, by rw [hres]⟩
  | delete p x =>
    obtain ⟨_, hprog, hends⟩ := delete_prog store p x
    refine (first_step store pool.shared hprog hends fault).imp id ?_
    rintro ⟨artifact, t, hperf, hgoes⟩
    rw [hgoes]
    obtain ⟨_, _, hrerow, hst, _⟩ := perform_beginDelete hperf
    refine ⟨fun other hoth hx => ⟨fun hclash => Bool.false_ne_true hclash.1, fun hclash => ?_⟩,
      fun _ => ⟨artifact, hrerow.after, hst⟩, fun hu => nomatch hu⟩
    obtain ⟨j, prog, hget⟩ := hoth
    have hn : other.uploads = false := hok (j, other, prog) (mem_rows.mpr hget) hx.symm
    exact Bool.false_ne_true (hn.symm.trans hclash.2)
  | retire rank p x | publish owner b name placeholder file x => exact hok.elim

theorem request_clear {i : ℕ} {fault : Option ArtifactFault}
    (hok : DeletesSettled (.start i request fault) pool) (s : ArtifactSite) :
    KeepsClear store request (fun _ _ => True) (request.prog store) s := by
  cases request with
  | create => exact void_safe (create_clear rfl)
  | upload p x upload => exact void_safe (upload_clear p x upload)
  | finalize p x payload => exact void_safe (finalizeRequest_clear p x payload)
  | delete p x => exact void_safe (deleteRequest_clear p x)
  | retire rank p x | publish owner b name placeholder file x => exact hok.elim

theorem artifactRequests_clear_step (h : pool.Sound store.machine clearContract)
    (call : RequestCall) (hok : DeletesSettled call pool) :
    ((artifactRequests store).step call pool).Sound store.machine clearContract := by
  cases call with
  | start i request fault =>
    exact h.start ClearRely.refl i request fault (request_clear hok pool.shared)
      (request_goes_clear h hok)
  | advance i fault => exact h.advance ClearRely.refl i fault
  | abandon i => exact h.abandon i
  | elsewhere =>
    exact h.outside (fun y artifact hrow => h.inv y artifact hrow)
      (fun _ _ => ⟨id, fun _ hspar => hspar, fun _ _ _ hgone => ⟨hgone, id⟩⟩)

end Clearing

/-- **A DELETED ROW HAS LEFT NO BYTES**, whatever fails and however the requests of clients
    interleave, if a deletion begins when no upload of its artifact is in flight. -/
theorem deleted_artifacts_leave_no_bytes {store : ArtifactStore} {pool : ArtifactRequests}
    (h : Reach (artifactRequests store) DeletesSettled pool) {x : Uuid} {artifact : Artifact}
    (hrow : pool.shared.row x = some artifact) (hdeleted : artifact.state = .deleted) :
    pool.shared.objects.get? (stagingKey artifact.projectId x) = none
      ∧ pool.shared.objects.get? (finalKey artifact.projectId x) = none := by
  have hsnd : pool.Sound store.machine clearContract := by
    refine h.invariant ?_ (fun call pool hpool hok => artifactRequests_clear_step hpool call hok)
    rintro ⟨_, procs⟩ ⟨hrows, _, hprocs⟩
    obtain rfl : procs = .empty := hprocs
    refine Pool.sound_empty ?_
    intro y _ hf
    exact nomatch (get?_of_rows_nil hrows y).symm.trans hf
  exact (hsnd.inv x artifact hrow).deleted hdeleted

/-- The uploaded artifact is deleted. -/
def deletingCalls : List RequestCall :=
  [.start 0 (.create (smallArtifact 1 2)) none,
   .start 0 (.upload 7 1 ⟨[[1, 2]], none, none⟩) none, .advance 0 none,
   .start 0 (.delete 7 1) none, .advance 0 none, .advance 0 none, .advance 0 none]

theorem deleted_artifacts_leave_no_bytes_uploaded :
    ((artifactRequests smallStore).run deletingCalls idleRequests).shared.objects.get?
      (stagingKey 7 1) = none := by
  have hruns : NoUpload ((artifactRequests smallStore).run (deletingCalls.take 3) idleRequests) 1
      ∧ (((artifactRequests smallStore).run deletingCalls idleRequests).shared.row 1).map
        (fun artifact => (artifact.state, artifact.projectId)) = some (.deleted, 7) := by
    decide +kernel
  obtain ⟨hsett, hrow⟩ := hruns
  have halw : Allowed (artifactRequests smallStore) DeletesSettled deletingCalls
      idleRequests :=
    ⟨trivial, trivial, trivial, hsett, trivial, trivial, trivial, trivial⟩
  have hreach := (Reach.init idleRequests_init).run deletingCalls halw
  obtain ⟨_, hart, hcols⟩ := Option.map_eq_some_iff.mp hrow
  obtain ⟨hst, hproj⟩ := Prod.mk.inj hcols
  have hgone := (deleted_artifacts_leave_no_bytes hreach hart hst).1
  rw [hproj] at hgone
  exact hgone

/-- Requests of clients whose operations succeed. -/
def ClientCall : RequestCall → ArtifactRequests → Prop
  | .start _ request fault, _ => request.FromClient ∧ fault = none
  | .advance _ fault, _ => fault = none
  | .abandon _, _ => False
  | .elsewhere _ _, _ => True

/-- An upload reads the pending row, the artifact is deleted, and the upload goes on. -/
def orphaningCalls : List RequestCall :=
  [.start 0 (.create (smallArtifact 1 2)) none,
   .start 0 (.upload 7 1 ⟨[[1, 2]], none, none⟩) none, .start 1 (.delete 7 1) none,
   .advance 1 none, .advance 1 none, .advance 1 none, .advance 0 none]

theorem deleted_artifact_leaves_bytes :
    ∃ pool artifact bytes, Reach (artifactRequests smallStore) ClientCall pool
      ∧ pool.procs.rows = [] ∧ pool.shared.row 1 = some artifact ∧ artifact.state = .deleted
      ∧ pool.shared.objects.get? (stagingKey artifact.projectId 1) = some bytes := by
  have hruns : ((artifactRequests smallStore).run orphaningCalls idleRequests).procs.rows.length = 0
      ∧ (((artifactRequests smallStore).run orphaningCalls idleRequests).shared.row 1).map
        (fun artifact => (artifact.state, artifact.projectId)) = some (.deleted, 7)
      ∧ ((artifactRequests smallStore).run orphaningCalls idleRequests).shared.objects.get?
        (stagingKey 7 1) = some [1, 2] := by decide +kernel
  obtain ⟨hret, hrow, hobj⟩ := hruns
  have halw : Allowed (artifactRequests smallStore) ClientCall orphaningCalls idleRequests :=
    ⟨⟨trivial, rfl⟩, ⟨trivial, rfl⟩, ⟨trivial, rfl⟩, rfl, rfl, rfl, rfl, trivial⟩
  have hreach := (Reach.init idleRequests_init).run orphaningCalls halw
  obtain ⟨artifact, hart, hcols⟩ := Option.map_eq_some_iff.mp hrow
  obtain ⟨hst, hproj⟩ := Prod.mk.inj hcols
  rw [← hproj] at hobj
  exact ⟨_, artifact, [1, 2], hreach, List.length_eq_zero_iff.mp hret, hart, hst, hobj⟩

end MiniAiCloud
