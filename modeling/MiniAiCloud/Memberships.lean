import MiniAiCloud.Reachability
import MiniAiCloud.Schema

/-! # Members of a project

    Members are added, given another role and removed through the API, by a caller whose
    own role has authority over the roles concerned.  A project is to keep an active
    owner: a change of role and a removal count the owners before they take one away.
    To add a member again is also a way to give them another role, and there nobody
    counts (`last_owner_added_as_viewer`). -/

namespace MiniAiCloud

open Transaction Reachability Table List Option

/-! ## Roles and permissions -/

inductive ProjectRole where
  | owner | admin | member | viewer
  deriving DecidableEq, Repr

inductive UserStatus where
  | active | disabled
  deriving DecidableEq, Repr

inductive MembershipStatus where
  | active | removed
  deriving DecidableEq, Repr

inductive Permission where
  | taskRead | taskLogRead | taskCreate | taskCancelOwn | taskCancelAny | usageRead | costRead
  | modelRead | modelManage | secretUse | secretManage | apiKeyManage | quotaManage
  | imagePolicyManage | membershipManage | projectDelete | auditRead | workerRead | workerManage
  deriving DecidableEq, Repr

def Permission.value : Permission → String
  | taskRead => "task.read"
  | taskLogRead => "task.log.read"
  | taskCreate => "task.create"
  | taskCancelOwn => "task.cancel.own"
  | taskCancelAny => "task.cancel.any"
  | usageRead => "usage.read"
  | costRead => "cost.read"
  | modelRead => "model.read"
  | modelManage => "model.manage"
  | secretUse => "secret.use"
  | secretManage => "secret.manage"
  | apiKeyManage => "api_key.manage"
  | quotaManage => "quota.manage"
  | imagePolicyManage => "image_policy.manage"
  | membershipManage => "membership.manage"
  | projectDelete => "project.delete"
  | auditRead => "audit.read"
  | workerRead => "worker.read"
  | workerManage => "worker.manage"

def viewerPermissions : List Permission :=
  [.taskRead, .taskLogRead, .usageRead, .costRead, .modelRead]

def memberPermissions : List Permission :=
  viewerPermissions ++ [.taskCreate, .taskCancelOwn, .secretUse]

def adminPermissions : List Permission :=
  memberPermissions ++ [.taskCancelAny, .modelManage, .secretManage, .apiKeyManage, .quotaManage,
    .imagePolicyManage, .auditRead, .workerRead, .workerManage]

/-- `ROLE_PERMISSIONS`. -/
def ProjectRole.grants : ProjectRole → Permission → Prop
  | viewer, permission => permission ∈ viewerPermissions
  | member, permission => permission ∈ memberPermissions
  | admin, permission => permission ∈ adminPermissions
  | owner, _ => True

instance : ∀ (role : ProjectRole) (permission : Permission), Decidable (role.grants permission)
  | .viewer, permission => inferInstanceAs (Decidable (permission ∈ viewerPermissions))
  | .member, permission => inferInstanceAs (Decidable (permission ∈ memberPermissions))
  | .admin, permission => inferInstanceAs (Decidable (permission ∈ adminPermissions))
  | .owner, _ => isTrue trivial

/-- `_ROLE_AUTHORITY`. -/
def ProjectRole.authority : ProjectRole → ℕ
  | viewer => 0
  | member => 1
  | admin => 2
  | owner => 3

def legacyPermissions : List Permission :=
  [.taskRead, .taskLogRead, .taskCreate, .taskCancelAny, .workerRead]

/-- `Principal`, with what `__post_init__` asks of each kind; the id and the prefix of an
    API key are left out. -/
inductive Principal where
  | apiKey (projectId userId : Uuid) (role : ProjectRole)
  | legacy (projectId : Uuid) (userId : Option Uuid)
  | system (projectId userId : Option Uuid) (role : Option ProjectRole)
  deriving DecidableEq

def Principal.userId : Principal → Option Uuid
  | apiKey _ userId _ => some userId
  | legacy _ userId => userId
  | system _ userId _ => userId

/-- `has_permission`. -/
def Principal.HasPermission : Principal → Permission → Prop
  | apiKey _ _ role, permission => role.grants permission
  | legacy _ _, permission => permission ∈ legacyPermissions
  | system _ _ _, _ => True

instance : ∀ (principal : Principal) (permission : Permission),
    Decidable (principal.HasPermission permission)
  | .apiKey _ _ role, permission => inferInstanceAs (Decidable (role.grants permission))
  | .legacy _ _, permission => inferInstanceAs (Decidable (permission ∈ legacyPermissions))
  | .system _ _ _, _ => isTrue trivial

/-- `can_access_project`. -/
def Principal.CanAccess : Principal → Uuid → Prop
  | apiKey projectId _ _, p => projectId = p
  | legacy projectId _, p => projectId = p
  | system _ _ _, _ => True

instance : ∀ (principal : Principal) (p : Uuid), Decidable (principal.CanAccess p)
  | .apiKey projectId _ _, p => inferInstanceAs (Decidable (projectId = p))
  | .legacy projectId _, p => inferInstanceAs (Decidable (projectId = p))
  | .system _ _ _, _ => isTrue trivial

/-- `can_manage_membership_roles`. -/
def Principal.CanManage (currentRole requestedRole : Option ProjectRole) : Principal → Prop
  | system _ _ _ => True
  | legacy _ _ => False
  | apiKey _ _ role => (∀ current ∈ currentRole, current.authority ≤ role.authority)
      ∧ ∀ requested ∈ requestedRole, requested.authority ≤ role.authority

instance (currentRole requestedRole : Option ProjectRole) :
    ∀ principal : Principal, Decidable (principal.CanManage currentRole requestedRole)
  | .system _ _ _ => isTrue trivial
  | .legacy _ _ => isFalse id
  | .apiKey _ _ role => inferInstanceAs (Decidable
      ((∀ current ∈ currentRole, current.authority ≤ role.authority)
        ∧ ∀ requested ∈ requestedRole, requested.authority ≤ role.authority))

/-! ## The directory -/

structure ProjectMembership where
  role : ProjectRole
  status : MembershipStatus := .active
  createdByUserId : Option Uuid
  createdAt : Time
  updatedAt : Time
  removedAt : Option Time := none
  version : ℤ := 1

/-- The tables of `models/identity.py`; a membership is keyed by project and user. -/
structure Directory where
  projects : Table Uuid ProjectStatus
  users : Table Uuid UserStatus
  memberships : Table (Uuid × Uuid) ProjectMembership

inductive IdentityErr where
  | identityNotFound (message : String)
  | membershipNotActive (message : String)
  | lastProjectOwner (message : String)
  | api (statusCode : ℕ) (code message : String)
  deriving DecidableEq

abbrev IdentityTxn := EStateM IdentityErr Directory

/-- `_lock_active_project` of the identity repositories. -/
def lockProject (projectId : Uuid) : IdentityTxn Unit := do
  let d ← get
  raiseIf (d.projects.get? projectId ≠ some .active)
    (.identityNotFound "active project does not exist")

/-- The active owners of a project. -/
def activeOwners (d : Directory) (projectId : Uuid) : List ((Uuid × Uuid) × ProjectMembership) :=
  d.memberships.select (fun key membership =>
    key.1 = projectId ∧ membership.status = .active ∧ membership.role = .owner)

/-- `_ensure_another_owner`. -/
def ensureAnotherOwner (projectId : Uuid) : IdentityTxn Unit := do
  let d ← get
  raiseIf ((activeOwners d projectId).length ≤ 1)
    (.lastProjectOwner "a project must retain at least one active owner")

def saveMembership (key : Uuid × Uuid) (membership : ProjectMembership) : IdentityTxn Unit :=
  modify fun d => { d with memberships := d.memberships.put key membership }

/-- `MembershipRepository.add_or_restore`. -/
def addOrRestore (now : Time) (projectId userId : Uuid) (role : ProjectRole)
    (createdByUserId : Uuid) : IdentityTxn Unit := do
  lockProject projectId
  let d ← get
  raiseIf (d.users.get? userId ≠ some .active)
    (.identityNotFound "active membership user does not exist")
  match d.memberships.get? (projectId, userId) with
  | none => saveMembership (projectId, userId) {
      role := role
      createdByUserId := some createdByUserId
      createdAt := now
      updatedAt := now }
  | some membership => saveMembership (projectId, userId) { membership with
      role := role
      status := .active
      removedAt := none
      updatedAt := now
      version := membership.version + 1 }

/-- The active membership that a call is about. -/
def activeMembership (projectId userId : Uuid) : IdentityTxn ProjectMembership := do
  let d ← get
  expect ((d.memberships.get? (projectId, userId)).filter (·.status = .active))
    (.membershipNotActive "active project membership does not exist")

/-- `MembershipRepository.change_role`. -/
def changeRole (now : Time) (projectId userId : Uuid) (role : ProjectRole) :
    IdentityTxn Unit := do
  lockProject projectId
  let membership ← activeMembership projectId userId
  (if membership.role = .owner ∧ role ≠ .owner then ensureAnotherOwner projectId else pure ()
    : IdentityTxn Unit)
  saveMembership (projectId, userId) { membership with
    role := role
    updatedAt := now
    version := membership.version + 1 }

/-- `MembershipRepository.remove`. -/
def removeMembership (now : Time) (projectId userId : Uuid) : IdentityTxn Unit := do
  lockProject projectId
  let membership ← activeMembership projectId userId
  (if membership.role = .owner then ensureAnotherOwner projectId else pure () : IdentityTxn Unit)
  saveMembership (projectId, userId) { membership with
    status := .removed
    removedAt := some now
    updatedAt := now
    version := membership.version + 1 }

/-! ## Routes -/

/-- What comes before the transaction of a route: `require_api_permission` and
    `_require_same_project`. -/
def admitCaller (principal : Principal) (projectId : Uuid) : IdentityTxn Unit := do
  raiseIf (¬ principal.HasPermission .membershipManage)
    (.api 403 "PERMISSION_DENIED"
      ("principal lacks permission: " ++ Permission.membershipManage.value))
  raiseIf (¬ principal.CanAccess projectId) (.api 404 "PROJECT_NOT_FOUND" "Project not found")

/-- `_require_membership_authority`. -/
def requireMembershipAuthority (principal : Principal)
    (currentRole requestedRole : Option ProjectRole) : IdentityTxn Unit :=
  raiseIf (¬ principal.CanManage currentRole requestedRole)
    (.api 403 "PERMISSION_DENIED"
      "Membership roles cannot be managed above the caller's authority")

/-- How `add_member` answers the exceptions of its transaction. -/
def addMemberAnswer : IdentityErr → IdentityErr
  | .identityNotFound _ => .api 404 "MEMBERSHIP_TARGET_NOT_FOUND" "Project or user not found"
  | e => e

/-- How `change_member_role` and `remove_member` do. -/
def membershipAnswer : IdentityErr → IdentityErr
  | .identityNotFound _ | .membershipNotActive _ =>
    .api 404 "MEMBERSHIP_NOT_FOUND" "Membership not found"
  | .lastProjectOwner message => .api 409 "LAST_PROJECT_OWNER" message
  | e => e

/-- `POST /projects/{project_id}/members`. -/
def addMember (now : Time) (principal : Principal) (projectId userId : Uuid)
    (role : ProjectRole) : IdentityTxn Unit := do
  admitCaller principal projectId
  let callerId ← expect principal.userId
    (.api 403 "PERMISSION_DENIED" "An authenticated user is required")
  EStateM.adaptExcept addMemberAnswer do
    let d ← get
    let current := (d.memberships.get? (projectId, userId)).filter (·.status = .active)
    requireMembershipAuthority principal (current.map (·.role)) (some role)
    addOrRestore now projectId userId role callerId

/-- `PATCH /projects/{project_id}/members/{user_id}`. -/
def changeMemberRole (now : Time) (principal : Principal) (projectId userId : Uuid)
    (role : ProjectRole) : IdentityTxn Unit := do
  admitCaller principal projectId
  EStateM.adaptExcept membershipAnswer do
    let existing ← activeMembership projectId userId
    requireMembershipAuthority principal (some existing.role) (some role)
    changeRole now projectId userId role

/-- `DELETE /projects/{project_id}/members/{user_id}`. -/
def removeMember (now : Time) (principal : Principal) (projectId userId : Uuid) :
    IdentityTxn Unit := do
  admitCaller principal projectId
  EStateM.adaptExcept membershipAnswer do
    let existing ← activeMembership projectId userId
    requireMembershipAuthority principal (some existing.role) none
    removeMembership now projectId userId

/-- What `ApiKeyRepository.authenticate` makes of a valid key of the user for the
    project. -/
def authenticate (d : Directory) (projectId userId : Uuid) : Option Principal := do
  guard (d.projects.get? projectId = some .active ∧ d.users.get? userId = some .active)
  let membership ← (d.memberships.get? (projectId, userId)).filter (·.status = .active)
  pure (.apiKey projectId userId membership.role)

/-! ## The system -/

inductive MembershipCall where
  | addMember (now : Time) (principal : Principal) (projectId userId : Uuid) (role : ProjectRole)
  | changeMemberRole (now : Time) (principal : Principal) (projectId userId : Uuid)
      (role : ProjectRole)
  | removeMember (now : Time) (principal : Principal) (projectId userId : Uuid)

def MembershipCall.txn : MembershipCall → IdentityTxn Unit
  | addMember now principal projectId userId role =>
    MiniAiCloud.addMember now principal projectId userId role
  | changeMemberRole now principal projectId userId role =>
    MiniAiCloud.changeMemberRole now principal projectId userId role
  | removeMember now principal projectId userId =>
    MiniAiCloud.removeMember now principal projectId userId

/-- The calls of the API, one transaction each, and what else happens to projects and
    users in between. -/
def membership : System Directory
    (MembershipCall ⊕ (Table Uuid ProjectStatus × Table Uuid UserStatus)) where
  init _ := True
  step
    | .inl call, d => commit call.txn d
    | .inr (projects, users), d => { d with projects := projects, users := users }

/-! ## What a call writes -/

theorem adaptExcept_ok {σ ε ε' α : Type} {f : ε → ε'} {m : EStateM ε σ α} {s s' : σ} {a : α} :
    EStateM.adaptExcept f m s = .ok a s' ↔ m s = .ok a s' := by
  rw [EStateM.adaptExcept]
  cases m s <;> simp

section Calls

variable {now : Time} {p user : Uuid} {role : ProjectRole} {principal : Principal}
  {d d' : Directory} {u : Unit}

theorem lockProject_reads (p : Uuid) : Reads (lockProject p) := .bind .get fun _ => .raiseIf _ _

theorem admitCaller_reads (principal : Principal) (p : Uuid) : Reads (admitCaller principal p) :=
  .check (.raiseIf _ _)

/-- The row a membership is given by `add_or_restore`. -/
def ProjectMembership.Restored (role : ProjectRole) (membership : ProjectMembership) : Prop :=
  membership.status = .active ∧ membership.role = role

theorem addMember_ok (h : addMember now principal p user role d = .ok u d') :
    ∃ row : ProjectMembership, row.Restored role
      ∧ d' = { d with memberships := d.memberships.put (p, user) row } := by
  obtain ⟨_, _, hadmit, h⟩ := bind_ok.mp h
  rw [(admitCaller_reads principal p).of_ok hadmit] at h
  obtain ⟨_, hcaller, h⟩ := bind_expect.mp h
  rw [adaptExcept_ok, bind_get] at h
  obtain ⟨_, _, hauth, h⟩ := bind_ok.mp h
  rw [requireMembershipAuthority] at hauth
  rw [(raiseIf_ok.mp hauth).2] at h
  obtain ⟨_, _, hlock, h⟩ := bind_ok.mp h
  rw [(lockProject_reads p).of_ok hlock, bind_get] at h
  obtain ⟨huser, h⟩ := raise_ok.mp h
  cases hrow : d.memberships.get? (p, user) with
  | none | some membership =>
    simp only [hrow, saveMembership, modify_ok] at h
    exact ⟨_, ⟨rfl, rfl⟩, h⟩

theorem activeMembership_ok {found : ProjectMembership} : activeMembership p user d = .ok found d'
      ↔ d.memberships.get? (p, user) = some found ∧ found.status = .active ∧ d' = d := by
  rw [activeMembership, bind_get, expect_ok, filter_eq_some_iff, decide_eq_true_iff, and_assoc]

/-- Where an owner is taken away, there is another one. -/
theorem ensureAnotherOwner_ok {c : Prop} [Decidable c]
    (h : (if c then ensureAnotherOwner p else pure ()) d = .ok u d') :
    (c → 1 < (activeOwners d p).length) ∧ d' = d := by
  split_ifs at h with hc
  · rw [ensureAnotherOwner, bind_get, raiseIf_ok, not_le] at h
    exact ⟨fun _ => h.1, h.2⟩
  · exact ⟨fun hc' => absurd hc' hc, (pure_ok.mp h).2.symm⟩

theorem changeMemberRole_ok (h : changeMemberRole now principal p user role d = .ok u d') :
    ∃ old new : ProjectMembership, d.memberships.get? (p, user) = some old
      ∧ (old.role = .owner ∧ role ≠ .owner → 1 < (activeOwners d p).length)
      ∧ new.status = .active ∧ new.role = role
      ∧ d' = { d with memberships := d.memberships.put (p, user) new } := by
  obtain ⟨_, _, hadmit, h⟩ := bind_ok.mp h
  rw [(admitCaller_reads principal p).of_ok hadmit, adaptExcept_ok] at h
  obtain ⟨_, _, hexi, h⟩ := bind_ok.mp h
  rw [(activeMembership_ok.mp hexi).2.2] at h
  obtain ⟨_, _, hauth, h⟩ := bind_ok.mp h
  rw [requireMembershipAuthority] at hauth
  rw [(raiseIf_ok.mp hauth).2] at h
  obtain ⟨_, _, hlock, h⟩ := bind_ok.mp h
  rw [(lockProject_reads p).of_ok hlock] at h
  obtain ⟨old, _, hold, h⟩ := bind_ok.mp h
  obtain ⟨hrow, hact, heq⟩ := activeMembership_ok.mp hold
  rw [heq] at h
  obtain ⟨_, _, hens, h⟩ := bind_ok.mp h
  obtain ⟨hano, hmid⟩ := ensureAnotherOwner_ok hens
  rw [hmid, saveMembership, modify_ok] at h
  refine ⟨old, _, hrow, hano, ?_, ?_, h⟩
  · exact hact
  · rfl

theorem removeMember_ok (h : removeMember now principal p user d = .ok u d') :
    ∃ old new : ProjectMembership, d.memberships.get? (p, user) = some old
      ∧ (old.role = .owner → 1 < (activeOwners d p).length) ∧ new.status = .removed
      ∧ d' = { d with memberships := d.memberships.put (p, user) new } := by
  obtain ⟨_, _, hadmit, h⟩ := bind_ok.mp h
  rw [(admitCaller_reads principal p).of_ok hadmit, adaptExcept_ok] at h
  obtain ⟨_, _, hexi, h⟩ := bind_ok.mp h
  rw [(activeMembership_ok.mp hexi).2.2] at h
  obtain ⟨_, _, hauth, h⟩ := bind_ok.mp h
  rw [requireMembershipAuthority] at hauth
  rw [(raiseIf_ok.mp hauth).2] at h
  obtain ⟨_, _, hlock, h⟩ := bind_ok.mp h
  rw [(lockProject_reads p).of_ok hlock] at h
  obtain ⟨old, _, hold, h⟩ := bind_ok.mp h
  obtain ⟨hrow, -, heq⟩ := activeMembership_ok.mp hold
  rw [heq] at h
  obtain ⟨_, _, hens, h⟩ := bind_ok.mp h
  obtain ⟨hano, hmid⟩ := ensureAnotherOwner_ok hens
  rw [hmid, saveMembership, modify_ok] at h
  exact ⟨old, _, hrow, hano, rfl, h⟩

end Calls

/-! ## Owners -/

section Owners

variable {p user : Uuid} {d : Directory} {new : ProjectMembership}

theorem mem_activeOwners {row : (Uuid × Uuid) × ProjectMembership} :
    row ∈ activeOwners d p ↔ d.memberships.get? row.1 = some row.2
      ∧ row.1.1 = p ∧ row.2.status = .active ∧ row.2.role = .owner :=
  mem_select.trans (and_congr_right fun _ => decide_eq_true_iff)

/-- Of two owners one is somebody else. -/
theorem exists_other_owner (h : 1 < (activeOwners d p).length) (key : Uuid × Uuid) :
    ∃ row ∈ activeOwners d p, row.1 ≠ key := by
  by_contra hn
  push Not at hn
  have hkeys : (activeOwners d p).map Prod.fst = List.replicate (activeOwners d p).length key := by
    refine eq_replicate_iff.mpr ⟨length_map _, fun k hk => ?_⟩
    obtain ⟨row, hrow, rfl⟩ := mem_map.mp hk
    exact hn row hrow
  have hnd : ((activeOwners d p).map Prod.fst).Nodup := select_keys_nodup _ _
  rw [hkeys, nodup_replicate] at hnd
  omega

/-- The owners once one membership is written. -/
theorem mem_activeOwners_put {q : Uuid} {row : (Uuid × Uuid) × ProjectMembership} :
    row ∈ activeOwners { d with memberships := d.memberships.put (q, user) new } p
      ↔ (row = ((q, user), new) ∧ q = p ∧ new.status = .active ∧ new.role = .owner)
        ∨ (row.1 ≠ (q, user) ∧ row ∈ activeOwners d p) := by
  rw [mem_activeOwners, mem_activeOwners]
  obtain ⟨key, _⟩ := row
  by_cases hkey : key = (q, user)
  · subst hkey
    rw [get?_put_self, some.injEq, Prod.mk.injEq]
    constructor
    · rintro ⟨rfl, hown⟩
      exact .inl ⟨⟨rfl, rfl⟩, hown⟩
    · rintro (⟨⟨-, rfl⟩, hown⟩ | ⟨hne, -⟩)
      · exact ⟨rfl, hown⟩
      · exact absurd rfl hne
  · rw [get?_put_ne _ _ hkey]
    constructor
    · exact fun h => .inr ⟨hkey, h⟩
    · rintro (⟨heq, -⟩ | ⟨-, h⟩)
      · exact absurd (Prod.mk.inj heq).1 hkey
      · exact h

/-- An owner who is not written stays. -/
theorem owner_stays {q : Uuid} {row : (Uuid × Uuid) × ProjectMembership}
    (hrow : row ∈ activeOwners d p) (hoth : row.1 ≠ (q, user)) :
    activeOwners { d with memberships := d.memberships.put (q, user) new } p ≠ [] :=
  ne_nil_of_mem (mem_activeOwners_put.mpr (.inr ⟨hoth, hrow⟩))

end Owners

/-- The call adds the only active owner of the project again, in a lesser role. -/
def DemotesLastOwner (p : Uuid) (d : Directory) : MembershipCall → Prop
  | .addMember _ _ projectId userId role => projectId = p ∧ role ≠ .owner
      ∧ activeOwners d p ≠ [] ∧ ∀ row ∈ activeOwners d p, row.1 = (p, userId)
  | .changeMemberRole _ _ _ _ _ => False
  | .removeMember _ _ _ _ => False

instance (p : Uuid) (d : Directory) :
    ∀ call : MembershipCall, Decidable (DemotesLastOwner p d call)
  | .addMember _ _ projectId userId role => inferInstanceAs (Decidable (projectId = p
      ∧ role ≠ .owner ∧ activeOwners d p ≠ [] ∧ ∀ row ∈ activeOwners d p, row.1 = (p, userId)))
  | .changeMemberRole _ _ _ _ _ => isFalse id
  | .removeMember _ _ _ _ => isFalse id

/-- **ONE CALL** takes the last owner away if it is accepted and adds that owner again in a
    lesser role, and not otherwise. -/
theorem call_loses_owner_iff {p : Uuid} {d : Directory} (hown : activeOwners d p ≠ [])
    (call : MembershipCall) :
    activeOwners (commit call.txn d) p = []
      ↔ (returned call.txn d).isSome ∧ DemotesLastOwner p d call := by
  cases hcall : call.txn d with
  | error =>
    rw [commit_of_error hcall, returned, hcall]
    exact iff_of_false hown fun h => Bool.false_ne_true h.1
  | ok =>
    rw [commit_of_ok hcall, returned, hcall]
    rw [and_iff_right (isSome_some)]
    obtain ⟨first, hfirst⟩ := exists_mem_of_ne_nil _ hown
    cases call with
    | addMember _ _ q user =>
      obtain ⟨row, ⟨hact, hrole⟩, rfl⟩ := addMember_ok hcall
      constructor
      · intro hn
        have hlost : ∀ row', row' ∉ activeOwners { d with
            memberships := d.memberships.put (q, user) row } p := by
          rw [hn]
          exact fun _ => not_mem_nil
        have hkeys : ∀ row' ∈ activeOwners d p, row'.1 = (q, user) := by
          intro _ hrow'
          by_contra hoth
          exact owner_stays hrow' hoth hn
        have hq : q = p := by
          rw [← (mem_activeOwners.mp hfirst).2.1, hkeys first hfirst]
        subst hq
        refine ⟨rfl, fun howns => ?_, hown, hkeys⟩
        exact hlost _ (mem_activeOwners_put.mpr (.inl ⟨rfl, rfl, hact, hrole.trans howns⟩))
      · rintro ⟨rfl, hlesser, -, hkeys⟩
        refine eq_nil_iff_forall_not_mem.mpr fun row' hrow' => ?_
        rcases mem_activeOwners_put.mp hrow' with ⟨-, -, -, howns⟩ | ⟨hoth, hold⟩
        · exact hlesser (hrole.symm.trans howns)
        · exact hoth (hkeys row' hold)
    | changeMemberRole _ _ q user role =>
      obtain ⟨_, _, hold, hano, hact, hrole, rfl⟩ := changeMemberRole_ok hcall
      refine iff_of_false ?_ id
      by_cases hwrit : first.1 = (q, user)
      · obtain ⟨hget, rfl, -, howns⟩ := mem_activeOwners.mp hfirst
        rw [hwrit] at hget
        obtain rfl := mem_unique hold hget
        have hq : q = first.1.1 := by rw [hwrit]
        by_cases hstays : role = .owner
        · exact ne_nil_of_mem (mem_activeOwners_put.mpr
            (.inl ⟨rfl, hq, hact, hrole.trans hstays⟩))
        · obtain ⟨_, hoth, hne⟩ := exists_other_owner (hq ▸ hano ⟨howns, hstays⟩) (q, user)
          exact owner_stays hoth hne
      · exact owner_stays hfirst hwrit
    | removeMember _ _ q user =>
      obtain ⟨_, _, hold, hano, -, rfl⟩ := removeMember_ok hcall
      refine iff_of_false ?_ id
      by_cases hwrit : first.1 = (q, user)
      · obtain ⟨hget, rfl, -, howns⟩ := mem_activeOwners.mp hfirst
        rw [hwrit] at hget
        obtain rfl := mem_unique hold hget
        have hq : q = first.1.1 := by rw [hwrit]
        obtain ⟨_, hoth, hne⟩ := exists_other_owner (hq ▸ hano howns) (q, user)
        exact owner_stays hoth hne
      · exact owner_stays hfirst hwrit

/-- The condition on a step of a run. -/
def SparesLastOwner (p : Uuid)
    (i : MembershipCall ⊕ (Table Uuid ProjectStatus × Table Uuid UserStatus)) (d : Directory) :
    Prop :=
  match i with
  | .inl call => ¬ DemotesLastOwner p d call
  | .inr _ => True

/-- **AN OWNER IS LEFT**: from a project with an active owner, every run in which the last
    owner is not added again in a lesser role leads to directories in which the project has
    an active owner; and an accepted call that does that takes the last owner away. -/
theorem last_owner_kept {p : Uuid} {d d' : Directory} (hown : activeOwners d p ≠ [])
    (h : Steps membership (SparesLastOwner p) d d') :
    activeOwners d' p ≠ [] ∧ ∀ call : MembershipCall, activeOwners (commit call.txn d') p = []
        ↔ (returned call.txn d').isSome ∧ DemotesLastOwner p d' call := by
  have hkept : activeOwners d' p ≠ [] := by
    refine Steps.preserves (I := fun e => activeOwners e p ≠ []) ?_ h hown
    intro i e he hspar
    cases i with
    | inl call => exact fun hn => hspar ((call_loses_owner_iff he call).mp hn).2
    | inr => exact he
  exact ⟨hkept, call_loses_owner_iff hkept⟩

/-! ### One owner, and a second -/

/-- Project 7 with the owner 1 and the user 2. -/
def foundedDirectory : Directory where
  projects := Table.empty.insert 7 .active
  users := (Table.empty.insert 1 .active).insert 2 .active
  memberships := Table.empty.insert (7, 1) {
    role := .owner
    createdByUserId := some 1
    createdAt := 0
    updatedAt := 0 }

/-- The owner makes somebody else an owner, and is made a viewer. -/
def handedOver : List (MembershipCall ⊕ (Table Uuid ProjectStatus × Table Uuid UserStatus)) :=
  [.inl (.addMember 1 (.apiKey 7 1 .owner) 7 2 .owner),
   .inl (.addMember 2 (.apiKey 7 2 .owner) 7 1 .viewer)]

theorem last_owner_kept_handed_over :
    ((activeOwners (membership.run handedOver foundedDirectory) 7).map Prod.fst = [(7, 2)])
      ∧ activeOwners (membership.run handedOver foundedDirectory) 7 ≠ [] := by
  have hdecide : (activeOwners (membership.run handedOver foundedDirectory) 7).map Prod.fst
      = [(7, 2)] := by
    decide +kernel
  have hfirst : ¬ DemotesLastOwner 7 foundedDirectory
      (.addMember 1 (.apiKey 7 1 .owner) 7 2 .owner) := by
    decide +kernel
  have hsec : ¬ DemotesLastOwner 7 (membership.step (.inl
      (.addMember 1 (.apiKey 7 1 .owner) 7 2 .owner)) foundedDirectory)
      (.addMember 2 (.apiKey 7 2 .owner) 7 1 .viewer) := by
    decide +kernel
  have hsteps : Steps membership (SparesLastOwner 7) foundedDirectory
      (membership.run handedOver foundedDirectory) :=
    .step _ (.step _ .refl hfirst) hsec
  exact ⟨hdecide, (last_owner_kept (by decide +kernel) hsteps).1⟩

/-- The only owner of project 7 adds themselves as a viewer: the call is accepted, and the
    project has no owner. -/
theorem last_owner_added_as_viewer : authenticate foundedDirectory 7 1 = some (.apiKey 7 1 .owner)
      ∧ (activeOwners foundedDirectory 7).map Prod.fst = [(7, 1)]
      ∧ (returned (addMember 1 (.apiKey 7 1 .owner) 7 1 .viewer) foundedDirectory).isSome
      ∧ activeOwners (membership.step (.inl (.addMember 1 (.apiKey 7 1 .owner) 7 1 .viewer))
          foundedDirectory) 7 = [] := by
  decide +kernel

end MiniAiCloud
