import MiniAiCloud.Meter
import MiniAiCloud.Scaling
import MiniAiCloud.ServiceTerms

/-! # The commitments of services are exact

    The quota state of a project carries six counters for its services: how many are
    up, their replicas, and the processors, the memory and the accelerators of either
    vendor their replicas take.  Each is the total over the services of the project,
    and a call moves a counter by the difference of what one service commits before
    and after.

    That is right as long as the difference starts from the row as it is.  The
    autoscaler sees to that; a scale request of the API starts from the row it loaded
    before the lock, so its counters are exact only if nobody has scaled the service
    in between (`service_commitments_exact`, `double_scale_drifts`). -/

namespace MiniAiCloud

open Transaction Reachability Table List ModelService QuotaCall

variable {service : ModelService} {s : ScalingState} {u : Unit} {db db' : Db}
  {nodes revalidated : Option (List String)} {loaded : Option ModelService} {R : Db → Db → Prop}
  {desired : ℤ} {load : Option ServiceLoad} {r : ProjectQuotaState}
  {settings : AutoscalerSettings} {outcome : AutoscaleOutcome} {request : ScaleRequest}

/-! ## Commitments -/

/-- The counters of a project for its services. -/
inductive Account where
  | services | replicas | cpu | memory | nvidia | ascend
  deriving DecidableEq, Repr

/-- What a service under this contract commits with so many replicas. -/
def ServiceContract.commitment (contract : ServiceContract) (replicas : ℤ) : Account → ℤ
  | .services => present replicas
  | .replicas => replicas
  | .cpu => contract.cpuMillicores * replicas
  | .memory => contract.memoryMb * replicas
  | .nvidia => if contract.vendor = .nvidia then contract.gpuCount * replicas else 0
  | .ascend => if contract.vendor = .huaweiAscend then contract.gpuCount * replicas else 0

/-- What a service commits. -/
def ModelService.commitment (service : ModelService) (account : Account) : ℤ :=
  service.contract.commitment service.desiredReplicas account

/-- What the quota state shows. -/
def ProjectQuotaState.commitment (s : ProjectQuotaState) : Account → ℤ
  | .services => s.serviceCount
  | .replicas => s.serviceReplicas
  | .cpu => s.serviceReservedCpuMillicores
  | .memory => s.serviceReservedMemoryMb
  | .nvidia => s.serviceReservedNvidiaGpus
  | .ascend => s.serviceReservedAscendNpus

/-- What a project shows; without a quota state it shows nothing. -/
def Db.shown (db : Db) (p : Uuid) (account : Account) : ℤ := (usage db p).commitment account

/-- What the services of a project commit. -/
def Db.committed (db : Db) (p : Uuid) (account : Account) : ℤ :=
  Meter.total db.modelServices (·.projectId) (·.commitment account) p

theorem Db.shown_of_get? {p : Uuid} {s : ProjectQuotaState} (h : db.quotaStates.get? p = some s)
    (account : Account) :
    db.shown p account = s.commitment account := by
  rw [Db.shown, usage, h]
  cases account <;> rfl

theorem commitment_roll (s : ProjectQuotaState) (now : Time) (account : Account) :
    (rollDailyState s now).commitment account = s.commitment account := by
  rw [rollDailyState]
  split_ifs
  · cases account <;> rfl
  · rfl

/-- A row is written over one that shows the same. -/
theorem Db.shown_write {p : Uuid} {s : ProjectQuotaState} (hs : db.quotaStates.get? p = some s)
    (hr : ∀ account, r.commitment account = s.commitment account) (p' : Uuid)
    (account : Account) : (db.withQuotaState p r).shown p' account = db.shown p' account := by
  by_cases hp : p' = p
  · subst hp
    have hset : (db.withQuotaState p' r).quotaStates.get? p' = some r := get?_set_self hs r
    rw [Db.shown_of_get? hset, Db.shown_of_get? hs, hr]
  · have hset : (db.withQuotaState p r).quotaStates.get? p' = db.quotaStates.get? p' :=
      get?_set_ne _ _ hp
    rw [Db.shown, Db.shown, usage, usage, hset]

/-- The totals only depend on the terms. -/
theorem Db.committed_of_terms (h : db'.terms = db.terms) (p : Uuid) (account : Account) :
    db'.committed p account = db.committed p account := by
  let weigh : Uuid → ServiceContract × ℤ → ℤ := fun _ w =>
    if w.1.projectId = p then w.1.commitment w.2 account else 0
  have hsum : ∀ d : Db, d.committed p account = d.terms.sum weigh := fun d =>
    (sum_map d.modelServices ModelService.terms weigh).symm
  rw [hsum, hsum, h]

/-! ## The quota calls -/

/-- Everything but the quota rows. -/
def Db.besideQuotas (db : Db) : Db := { db with quotas := .empty, quotaStates := .empty }

theorem terms_of_besideQuotas (h : db'.besideQuotas = db.besideQuotas) :
    db'.terms = db.terms := by
  have hsvcs := congrArg (fun d => d.modelServices.map terms) h
  exact hsvcs

theorem getLocked_beside (now : Time) (p : Uuid) : Keeps Db.besideQuotas (getLocked now p) :=
  .bind (.of_reads .get) fun _ => .bind (.of_reads (.expect _ _)) fun _ =>
    .bind (.of_reads (.expect _ _)) fun _ =>
    .bind (.of_reads (assertStateNonnegative_reads _)) fun _ =>
    .bind (.modify fun _ => rfl) fun _ => .of_reads (.pure _)

theorem initializeQuota_beside (now : Time) (p : Uuid) :
    Keeps Db.besideQuotas (initializeQuota now p) :=
  .bind (.of_reads .get) fun _ => .bind (.of_reads (.raiseIf _ _)) fun _ =>
    .bind (.modify fun _ => rfl) fun _ =>
    .bind (.of_reads (assertStateNonnegative_reads _)) fun _ => .of_reads (.pure _)

theorem touchState_beside (now : Time) (p : Uuid) (s : ProjectQuotaState) :
    Keeps Db.besideQuotas (touchState now p s) :=
  .bind (.modify fun _ => rfl) fun _ =>
    .bind (.of_reads (assertStateNonnegative_reads _)) fun _ =>
    .bind (.modify fun _ => rfl) fun _ => .of_reads (.pure _)

/-- No quota call writes another table. -/
theorem QuotaCall.run_keeps (now : Time) (call : QuotaCall) :
    Keeps Db.besideQuotas (call.run now) := by
  have hrefl : ∀ db : Db, db.besideQuotas = db.besideQuotas := fun _ => rfl
  have htrans : ∀ a b c : Db, b.besideQuotas = a.besideQuotas →
      c.besideQuotas = b.besideQuotas → c.besideQuotas = a.besideQuotas :=
    fun _ _ _ h h' => h'.trans h
  have hvoid : ∀ {α : Type} {m : Txn α}, Keeps Db.besideQuotas m →
      Keeps Db.besideQuotas (m >>= fun _ => pure ()) :=
    fun h => h.bind fun _ => .of_reads (.pure _)
  cases call with
  | initializeQuota p => exact hvoid (initializeQuota_beside now p)
  | admitQueued p => exact hvoid (.bind
      (admitQueuedProspect_moves hrefl htrans (getLocked_beside now p)) (touchState_beside now p))
  | releaseQueued p => exact hvoid (.bind
      (releaseQueuedProspect_moves hrefl htrans (getLocked_beside now p)) (touchState_beside now p))
  | reserveExecution p => exact hvoid (.bind
      (reserveExecutionProspect_moves hrefl htrans (getLocked_beside now p))
      (touchState_beside now p))
  | replaceServiceCommitment p => exact hvoid (.bind
      (serviceCommitmentProspect_moves hrefl htrans (getLocked_beside now p)
        (initializeQuota_beside now p)) fun _ =>
      .ite (.of_reads (.pure _)) (touchState_beside now p _))
  | release p => exact hvoid (.bind
      (releaseQuotaProspect_moves hrefl htrans (getLocked_beside now p)) (touchState_beside now p))
  | replace p => exact hvoid (.bind
      (replaceQuotaProspect_moves hrefl htrans (getLocked_beside now p)) fun _ =>
      .bind (.modify fun _ => rfl) fun _ => .of_reads (.pure _))

theorem Quiet.shown (h : Quiet db db') (p : Uuid) (account : Account) :
    db'.shown p account = db.shown p account := by
  rw [Db.shown, Db.shown, h.usage]

/-- The calls of tasks and project owners leave the counters of services alone. -/
theorem ProjectCall.shown_ok {now : Time} {call : ProjectCall}
    (h : call.quotaCall.run now db = .ok u db') (p' : Uuid) (account : Account) :
    db'.shown p' account = db.shown p' account := by
  cases call with
  | initializeQuota p =>
    obtain ⟨_, h⟩ := void_ok h
    exact ((initializeQuota_quiet now p).of_ok h).shown p' account
  | admitQueued =>
    obtain ⟨_, h⟩ := void_ok h
    obtain ⟨_, s, ⟨-, hs, -⟩, -, rfl, rfl⟩ := admitQueued_ok.mp h
    refine Db.shown_write hs (fun account => ?_) p' account
    exact .trans (by cases account <;> rfl) (commitment_roll s now account)
  | releaseQueued =>
    obtain ⟨_, h⟩ := void_ok h
    obtain ⟨_, s, ⟨-, hs, -⟩, -, rfl, rfl⟩ := releaseQueued_ok.mp h
    refine Db.shown_write hs (fun account => ?_) p' account
    exact .trans (by cases account <;> rfl) (commitment_roll s now account)
  | reserveExecution =>
    obtain ⟨_, h⟩ := void_ok h
    obtain ⟨_, s, _, ⟨-, hs, -⟩, -, -, -, -, rfl, rfl⟩ := reserveExecution_ok h
    refine Db.shown_write hs (fun account => ?_) p' account
    exact .trans (by cases account <;> rfl) (commitment_roll s now account)
  | release =>
    obtain ⟨_, h⟩ := void_ok h
    obtain ⟨_, _, hx, -, rfl, rfl⟩ := prospect_touch_ok.mp h
    obtain ⟨_, s, _, ⟨-, hs, -⟩, -, -, -, -, -, rfl, rfl⟩ := releaseQuotaProspect_ok.mp hx
    rw [withQuotaState_withQuotaState]
    refine Db.shown_write hs (fun account => ?_) p' account
    exact .trans (by cases account <;> rfl) (commitment_roll s now account)
  | replace p limits =>
    obtain ⟨_, h⟩ := void_ok h
    obtain ⟨_, hx, rfl⟩ := replaceQuota_ok.mp h
    exact ((replaceQuotaProspect_quiet now p limits).of_ok hx).shown p' account

/-! ## Replacing a commitment -/

section Replacing

variable {now : Time} {p : Uuid} {db db' mid : Db} {current desired : ℤ}

theorem AcceleratorVendor.ofString?_value (vendor : AcceleratorVendor) :
    AcceleratorVendor.ofString? vendor.value = some vendor := by
  cases vendor <;> decide

/-- The quota derives the same vendor at every call. -/
theorem vendorOf_demand (service : ModelService) :
    vendorOf service.demand.acceleratorVendor = some service.vendor := by
  rw [demand, vendor]
  cases service.admission with
  | none => rfl
  | some admission => exact AcceleratorVendor.ofString?_value admission.selectedVendor

/-- The counters move by the difference of two commitments. -/
theorem serviceRow_commitment {vendor : Option AcceleratorVendor}
    (hven : service.gpuCount = 0 ∨ vendor = some service.vendor) (s : ProjectQuotaState)
    (current desired : ℤ) (account : Account) :
    (serviceRow s vendor current desired service.cpuMillicores service.memoryMb
        service.gpuCount).commitment account
      = s.commitment account + (service.contract.commitment desired account
          - service.contract.commitment current account) := by
  have hshare : ∀ v, vendorShare vendor v (service.gpuCount * (desired - current))
      = (if service.vendor = v then service.gpuCount * desired else 0)
        - (if service.vendor = v then service.gpuCount * current else 0) := by
    intro v
    rcases hven with hzero | rfl
    · rw [vendorShare, hzero]
      simp
    · rw [vendorShare]
      by_cases hv : service.vendor = v
      · rw [if_pos (congrArg some hv), if_pos hv, if_pos hv, mul_sub]
      · rw [if_neg (fun h => hv (Option.some.inj h)), if_neg hv, if_neg hv, sub_zero]
  cases account with
  | services | replicas => rfl
  | cpu | memory => exact congrArg (_ + ·) (mul_sub _ _ _)
  | nvidia => exact congrArg (_ + ·) (hshare .nvidia)
  | ascend => exact congrArg (_ + ·) (hshare .huaweiAscend)

/-- The row the checks of a commitment end with. -/
theorem serviceCommitmentProspect_row {s next : ProjectQuotaState}
    (h : serviceCommitmentProspect now p current desired service.demand db
      = .ok (s, next) mid) :
    mid.quotaStates.get? p = some s ∧ ∀ account, next.commitment account
      = s.commitment account + (service.contract.commitment desired account
          - service.contract.commitment current account) := by
  obtain ⟨_, _, _, ⟨_, hs, _⟩, _⟩ := serviceCommitmentProspect_ok h
  refine ⟨hs, ?_⟩
  rw [serviceCommitmentProspect, validateServiceCommitment] at h
  simp only [bind_ok, raiseIf_ok, pure_ok, normalizeAcceleratorVendor_ok] at h
  obtain ⟨_, _, -, _, _, -, _, _, ⟨hven, -⟩, _, _, -, _, _, -, hpair, -⟩ := h
  obtain ⟨rfl, rfl⟩ := Prod.mk.inj hpair
  refine serviceRow_commitment ?_ _ current desired
  rcases hven with ⟨hzero, -⟩ | ⟨-, -, hven⟩
  · exact .inl hzero
  · exact .inr (hven.trans (vendorOf_demand service))

/-- **ONE COMMITMENT**: the counters of the project move by the difference, those of the
    others stay. -/
theorem replaceServiceCommitment_shown
    (h : replaceServiceCommitment now p current desired service.demand db = .ok r db')
    (p' : Uuid) (account : Account) :
    db'.shown p' account = db.shown p' account + if p = p' then
      service.contract.commitment desired account
        - service.contract.commitment current account else 0 := by
  obtain ⟨⟨s, next⟩, mid, hx, hr⟩ := bind_ok.mp h
  have hquiet := ((serviceCommitmentProspect_quiet now p current desired _).of_ok hx).shown
  obtain ⟨hs, hnext⟩ := serviceCommitmentProspect_row hx
  dsimp only at hr
  split_ifs at hr with hdelta
  · rw [← (pure_ok.mp hr).2, hquiet, sub_eq_zero.mp hdelta, sub_self, ite_self, add_zero]
  · obtain ⟨_, _, rfl⟩ := touchState_ok.mp hr
    rw [← hquiet]
    by_cases hp : p = p'
    · subst hp
      have hset : (mid.withQuotaState p (next.touched now)).quotaStates.get? p
          = some (next.touched now) := get?_set_self hs _
      rw [if_pos rfl, Db.shown_of_get? hset, Db.shown_of_get? hs]
      exact .trans (by cases account <;> rfl) (hnext account)
    · have hset : (mid.withQuotaState p (next.touched now)).quotaStates.get? p'
          = mid.quotaStates.get? p' := get?_set_ne _ _ (.symm hp)
      rw [if_neg hp, add_zero, Db.shown, Db.shown, usage, usage, hset]

theorem replaceServiceCommitment_bounded {d : ResourceDemand}
    (h : replaceServiceCommitment now p current desired d db = .ok r db') (p' : Uuid)
    (hbdd : Bounded db p') : Bounded db' p' :=
  have hrun : (QuotaCall.replaceServiceCommitment p current desired d).run now db = .ok () db' :=
    bind_ok.mpr ⟨r, db', h, rfl⟩
  run_ok hrun hbdd

theorem replaceServiceCommitment_beside {d : ResourceDemand}
    (h : replaceServiceCommitment now p current desired d db = .ok r db') :
    db'.besideQuotas = db.besideQuotas :=
  (run_keeps now (.replaceServiceCommitment p current desired d)).of_ok (a := ())
    (bind_ok.mpr ⟨r, db', h, rfl⟩)

end Replacing

/-! ## The invariant -/

/-- Nothing about a service is negative. -/
structure SoundTerms (w : ServiceContract × ℤ) : Prop where
  replicas : 0 ≤ w.2
  cpu : 0 ≤ w.1.cpuMillicores
  memory : 0 ≤ w.1.memoryMb
  gpu : 0 ≤ w.1.gpuCount

theorem SoundTerms.commitment_nonneg {w : ServiceContract × ℤ} (h : SoundTerms w)
    (account : Account) : 0 ≤ w.1.commitment w.2 account := by
  have hgpu := mul_nonneg h.gpu h.replicas
  cases account with
  | services =>
    show 0 ≤ present w.2
    rw [present]
    split_ifs <;> decide
  | replicas => exact h.replicas
  | cpu => exact mul_nonneg h.cpu h.replicas
  | memory => exact mul_nonneg h.memory h.replicas
  | nvidia =>
    show 0 ≤ if w.1.vendor = .nvidia then w.1.gpuCount * w.2 else 0
    split_ifs
    · exact hgpu
    · exact le_rfl
  | ascend =>
    show 0 ≤ if w.1.vendor = .huaweiAscend then w.1.gpuCount * w.2 else 0
    split_ifs
    · exact hgpu
    · exact le_rfl

/-- Every counter is the total over the services of the project. -/
structure ExactCommitments (db : Db) : Prop where
  bounded : ∀ p, Bounded db p
  exact : ∀ p account, db.shown p account = db.committed p account
  sound : ∀ x w, db.terms.get? x = some w → SoundTerms w

/-- The scale requests under way know the contract of their service. -/
def RequestsKnow (s : ScalingState) : Prop :=
  ∀ k request, s.requests.get? k = some request →
    ∃ row, s.db.modelServices.get? request.serviceId = some row
      ∧ row.projectId = request.projectId ∧ request.preview.contract = row.contract

/-- No service is dropped and no contract changed. -/
def KeepsContracts (db db' : Db) : Prop :=
  ∀ x row, db.modelServices.get? x = some row →
    ∃ row', db'.modelServices.get? x = some row' ∧ row'.contract = row.contract

section Steps

variable {now : Time} {p x : Uuid} {db db' mid : Db}

theorem KeepsContracts.refl (db : Db) : KeepsContracts db db := fun _ row h => ⟨row, h, rfl⟩

theorem KeepsContracts.trans {db'' : Db} (h : KeepsContracts db db')
    (h' : KeepsContracts db' db'') : KeepsContracts db db'' := by
  intro x row hrow
  obtain ⟨row', hrow', heq⟩ := h x row hrow
  obtain ⟨row'', hrow'', heq'⟩ := h' x row' hrow'
  exact ⟨row'', hrow'', heq'.trans heq⟩

theorem KeepsContracts.of_terms (h : db'.terms = db.terms) : KeepsContracts db db' := by
  intro _ _ hrow
  have hterms := Db.terms_of_get? hrow
  rw [← h] at hterms
  obtain ⟨row', hrow', heq⟩ := get?_map_eq_some.mp hterms
  exact ⟨row', hrow', congrArg Prod.fst heq⟩

theorem RequestsKnow.kept (h : RequestsKnow s) (hkeeps : KeepsContracts s.db db') :
    RequestsKnow { s with db := db' } := by
  intro k request hreq
  obtain ⟨row, hrow, hproj, hcon⟩ := h k request hreq
  obtain ⟨row', hrow', heq⟩ := hkeeps request.serviceId row hrow
  refine ⟨row', hrow', ?_, hcon.trans heq.symm⟩
  exact (congrArg ServiceContract.projectId heq).trans hproj

variable (h : ExactCommitments db)

include h

/-- A write that moves neither terms nor counters. -/
theorem ExactCommitments.still (hterms : db'.terms = db.terms)
    (hbdd : ∀ p, Bounded db p → Bounded db' p)
    (hshown : ∀ p account, db'.shown p account = db.shown p account) :
    ExactCommitments db' where
  bounded p := hbdd p (h.bounded p)
  exact p account := by
    rw [hshown, Db.committed_of_terms hterms]
    exact h.exact p account
  sound x w hw := h.sound x w (hterms ▸ hw)

/-- A write besides the quota rows that moves no terms. -/
theorem ExactCommitments.aside (hterms : db'.terms = db.terms)
    (hqs : db'.quotas = db.quotas) (hsts : db'.quotaStates = db.quotaStates) :
    ExactCommitments db' := by
  refine h.still hterms (fun p hp => ?_) (fun p account => ?_)
  · rw [Bounded, hqs, hsts]
    rcases hp with hp | ⟨quota, s, ⟨hq, hs, hsnd⟩, hw⟩
    · exact .inl hp
    · exact .inr ⟨quota, s, ⟨by rw [hqs]; exact hq, by rw [hsts]; exact hs, hsnd⟩, hw⟩
  · rw [Db.shown, Db.shown, usage, usage, hsts]

/-- A call on replicas. -/
theorem ExactCommitments.serve (op : ServiceOp) :
    ExactCommitments (commit (op.txn now) db) := by
  have htends : Tends db.terms (op.txn now) := op.tends now
  obtain ⟨hterms, hback⟩ := htends.commit
  have hqs := congrArg Db.quotas hback
  have hsts := congrArg Db.quotaStates hback
  exact h.aside hterms hqs hsts

/-- A call of a task or a project owner, rolled back or not. -/
theorem ExactCommitments.quota (call : ProjectCall) (rolledBack : Bool) :
    ExactCommitments (if rolledBack then commit (call.quotaCall.run now) db
      else leaves (call.quotaCall.run now) db) := by
  rw [commit, leaves]
  cases hrun : call.quotaCall.run now db with
  | ok =>
    rw [ite_self]
    have hbes := (run_keeps now call.quotaCall).of_ok hrun
    exact h.still (terms_of_besideQuotas hbes) (fun p => run_ok hrun)
      (ProjectCall.shown_ok hrun)
  | error =>
    split_ifs with hrol
    · exact h
    · have hbes := (run_keeps now call.quotaCall).of_error hrun
      have hquiet := run_error hrun
      exact h.still (terms_of_besideQuotas hbes) hquiet.bounded hquiet.shown

omit h

/-! ## Creation -/

theorem validateNodeNames_reads : ∀ values, Reads (validateNodeNames values)
  | [] => .pure _
  | _ :: rest => .bind (.check (.pure _)) fun _ =>
    .bind (validateNodeNames_reads rest) fun _ => .pure _

theorem eligibleNodeSnapshot_reads (values : Option (List String)) (model : Option Uuid) :
    Reads (eligibleNodeSnapshot values model) := by
  cases model with
  | none => exact .check (.pure _)
  | some =>
    exact .bind (.expect _ _) fun _ => .bind (validateNodeNames_reads _) fun _ =>
      .check (.pure _)

theorem checkConstraints_ok {checks : List (String × Bool)}
    (h : checkConstraints checks db = .ok u db') : (∀ c ∈ checks, c.2 = true) ∧ db' = db := by
  induction checks with
  | nil => exact ⟨fun _ hc => (nomatch hc), (pure_ok.mp h).2.symm⟩
  | cons check _ ih =>
    obtain ⟨_, _⟩ := check
    simp only [checkConstraints, bind_ok, raiseIf_ok, Bool.not_eq_false] at h
    obtain ⟨_, _, ⟨hholds, heq⟩, hr⟩ := h
    rw [heq] at hr
    obtain ⟨hall, hdb⟩ := ih hr
    exact ⟨forall_mem_cons.mpr ⟨hholds, hall⟩, hdb⟩

/-- A row that passes its constraints has nothing negative. -/
theorem soundTerms_of_constraints (h : checkConstraints service.constraints db = .ok u db') :
    SoundTerms service.terms ∧ db' = db := by
  obtain ⟨hall, hdb⟩ := checkConstraints_ok h
  simp only [constraints, forall_mem_cons, decide_eq_true_eq] at hall
  obtain ⟨⟨hdes, _⟩, _, hcpu, hmm, hgpu, _⟩ := hall
  refine ⟨⟨hdes, ?_, ?_, hgpu⟩, hdb⟩
  · exact le_trans (by decide) hcpu
  · exact le_trans (by decide) hmm

/-- What the creation of a service does. -/
theorem createService_ok {s : ServiceSubmission} (h : createService now s db = .ok u db') :
    ∃ nodes state mid, replaceServiceCommitment now s.projectId 0 s.desiredReplicas
        (s.service now nodes).demand db = .ok state mid
      ∧ SoundTerms (s.service now nodes).terms
      ∧ mid.modelServices.get? s.serviceId = none
      ∧ (∀ y row, mid.modelServices.get? y = some row →
          ¬ (row.projectId = s.projectId ∧ row.name = s.name))
      ∧ db' = { mid with
          modelServices := mid.modelServices.insert s.serviceId (s.service now nodes) } := by
  rw [createService, bind_ok] at h
  obtain ⟨nodes, _, hnodes, h⟩ := h
  rw [(eligibleNodeSnapshot_reads _ _).of_ok hnodes, bind_ok] at h
  obtain ⟨_, _, hname, h⟩ := h
  have heq : Reads (checkServiceNameAvailable s.projectId s.name
      (s.admission.map (·.logicalModelId))) := .bind .get fun _ => .raiseIf _ _
  rw [heq.of_ok hname] at h
  obtain ⟨state, _, hrepl, hins⟩ := bind_ok.mp h
  rw [insertService, bind_get, bind_ok] at hins
  obtain ⟨_, _, hcons, hins⟩ := hins
  obtain ⟨hsnd, rfl⟩ := soundTerms_of_constraints hcons
  simp only [↓raise_ok, modify_ok, not_not] at hins
  obtain ⟨hfresh, huniq, rfl⟩ := hins
  exact ⟨nodes, state, _, hrepl, hsnd, hfresh,
    fun y row hrow heq => huniq ⟨(y, row), mem_rows.mpr hrow, heq⟩, rfl⟩

/-- A new service commits from nothing. -/
theorem commitment_zero (contract : ServiceContract) (account : Account) :
    contract.commitment 0 account = 0 := by
  cases account <;> simp [ServiceContract.commitment, present]

theorem ExactCommitments.create (h : ExactCommitments db) {s : ServiceSubmission}
    (hcall : createService now s db = .ok u db') : ExactCommitments db' := by
  obtain ⟨nodes, _, mid, hrepl, hsnd, hfresh, -, rfl⟩ := createService_ok hcall
  have hbes := replaceServiceCommitment_beside hrepl
  have hmid : mid.terms = db.terms := terms_of_besideQuotas hbes
  refine ⟨fun p => ?_, fun p account => ?_, fun y w hw => ?_⟩
  · exact replaceServiceCommitment_bounded hrepl p (h.bounded p)
  · show mid.shown p account = Meter.total (mid.modelServices.insert s.serviceId
      (s.service now nodes)) (·.projectId) (·.commitment account) p
    rw [Meter.total_insert hfresh, replaceServiceCommitment_shown hrepl, h.exact,
      commitment_zero, sub_zero, ← Db.committed_of_terms hmid]
    rfl
  · have hterms : (mid.modelServices.insert s.serviceId (s.service now nodes)).map
        terms = mid.terms.insert s.serviceId (s.service now nodes).terms :=
      map_insert _ _ _ _
    rw [Db.terms, hterms] at hw
    rcases get?_insert_cases hw with ⟨-, rfl⟩ | hold
    · exact hsnd
    · exact h.sound y w (hmid ▸ hold)

theorem KeepsContracts.create {s : ServiceSubmission}
    (hcall : createService now s db = .ok u db') : KeepsContracts db db' := by
  obtain ⟨_, _, _, hrepl, -, -, -, rfl⟩ := createService_ok hcall
  have hmid := terms_of_besideQuotas (replaceServiceCommitment_beside hrepl)
  refine (KeepsContracts.of_terms hmid).trans fun y row hrow => ?_
  exact ⟨row, get?_insert_of_some hrow _, rfl⟩

/-! ## Scaling -/

theorem scaledNodes_reads (service : ModelService) (desired : ℤ)
    (nodes : Option (List String)) : Reads (scaledNodes service desired nodes) :=
  .ite (eligibleNodeSnapshot_reads _ _) (.check (.pure _))

theorem rescaled_terms (row service : ModelService) (now : Time) (desired : ℤ)
    (nodes : Option (List String)) :
    (row.rescaled service now desired nodes).terms = (row.contract, desired) := by
  have hven : (row.rescaled service now desired nodes).vendor = row.vendor := by
    cases nodes with
    | none => rfl
    | some =>
      rw [vendor, vendor, rescaled]
      cases row.admission <;> rfl
  rw [terms, contract, hven]
  rfl

/-- What a scaling does: nothing, where nothing is to do, or one commitment and one
    write. -/
theorem setDesiredReplicas_ok {r : Option ModelService}
    (h : setDesiredReplicas now x p loaded desired nodes db = .ok r db') :
    (db' = db ∧ ∀ row, db.modelServices.get? x = some row → row.projectId = p →
        (loaded.getD row).desiredReplicas = desired)
      ∨ ∃ row nodes' state mid, r ≠ none ∧ db.modelServices.get? x = some row
      ∧ row.projectId = p
      ∧ replaceServiceCommitment now p (loaded.getD row).desiredReplicas desired
          (loaded.getD row).demand db = .ok state mid
      ∧ SoundTerms (row.contract, desired)
      ∧ db' = { mid with
          modelServices := mid.modelServices.set x
            (row.rescaled (loaded.getD row) now desired nodes') } := by
  rw [setDesiredReplicas, bind_get] at h
  cases hrow : (db.modelServices.get? x).filter (·.projectId = p) with
  | none =>
    simp only [hrow, pure_ok] at h
    refine .inl ⟨h.2.symm, fun row hget hproj => ?_⟩
    rw [hget, Option.filter_some, if_pos (decide_eq_true hproj)] at hrow
    cases hrow
  | some row =>
    obtain ⟨hget, hproj⟩ := Option.filter_eq_some_iff.mp hrow
    simp only [hrow] at h
    split_ifs at h with heq
    · refine .inl ⟨(pure_ok.mp h).2.symm, fun row' hget' _ => ?_⟩
      obtain rfl := Option.mem_unique hget hget'
      exact heq
    obtain ⟨nodes', _, hnodes, h⟩ := bind_ok.mp h
    rw [(scaledNodes_reads _ _ _).of_ok hnodes] at h
    obtain ⟨state, mid, hrepl, hwrite⟩ := bind_ok.mp h
    obtain ⟨_, _, hcons, hflush⟩ := bind_ok.mp hwrite
    obtain ⟨hsnd, hmid⟩ := soundTerms_of_constraints hcons
    obtain ⟨_, _, hsave, hdone⟩ := bind_ok.mp hflush
    rw [rescaled_terms] at hsnd
    rw [hmid, saveService, modify_ok] at hsave
    obtain ⟨rfl, hdb⟩ := pure_ok.mp hdone
    exact .inr ⟨row, nodes', state, mid, Option.some_ne_none _, hget,
      of_decide_eq_true hproj, hrepl, hsnd, hdb.symm.trans hsave⟩

/-- **ONE SCALING**: it keeps the counters exact if the session knows the row as it is. -/
theorem ExactCommitments.scale (h : ExactCommitments db) {r : Option ModelService}
    (hload : ∀ row, db.modelServices.get? x = some row → (loaded.getD row).terms = row.terms)
    (hcall : setDesiredReplicas now x p loaded desired nodes db = .ok r db') :
    ExactCommitments db' := by
  rcases setDesiredReplicas_ok hcall with ⟨rfl, -⟩ | ⟨row, nodes', state, mid, -, hrow, hproj,
    hrepl, hsnd, rfl⟩
  · exact h
  have hbes := replaceServiceCommitment_beside hrepl
  have hmid : mid.terms = db.terms := terms_of_besideQuotas hbes
  have hsvcs := congrArg Db.modelServices hbes
  have hmidrow : mid.modelServices.get? x = some row := (congrArg (Table.get? · x) hsvcs).trans hrow
  obtain ⟨hcon, hdes⟩ := Prod.mk.inj (hload row hrow)
  have hnew := rescaled_terms row (loaded.getD row) now desired nodes'
  refine ⟨fun p => ?_, fun p' account => ?_, fun y w hw => ?_⟩
  · exact replaceServiceCommitment_bounded hrepl p (h.bounded p)
  · have hkey : (row.rescaled (loaded.getD row) now desired nodes').projectId
        = row.projectId := rfl
    have hwt : (row.rescaled (loaded.getD row) now desired nodes').commitment account
        = row.contract.commitment desired account := by
      obtain ⟨hcon', hdes'⟩ := Prod.mk.inj hnew
      rw [commitment, hcon', hdes']
    show mid.shown p' account = Meter.total (mid.modelServices.set x
      (row.rescaled (loaded.getD row) now desired nodes')) (·.projectId)
      (·.commitment account) p'
    rw [Meter.total_set hmidrow hkey, hwt, replaceServiceCommitment_shown hrepl,
      h.exact, ← Db.committed_of_terms hmid, hproj, hcon, hdes]
    rfl
  · have hterms : (mid.modelServices.set x (row.rescaled (loaded.getD row) now desired
        nodes')).map terms = mid.terms.set x (row.contract, desired) := by
      rw [← hnew]
      exact map_set _ _ _ _
    rw [Db.terms, hterms] at hw
    rcases get?_set_cases hw with ⟨-, rfl⟩ | ⟨-, hold⟩
    · exact hsnd
    · exact h.sound y w (hmid ▸ hold)

theorem KeepsContracts.scale {r : Option ModelService}
    (hcall : setDesiredReplicas now x p loaded desired nodes db = .ok r db') :
    KeepsContracts db db' := by
  rcases setDesiredReplicas_ok hcall with ⟨rfl, -⟩ | ⟨row, nodes', state, mid, -, hrow, -,
    hrepl, -, rfl⟩
  · exact .refl _
  have hbes := replaceServiceCommitment_beside hrepl
  have hsvcs := congrArg Db.modelServices hbes
  refine (KeepsContracts.of_terms (terms_of_besideQuotas hbes)).trans fun y old hold => ?_
  by_cases hy : y = x
  · subst hy
    have hold' := (congrArg (Table.get? · y) hsvcs).symm.trans hold
    obtain rfl := Option.mem_unique hold' hrow
    exact ⟨_, get?_set_self hold _,
      congrArg Prod.fst (rescaled_terms old (loaded.getD old) now desired nodes')⟩
  · exact ⟨old, (get?_set_ne _ _ hy).trans hold, rfl⟩

/-- The two things every call keeps. -/
structure Upholds (db db' : Db) : Prop where
  exact : ExactCommitments db → ExactCommitments db'
  contracts : KeepsContracts db db'

theorem Upholds.refl (db : Db) : Upholds db db := ⟨id, .refl db⟩

theorem Upholds.trans {db'' : Db} (h : Upholds db db') (h' : Upholds db' db'') : Upholds db db'' :=
  ⟨fun hexact => h'.exact (h.exact hexact), h.contracts.trans h'.contracts⟩

theorem Upholds.quiet (hquiet : Quiet db db') (hbes : db'.besideQuotas = db.besideQuotas) :
    Upholds db db' where
  exact h := h.still (terms_of_besideQuotas hbes) hquiet.bounded hquiet.shown
  contracts := .of_terms (terms_of_besideQuotas hbes)

theorem Upholds.aside (hterms : db'.terms = db.terms) (hqs : db'.quotas = db.quotas)
    (hsts : db'.quotaStates = db.quotaStates) : Upholds db db' :=
  ⟨fun h => h.aside hterms hqs hsts, .of_terms hterms⟩

/-! ## The autoscaler -/

theorem checkConstraints_raises (checks : List (String × Bool)) :
    RaisesOnly (fun e => ∃ constraint, e = Err.integrityError constraint)
      (checkConstraints checks) := by
  induction checks with
  | nil => exact .pure _
  | cons check rest ih => exact .bind (.raiseIf ⟨_, rfl⟩) fun _ => ih

/-- A scaling that the quota refuses has written nothing but the day of the counters. -/
theorem setDesiredReplicas_refused {e : Err}
    (h : setDesiredReplicas now x p loaded desired nodes db = .error e db')
    (he : e.isQuotaExceeded = true) :
    Quiet db db' ∧ db'.besideQuotas = db.besideQuotas := by
  rw [setDesiredReplicas, bind_get] at h
  cases hrow : (db.modelServices.get? x).filter (·.projectId = p) with
  | none =>
    simp only [hrow] at h
    exact absurd h pure_error
  | some row =>
    simp only [hrow] at h
    split_ifs at h with heq
    · exact absurd h pure_error
    rcases bind_error.mp h with hnodes | ⟨nodes', _, hnodes, hrepl⟩
    · rw [(scaledNodes_reads _ _ _).of_error hnodes]
      exact ⟨.refl db, rfl⟩
    rw [(scaledNodes_reads _ _ _).of_ok hnodes] at hrepl
    rcases bind_error.mp hrepl with href | ⟨state, mid, -, hwrite⟩
    · have hrun : (QuotaCall.replaceServiceCommitment p (loaded.getD row).desiredReplicas
          desired (loaded.getD row).demand).run now db = .error e db' := bind_of_error href
      exact ⟨QuotaCall.run_error hrun, (QuotaCall.run_keeps now _).of_error hrun⟩
    · -- what follows only raises broken constraints
      rcases bind_error.mp hwrite with hbrk | ⟨_, _, -, hflush⟩
      · obtain ⟨_, rfl⟩ := checkConstraints_raises _ _ _ _ hbrk
        cases he
      rcases bind_error.mp hflush with hsave | ⟨_, _, -, hdone⟩
      · exact absurd hsave modify_error
      · exact absurd hdone pure_error

/-- A relation that holds between the states around a pass of the autoscaler, because it
    holds around each thing a pass does: the quota is locked, a row is saved with its
    terms, a service is scaled from its row as it is. -/
structure Tracks (R : Db → Db → Prop) : Prop where
  refl : ∀ db, R db db
  trans : ∀ {a b c : Db}, R a b → R b c → R a c
  quiet : ∀ {a b : Db}, Quiet a b → b.besideQuotas = a.besideQuotas → R a b
  aside : ∀ {a b : Db}, b.terms = a.terms → b.backdrop = a.backdrop → R a b
  scale : ∀ {now : Time} {x p : Uuid} {service : ModelService} {desired : ℤ}
    {nodes : Option (List String)} {r : Option ModelService} {a b : Db},
    a.modelServices.get? x = some service →
    setDesiredReplicas now x p (some service) desired nodes a = .ok r b → R a b

theorem upholds_tracks : Tracks Upholds where
  refl := .refl
  trans := .trans
  quiet := .quiet
  aside hterms hback := by
    have hqs := congrArg Db.quotas hback
    have hsts := congrArg Db.quotaStates hback
    exact .aside hterms hqs hsts
  scale := by
    intro _ _ _ _ _ _ _ _ _ hsvc hset
    refine ⟨fun hexact => hexact.scale (fun row hrow => ?_) hset, .scale hset⟩
    obtain rfl := Option.mem_unique hsvc hrow
    rfl

theorem autoscaleTo_tracks (hR : Tracks R) {target : ℤ}
    (hsvc : db.modelServices.get? x = some service)
    (h : autoscaleTo now x service target nodes db = .ok outcome db') : R db db' := by
  obtain ⟨updated, mid, hct, hr⟩ := bind_ok.mp h
  have hmid : R db mid := by
    rcases catching_cases hct with hset | ⟨e, last, hrsd, hhnd, hn⟩
    · obtain ⟨_, _, hset, hdone⟩ := bind_ok.mp hset
      rw [(pure_ok.mp hdone).2] at hset
      exact hR.scale hsvc hset
    · rw [← (pure_ok.mp hn).2]
      rcases bind_error.mp hrsd with hset | ⟨_, _, -, hdone⟩
      · obtain ⟨hquiet, hbes⟩ := setDesiredReplicas_refused hset hhnd
        exact hR.quiet hquiet hbes
      · exact absurd hdone pure_error
  refine hR.trans hmid ?_
  match updated, hr with
  | none, hr =>
    rw [← (pure_ok.mp hr).2]
    exact hR.refl mid
  | some none, hr =>
    rw [← (pure_ok.mp hr).2]
    exact hR.refl mid
  | some (some _), hr =>
    obtain ⟨_, _, hmod, hdone⟩ := bind_ok.mp hr
    rw [← (pure_ok.mp hdone).2, modify_ok.mp hmod]
    refine hR.aside ?_ rfl
    exact map_modify_eq fun _ => rfl

/-- The admission lets the service have that many replicas; it is only asked for a service
    of Kubernetes that grows. -/
def AdmitsGrowth (settings : AutoscalerSettings) (service : ModelService) (target : ℤ)
    (revalidated : Option (List String)) : Prop :=
  service.runtimeType = .kubernetes ∧ service.desiredReplicas < target →
    settings.kubernetesAdmissionReady = true ∧ (service.admission.isSome →
      (revalidated.filter fun _ => settings.hasRuntimeProfileCatalog) ≠ none)

/-- What a pass does with a service it has locked: it leaves it, or it scales it. -/
theorem autoscaleLocked_cases {result : EStateM.Result Err Db AutoscaleOutcome}
    (h : autoscaleLocked now settings x service load revalidated db = result) :
    (∃ outcome, result = .ok outcome db ∧ outcome ≠ .scaled
      ∧ ∀ known ∈ load, known.UsableAt now settings.metricMaxAgeSeconds →
        ¬ service.InCooldown now → outcome = .held)
    ∨ ∃ known ∈ load, ∃ target nodes, known.UsableAt now settings.metricMaxAgeSeconds
      ∧ target = targetReplicas service known.activeRequests settings.scaleToZeroEnabled
      ∧ target ≠ service.desiredReplicas ∧ AdmitsGrowth settings service target revalidated
      ∧ autoscaleTo now x service target nodes db = result := by
  rw [autoscaleLocked] at h
  cases hload : load.filter (·.UsableAt now settings.metricMaxAgeSeconds) with
  | none =>
    simp only [hload] at h
    refine .inl ⟨_, h.symm, nofun, fun known hknown huse => ?_⟩
    rw [Option.mem_def.mp hknown, Option.filter_some, if_pos (decide_eq_true huse)] at hload
    cases hload
  | some known =>
    obtain ⟨hknown, huse⟩ := Option.filter_eq_some_iff.mp hload
    have huse := of_decide_eq_true huse
    simp only [hload] at h
    split_ifs at h with hcool heq hready hgrow
    · exact .inl ⟨_, h.symm, nofun, fun _ _ _ hno => absurd hcool hno⟩
    · exact .inl ⟨_, h.symm, nofun, fun _ _ _ _ => rfl⟩
    · exact .inl ⟨_, h.symm, nofun, fun _ _ _ _ => rfl⟩
    · cases hnodes : revalidated.filter (fun _ => settings.hasRuntimeProfileCatalog) with
      | none =>
        simp only [hnodes] at h
        exact .inl ⟨_, h.symm, nofun, fun _ _ _ _ => rfl⟩
      | some =>
        simp only [hnodes] at h
        refine .inr ⟨known, hknown, _, _, huse, rfl, heq, fun hg => ⟨?_, fun _ => ?_⟩, h⟩
        · exact Bool.eq_true_of_not_eq_false fun hno => hready ⟨hg, hno⟩
        · exact hnodes ▸ Option.some_ne_none _
    · refine .inr ⟨known, hknown, _, _, huse, rfl, heq, fun hg => ⟨?_, fun hlogical => ?_⟩, h⟩
      · exact Bool.eq_true_of_not_eq_false fun hno => hready ⟨hg, hno⟩
      · exact absurd ⟨hg, hlogical⟩ hgrow

theorem autoscaleLocked_tracks (hR : Tracks R) (hsvc : db.modelServices.get? x = some service)
    (h : autoscaleLocked now settings x service load revalidated db = .ok outcome db') :
    R db db' := by
  rcases autoscaleLocked_cases h with ⟨_, hleft, -⟩ | ⟨_, -, _, _, -, -, -, -, hto⟩
  · cases hleft
    exact hR.refl db
  · exact autoscaleTo_tracks hR hsvc hto

/-- What a pass has done before it decides about a service: it has locked the quota and
    noted the check. -/
theorem autoscale_cases (hR : Tracks R) {candidate : AutoscaleCandidate} {locked : List Uuid}
    {result : EStateM.Result Err Db AutoscaleOutcome}
    (h : autoscale now settings candidate locked load revalidated db = result) :
    result = .ok .skipped db
      ∨ ∃ row, db.modelServices.get? candidate.serviceId = some row
        ∧ ((∃ e after, getLocked now row.projectId db = .error e after
              ∧ result = .error e after)
          ∨ ∃ service mid, R db mid
            ∧ service = { row with lastAutoscaleCheckedAt := some now, updatedAt := now }
            ∧ mid.modelServices.get? candidate.serviceId = some service
            ∧ autoscaleLocked now settings candidate.serviceId service load revalidated mid
              = result) := by
  rw [autoscale, bind_get] at h
  split_ifs at h with hmodel
  · exact .inl h.symm
  cases hsvc : (db.modelServices.get? candidate.serviceId).filter (fun service =>
      service.autoscalingEnabled ∧ candidate.serviceId ∉ locked
        ∧ service.lastAutoscaleCheckedAt = candidate.checkedAt
        ∧ lockedModel service.runtimeType (service.admission.map (·.logicalModelId))
            = lockedModel candidate.runtimeType candidate.logicalModelId) with
  | none =>
    simp only [hsvc] at h
    exact .inl h.symm
  | some row =>
    simp only [hsvc] at h
    have hrow := (Option.filter_eq_some_iff.mp hsvc).1
    refine .inr ⟨row, hrow, ?_⟩
    cases hlock : getLocked now row.projectId db with
    | error e after =>
      rw [bind_of_error hlock] at h
      exact .inl ⟨e, after, rfl, h.symm⟩
    | ok _ after =>
      rw [bind_of_ok hlock] at h
      have hquiet := (getLocked_quiet now row.projectId).of_ok hlock
      have hbes := (getLocked_beside now row.projectId).of_ok hlock
      have hsvcs := congrArg Db.modelServices hbes
      have hafter : after.modelServices.get? candidate.serviceId = some row :=
        (congrArg (Table.get? · candidate.serviceId) hsvcs).trans hrow
      let noted : ModelService := { row with
        lastAutoscaleCheckedAt := some now, updatedAt := now }
      let saved : Db := { after with
        modelServices := after.modelServices.set candidate.serviceId noted }
      have hsave : saveService candidate.serviceId noted after = .ok () saved := rfl
      refine .inr ⟨noted, saved, hR.trans (hR.quiet hquiet hbes) (hR.aside ?_ rfl), rfl,
        get?_set_self hafter noted, ?_⟩
      · exact map_set_eq hafter rfl
      · rw [bind_of_ok hsave] at h
        exact h

theorem autoscale_tracks (hR : Tracks R) {candidate : AutoscaleCandidate} {locked : List Uuid}
    (h : autoscale now settings candidate locked load revalidated db = .ok outcome db') :
    R db db' := by
  rcases autoscale_cases hR h with hskip | ⟨row, -, ⟨e, after, -, herror⟩ | ⟨service, mid,
    hmid, -, hsvc, hlckd⟩⟩
  · cases hskip
    exact hR.refl db
  · cases herror
  · exact hR.trans hmid (autoscaleLocked_tracks hR hsvc hlckd)

/-! ## A scale request -/

/-- A scale request does nothing, or it scales from the row it has loaded. -/
theorem scaleService_cases {replicas : ℤ} {result : EStateM.Result Err Db Unit}
    (h : scaleService now request replicas revalidated db = result) :
    (∃ message, result = .error (.lookupError message) db) ∨ result = .ok () db
      ∨ ∃ nodes, void (setDesiredReplicas now request.serviceId request.projectId
          (some request.preview) replicas nodes) db = result := by
  rw [scaleService, bind_get] at h
  cases hf : (raiseIf (¬ ∃ row ∈ db.modelServices.get? request.serviceId,
      row.projectId = request.projectId) (Err.lookupError "Service not found") : Txn Unit) db with
  | error =>
    rw [bind_of_error hf] at h
    obtain ⟨-, rfl, rfl⟩ := raiseIf_error.mp hf
    exact .inl ⟨_, h.symm⟩
  | ok =>
    rw [bind_of_ok hf, (raiseIf_ok.mp hf).2] at h
    split_ifs at h
    · cases revalidated with
      | none => exact .inr (.inl h.symm)
      | some nodes => exact .inr (.inr ⟨some nodes, h⟩)
    · exact .inr (.inr ⟨none, h⟩)

theorem scaleService_upholds {replicas : ℤ}
    (hpreview : ∀ row, db.modelServices.get? request.serviceId = some row →
      request.preview.terms = row.terms)
    (h : scaleService now request replicas revalidated db = .ok u db') : Upholds db db' := by
  rcases scaleService_cases h with ⟨_, herror⟩ | hnth | ⟨nodes, hset⟩
  · cases herror
  · cases hnth
    exact .refl db
  · obtain ⟨r, hset⟩ := void_ok hset
    exact ⟨fun hexact => hexact.scale hpreview hset, .scale hset⟩

end Steps

/-! ## Runs -/

/-- The service of a scale request has not been scaled since the request loaded its
    row. -/
def PreviewHolds (i : ScalingCall) (s : ScalingState) : Prop :=
  match i with
  | .scaleService _ requestId _ _ => ∀ request ∈ s.requests.get? requestId,
      ∀ row ∈ s.db.modelServices.get? request.serviceId,
        request.preview.desiredReplicas = row.desiredReplicas
  | _ => True

instance : ∀ (i : ScalingCall) (s : ScalingState), Decidable (PreviewHolds i s)
  | .scaleService _ requestId _ _, s =>
    inferInstanceAs (Decidable (∀ request ∈ s.requests.get? requestId,
      ∀ row ∈ s.db.modelServices.get? request.serviceId, _ = _))
  | .createService _ _, _ | .previewService _ _ _, _ | .autoscale _ _ _ _ _ _, _
  | .quota _ _ _, _ | .serve _ _, _ | .elsewhere _, _ => isTrue trivial

/-- The invariant of the system. -/
structure ScalingState.Sound (s : ScalingState) : Prop where
  exact : ExactCommitments s.db
  requests : RequestsKnow s

theorem ScalingState.Sound.upheld (h : s.Sound) (hupholds : Upholds s.db db') :
    ({ s with db := db' } : ScalingState).Sound :=
  ⟨hupholds.exact h.exact, h.requests.kept hupholds.contracts⟩

theorem ScalingState.Sound.commit {α : Type} (h : s.Sound) {m : Txn α}
    (hm : ∀ a db', m s.db = .ok a db' → Upholds s.db db') :
    ({ s with db := commit m s.db } : ScalingState).Sound := by
  cases hrun : m s.db with
  | ok a after =>
    rw [commit_of_ok hrun]
    exact h.upheld (hm a after hrun)
  | error =>
    rw [commit_of_error hrun]
    exact h

/-- A request whose preview holds knows the terms of its service. -/
theorem ScalingState.Sound.preview_terms (h : s.Sound) {requestId : Uuid}
    (hreq : s.requests.get? requestId = some request)
    (hholds : ∀ row ∈ s.db.modelServices.get? request.serviceId,
      request.preview.desiredReplicas = row.desiredReplicas) {row : ModelService}
    (hrow : s.db.modelServices.get? request.serviceId = some row) :
    request.preview.terms = row.terms := by
  obtain ⟨row', hrow', -, hcon⟩ := h.requests requestId request hreq
  obtain rfl := Option.mem_unique hrow' hrow
  exact Prod.ext hcon (hholds row' hrow')

/-- **EVERY STEP** keeps the counters exact, where a scale request knows what it
    replaces. -/
theorem scaling_step_sound {i : ScalingCall} (h : s.Sound) (hi : PreviewHolds i s) :
    (scaling.step i s).Sound := by
  cases i with
  | createService =>
    exact h.commit fun _ _ hcall => ⟨fun hexact => hexact.create hcall, .create hcall⟩
  | previewService requestId serviceId projectId =>
    show (s.preview requestId serviceId projectId).Sound
    rw [ScalingState.preview]
    cases hrow : (s.db.modelServices.get? serviceId).filter (·.projectId = projectId) with
    | none => exact h
    | some row =>
      obtain ⟨hget, hproj⟩ := Option.filter_eq_some_iff.mp hrow
      refine ⟨h.exact, fun k request hreq => ?_⟩
      by_cases hk : k = requestId
      · subst hk
        obtain rfl := Option.some.inj ((get?_put_self _ _ _).symm.trans hreq)
        exact ⟨row, hget, of_decide_eq_true hproj, rfl⟩
      · exact h.requests k request ((get?_put_ne _ _ hk).symm.trans hreq)
  | scaleService now requestId replicas revalidated =>
    show (s.scale now requestId replicas revalidated).Sound
    rw [ScalingState.scale]
    cases hreq : s.requests.get? requestId with
    | none => exact h
    | some request =>
      have hscal := h.commit (m := scaleService now request replicas revalidated)
        fun u db' hcall => scaleService_upholds
          (fun row hrow => h.preview_terms hreq (hi request hreq) hrow) hcall
      exact ⟨hscal.exact, fun k r hr => hscal.requests k r (get?_erase.mp hr).1⟩
  | autoscale =>
    exact h.commit fun _ _ hcall => autoscale_tracks upholds_tracks hcall
  | quota now call rolledBack =>
    refine h.upheld ⟨fun hexact => hexact.quota call rolledBack, .of_terms ?_⟩
    rw [Transaction.commit, leaves]
    cases hrun : call.quotaCall.run now s.db with
    | ok =>
      rw [ite_self]
      exact terms_of_besideQuotas ((run_keeps now call.quotaCall).of_ok hrun)
    | error =>
      split_ifs
      · rfl
      · exact terms_of_besideQuotas ((run_keeps now call.quotaCall).of_error hrun)
  | serve now op =>
    exact h.upheld ⟨fun hexact => hexact.serve op, .of_terms ((op.tends now).commit).1⟩
  | elsewhere => exact h.upheld (.aside rfl rfl rfl)

theorem scaling_sound (h : Reach scaling PreviewHolds s) : s.Sound := by
  refine h.invariant ?_ fun i s hs hi => scaling_step_sound hs hi
  rintro s ⟨hsvcs, hqs, hsts, hrequests⟩
  refine ⟨⟨fun p => .inl ?_, fun p account => ?_, fun x w hw => ?_⟩, fun k request hk => ?_⟩
  · rw [hqs, hsts]
    exact ⟨rfl, rfl⟩
  · rw [Db.shown, usage, hsts, Db.committed, hsvcs]
    cases account <;> rfl
  · rw [Db.terms, hsvcs] at hw
    cases hw
  · rw [hrequests] at hk
    cases hk

/-! ## No commitment is refused as inconsistent -/

/-- The exception does not say that a counter is wrong. -/
def Err.Consistent (e : Err) : Prop := ∀ message, e ≠ .quotaInvariantViolation message

section Raising

variable {now : Time} {p x : Uuid} {db db' : Db} {e : Err} {current desired : ℤ}

theorem Bounded.sound (h : Bounded db p) {s : ProjectQuotaState}
    (hs : db.quotaStates.get? p = some s) : s.Sound := by
  rcases h with ⟨-, hn⟩ | ⟨quota, s', ⟨-, hs', hsnd⟩, -⟩
  · rw [hs] at hn
    cases hn
  · obtain rfl := Option.mem_unique hs hs'
    exact hsnd

theorem assertStateNonnegative_passes {s : ProjectQuotaState} (h : s.Sound) :
    assertStateNonnegative s db = .ok () db :=
  assertStateNonnegative_ok.mpr ⟨h, rfl⟩

theorem getLocked_consistent (hb : Bounded db p) (h : getLocked now p db = .error e db') :
    e.Consistent := by
  rw [getLocked, bind_get] at h
  rcases bind_error.mp h with hquota | ⟨quota, _, hquota, hr⟩
  · rw [← (expect_error.mp hquota).2.1]
    intro _ heq
    cases heq
  rw [(expect_ok.mp hquota).2] at hr
  rcases bind_error.mp hr with hst | ⟨s, _, hst, hlast⟩
  · rw [← (expect_error.mp hst).2.1]
    intro _ heq
    cases heq
  obtain ⟨hs, hdb⟩ := expect_ok.mp hst
  rw [hdb, bind_of_ok (assertStateNonnegative_passes (hb.sound hs))] at hlast
  rcases bind_error.mp hlast with hwrite | ⟨_, _, -, hdone⟩
  · exact absurd hwrite modify_error
  · exact absurd hdone pure_error

theorem initializeQuota_consistent (hb : Bounded db p)
    (h : initializeQuota now p db = .error e db') : e.Consistent := by
  rw [initializeQuota, bind_get] at h
  rcases bind_error.mp h with hact | ⟨_, _, -, hr⟩
  · rw [← (raiseIf_error.mp hact).2.1]
    intro _ heq
    cases heq
  rcases bind_error.mp hr with hins | ⟨_, mid, -, hassert⟩
  · exact absurd hins modify_error
  have hsnd : ((db.quotaStates.get? p).getD
      { accountingDate := now.date, updatedAt := now }).Sound := by
    cases hs : db.quotaStates.get? p with
    | none => exact default_sound now now.date
    | some => exact hb.sound hs
  rw [bind_of_ok (assertStateNonnegative_passes hsnd)] at hassert
  exact absurd hassert pure_error

theorem lockOrInitialize_consistent (hb : Bounded db p)
    (h : lockOrInitialize now p db = .error e db') : e.Consistent := by
  rcases catching_cases h with hlock | ⟨e', mid, hlock, -, hinit⟩
  · exact getLocked_consistent hb hlock
  · rw [getLocked_error hlock] at hinit
    exact initializeQuota_consistent hb hinit

theorem checkLimits_consistent (checks : List (String × Option ℤ × ℤ)) :
    RaisesOnly Err.Consistent (checkLimits checks) := by
  induction checks with
  | nil => exact .pure _
  | cons check _ ih =>
    obtain ⟨_, limit, _⟩ := check
    refine .bind ?_ fun _ => ih
    cases limit with
    | none => exact .pure _
    | some bound => exact .raiseIf fun _ heq => (nomatch heq)

theorem normalizeAcceleratorVendor_consistent (value : Option String) (n : ℤ) :
    RaisesOnly Err.Consistent (normalizeAcceleratorVendor value n) :=
  .ite (.pure _) (.bind (.expect fun _ heq => (nomatch heq)) fun _ => .pure _)

/-- The new counters of a project that covers the old commitment are not negative. -/
theorem serviceRow_nonneg {vendor : Option AcceleratorVendor} {s : ProjectQuotaState}
    (hven : service.gpuCount = 0 ∨ vendor = some service.vendor)
    (hcov : ∀ account, service.contract.commitment current account ≤ s.commitment account)
    (hsnd : SoundTerms (service.contract, desired)) (account : Account) :
    0 ≤ (serviceRow s vendor current desired service.cpuMillicores service.memoryMb
      service.gpuCount).commitment account := by
  rw [serviceRow_commitment hven]
  have hnew := hsnd.commitment_nonneg account
  have hold := hcov account
  dsimp only at hnew
  omega

theorem replaceServiceCommitment_consistent (hb : Bounded db p)
    (hcovers : ∀ account, service.contract.commitment current account ≤ db.shown p account)
    (h : replaceServiceCommitment now p current desired service.demand db = .error e db') :
    e.Consistent := by
  rcases bind_error.mp h with hx | ⟨⟨s, next⟩, mid, hx, htouch⟩
  · rw [serviceCommitmentProspect] at hx
    rcases bind_error.mp hx with hinvalid | ⟨_, _, hvalid, hr⟩
    · rw [← (raiseIf_error.mp hinvalid).2.1]
      intro _ heq
      cases heq
    obtain ⟨hvalid, hdb⟩ := raiseIf_ok.mp hvalid
    simp only [not_or, not_lt] at hvalid
    obtain ⟨-, hdes, hcpu, hmm, hgpu⟩ := hvalid
    rw [hdb] at hr
    rcases bind_error.mp hr with hlock | ⟨snapshot, mid, hlock, hr⟩
    · exact lockOrInitialize_consistent hb hlock
    have hquiet := Moves.of_ok (Moves.catching quiet_trans (getLocked_quiet now p)
      (initializeQuota_quiet now p)) hlock
    obtain ⟨-, hs, -⟩ := lockOrInitialize_rows hlock
    rcases bind_error.mp hr with hven | ⟨vendor, _, hven, hr⟩
    · exact normalizeAcceleratorVendor_consistent _ _ _ _ _ hven
    obtain ⟨hven, -⟩ := normalizeAcceleratorVendor_ok.mp hven
    have hderived : service.gpuCount = 0 ∨ vendor = some service.vendor :=
      hven.imp And.left fun hv => hv.2.2.trans (vendorOf_demand service)
    have hcov : ∀ account,
        service.contract.commitment current account ≤ snapshot.state.commitment account := by
      intro account
      rw [← Db.shown_of_get? hs, hquiet.shown]
      exact hcovers account
    have hterms : SoundTerms (service.contract, desired) := ⟨hdes, hcpu, hmm, hgpu⟩
    have hnn := serviceRow_nonneg hderived hcov hterms
    rcases bind_error.mp hr with hnegative | ⟨_, _, -, hlimits⟩
    · -- none of the seven counters is negative
      refine absurd (raiseIf_error.mp hnegative).1 ?_
      simp only [not_or, not_lt]
      exact ⟨hnn .services, hnn .replicas, hnn .cpu, hnn .memory,
        add_nonneg (hnn .nvidia) (hnn .ascend), hnn .nvidia, hnn .ascend⟩
    rcases bind_error.mp hlimits with hlim | ⟨_, _, -, hdone⟩
    · exact checkLimits_consistent _ _ _ _ hlim
    · exact absurd hdone pure_error
  · obtain ⟨_, _, -, -, -, hsnd, -⟩ := serviceCommitmentProspect_ok hx
    dsimp only at htouch
    split_ifs at htouch
    · exact absurd htouch pure_error
    · exact absurd htouch (touchState_sound hsnd)

theorem ExactCommitments.shown_nonneg (h : ExactCommitments db) (account : Account) :
    0 ≤ db.shown p account := by
  rw [h.exact, Db.committed, Meter.total]
  refine sum_nonneg fun y row hrow => ?_
  split_ifs
  · exact (h.sound y row.terms (Db.terms_of_get? hrow)).commitment_nonneg account
  · exact le_rfl

/-- A project shows at least what each of its services commits. -/
theorem ExactCommitments.covers (h : ExactCommitments db) {row : ModelService}
    (hrow : db.modelServices.get? x = some row) (account : Account) :
    row.commitment account ≤ db.shown row.projectId account := by
  have hnn : ∀ y other, db.modelServices.get? y = some other →
      0 ≤ other.commitment account := fun y other hoth =>
    (h.sound y other.terms (Db.terms_of_get? hoth)).commitment_nonneg account
  rw [h.exact, Db.committed]
  exact Meter.weight_le_total hnn hrow

theorem validateNodeNames_consistent : ∀ values,
    RaisesOnly Err.Consistent (validateNodeNames values)
  | [] => .pure _
  | _ :: rest => .bind (.bind (.raiseIf fun _ heq => (nomatch heq)) fun _ => .pure _) fun _ =>
    .bind (validateNodeNames_consistent rest) fun _ => .pure _

theorem eligibleNodeSnapshot_consistent (values : Option (List String)) (model : Option Uuid) :
    RaisesOnly Err.Consistent (eligibleNodeSnapshot values model) := by
  cases model with
  | none => exact .bind (.raiseIf fun _ heq => (nomatch heq)) fun _ => .pure _
  | some =>
    exact .bind (.expect fun _ heq => (nomatch heq)) fun _ =>
      .bind (validateNodeNames_consistent _) fun _ =>
      .bind (.raiseIf fun _ heq => (nomatch heq)) fun _ => .pure _

theorem checkConstraints_consistent (checks : List (String × Bool)) :
    RaisesOnly Err.Consistent (checkConstraints checks) := by
  intro db e db' h
  obtain ⟨_, rfl⟩ := checkConstraints_raises checks db e db' h
  intro _ heq
  cases heq

theorem createService_consistent (hexact : ExactCommitments db) {s : ServiceSubmission}
    (h : createService now s db = .error e db') : e.Consistent := by
  rw [createService] at h
  rcases bind_error.mp h with hnodes | ⟨nodes, _, hnodes, hr⟩
  · exact eligibleNodeSnapshot_consistent _ _ _ _ _ hnodes
  rw [(eligibleNodeSnapshot_reads _ _).of_ok hnodes] at hr
  have hname : Reads (checkServiceNameAvailable s.projectId s.name
      (s.admission.map (·.logicalModelId))) := .bind .get fun _ => .raiseIf _ _
  rcases bind_error.mp hr with hconf | ⟨_, _, havl, hcrt⟩
  · have hrss : RaisesOnly Err.Consistent (checkServiceNameAvailable s.projectId s.name
        (s.admission.map (·.logicalModelId))) :=
      .bind .get fun _ => .raiseIf fun _ heq => (nomatch heq)
    exact hrss _ _ _ hconf
  rw [hname.of_ok havl] at hcrt
  rcases bind_error.mp hcrt with hrepl | ⟨_, _, -, hins⟩
  · refine replaceServiceCommitment_consistent (hexact.bounded _) (fun account => ?_) hrepl
    rw [commitment_zero]
    exact hexact.shown_nonneg account
  · have hrss : RaisesOnly Err.Consistent (insertService s.serviceId (s.service now nodes)) :=
      .bind .get fun _ => .bind (checkConstraints_consistent _) fun _ =>
        .bind (.raiseIf fun _ heq => (nomatch heq)) fun _ =>
        .bind (.raiseIf fun _ heq => (nomatch heq)) fun _ => .modify _
    exact hrss _ _ _ hins

theorem setDesiredReplicas_consistent (hexact : ExactCommitments db)
    (hload : ∀ row, db.modelServices.get? x = some row → (loaded.getD row).terms = row.terms)
    (h : setDesiredReplicas now x p loaded desired nodes db = .error e db') :
    e.Consistent := by
  rw [setDesiredReplicas, bind_get] at h
  cases hrow : (db.modelServices.get? x).filter (·.projectId = p) with
  | none =>
    simp only [hrow] at h
    exact absurd h pure_error
  | some row =>
    obtain ⟨hget, hproj⟩ := Option.filter_eq_some_iff.mp hrow
    obtain rfl := of_decide_eq_true hproj
    simp only [hrow] at h
    split_ifs at h with hsame
    · exact absurd h pure_error
    rcases bind_error.mp h with hnodes | ⟨nodes', _, hnodes, hr⟩
    · have hrss : RaisesOnly Err.Consistent (scaledNodes (loaded.getD row) desired nodes) :=
        .ite (eligibleNodeSnapshot_consistent _ _)
          (.bind (.raiseIf (by rintro _ ⟨⟩)) fun _ => .pure _)
      exact hrss _ _ _ hnodes
    rw [(scaledNodes_reads _ _ _).of_ok hnodes] at hr
    rcases bind_error.mp hr with hrepl | ⟨_, _, -, hwrite⟩
    · refine replaceServiceCommitment_consistent (hexact.bounded _) (fun account => ?_) hrepl
      obtain ⟨hcon, hdes⟩ := Prod.mk.inj (hload row hget)
      rw [hcon, hdes]
      exact hexact.covers hget account
    · rcases bind_error.mp hwrite with hbrk | ⟨_, _, -, hflush⟩
      · exact checkConstraints_consistent _ _ _ _ hbrk
      rcases bind_error.mp hflush with hsave | ⟨_, _, -, hdone⟩
      · exact absurd hsave modify_error
      · exact absurd hdone pure_error

theorem autoscaleLocked_consistent (hexact : ExactCommitments db)
    (hsvc : db.modelServices.get? x = some service)
    (h : autoscaleLocked now settings x service load revalidated db = .error e db') :
    e.Consistent := by
  rcases autoscaleLocked_cases h with ⟨_, hleft, -⟩ | ⟨_, -, _, _, -, -, -, -, hto⟩
  · cases hleft
  rcases bind_error.mp hto with hct | ⟨updated, mid, -, hr⟩
  · rcases catching_cases hct with hset | ⟨_, _, -, -, hn⟩
    · rcases bind_error.mp hset with hset | ⟨_, _, -, hdone⟩
      · refine setDesiredReplicas_consistent hexact (fun row hrow => ?_) hset
        obtain rfl := Option.mem_unique hsvc hrow
        rfl
      · exact absurd hdone pure_error
    · exact absurd hn pure_error
  · match updated, hr with
    | none, hr => exact absurd hr pure_error
    | some none, hr => exact absurd hr pure_error
    | some (some _), hr =>
      rcases bind_error.mp hr with hmod | ⟨_, _, -, hdone⟩
      · exact absurd hmod modify_error
      · exact absurd hdone pure_error

end Raising

/-- The exception a call on services ends with, if it does. -/
def ScalingCall.raises (s : ScalingState) : ScalingCall → Option Err
  | .createService now submission => raised (MiniAiCloud.createService now submission) s.db
  | .scaleService now requestId replicas revalidated =>
    (s.requests.get? requestId).bind fun request =>
      raised (MiniAiCloud.scaleService now request replicas revalidated) s.db
  | .autoscale now settings candidate locked load revalidated =>
    raised (MiniAiCloud.autoscale now settings candidate locked load revalidated) s.db
  | _ => none

theorem ScalingState.Sound.raises_consistent (h : s.Sound) {i : ScalingCall}
    (hi : PreviewHolds i s) {e : Err} (he : i.raises s = some e) :
    e.Consistent := by
  cases i with
  | createService =>
    obtain ⟨_, hrsd⟩ := raised_eq_some.mp he
    exact createService_consistent h.exact hrsd
  | scaleService =>
    obtain ⟨request, hreq, he⟩ := Option.bind_eq_some_iff.mp he
    obtain ⟨_, hrsd⟩ := raised_eq_some.mp he
    rcases scaleService_cases hrsd with ⟨message, herror⟩ | hnth | ⟨nodes, hset⟩
    · cases herror
      intro _ heq
      cases heq
    · cases hnth
    · refine setDesiredReplicas_consistent h.exact (fun row hrow => ?_) (void_error hset)
      exact h.preview_terms hreq (hi request hreq) hrow
  | autoscale =>
    obtain ⟨_, hrsd⟩ := raised_eq_some.mp he
    rcases autoscale_cases upholds_tracks hrsd with hskip | ⟨row, hrow,
      ⟨e', after, hlock, herror⟩ | ⟨service, mid, hmid, -, hsvc, hlckd⟩⟩
    · cases hskip
    · cases herror
      exact getLocked_consistent (h.exact.bounded _) hlock
    · exact autoscaleLocked_consistent (hmid.exact h.exact) hsvc hlckd
  | previewService requestId serviceId projectId | quota now call rolledBack | serve now op
  | elsewhere rest => cases he

/-! ## The counters -/

/-- The services of a project. -/
def Db.servicesOf (db : Db) (p : Uuid) : List ModelService :=
  (db.modelServices.select (fun _ service => service.projectId = p)).map Prod.snd

/-- The accelerators of a vendor one replica takes. -/
def ModelService.accelerators (service : ModelService) (vendor : AcceleratorVendor) : ℤ :=
  if service.vendor = vendor then service.gpuCount else 0

theorem Db.committed_eq_sum (db : Db) (p : Uuid) (account : Account) :
    db.committed p account = ((db.servicesOf p).map (·.commitment account)).sum := by
  rw [Db.servicesOf, map_map]
  refine Eq.trans ?_ (select_sum db.modelServices (fun _ service => service.projectId = p)
    (fun _ service => service.commitment account)).symm
  rw [Db.committed, Meter.total]
  exact sum_congr fun _ _ _ => by simp only [decide_eq_true_eq]

theorem sum_present (services : List ModelService) : (services.map (·.commitment .services)).sum
      = (services.countP (fun service => 0 < service.desiredReplicas) : ℤ) := by
  induction services with
  | nil => rfl
  | cons service _ ih =>
    rw [map_cons, sum_cons, ih, countP_cons]
    show present service.desiredReplicas + _ = _
    rw [present]
    by_cases hup : 0 < service.desiredReplicas
    · rw [if_pos hup, if_pos (decide_eq_true hup)]
      omega
    · rw [if_neg hup, if_neg (by simpa using hup)]
      omega

theorem accelerators_mul (service : ModelService) (vendor : AcceleratorVendor) :
    (if service.contract.vendor = vendor then
        service.contract.gpuCount * service.desiredReplicas else 0)
      = service.desiredReplicas * service.accelerators vendor := by
  rw [accelerators]
  show (if service.vendor = vendor then service.gpuCount * service.desiredReplicas else 0) = _
  split_ifs
  · exact mul_comm _ _
  · exact (mul_zero _).symm

/-- **EXACT COMMITMENTS**: along every run whose scale requests find their service as they
    loaded it, the six counters of a project are the totals over its services; and no
    creation and no scaling is refused because a counter is below what it replaces. -/
theorem service_commitments_exact {s : ScalingState} (h : Reach scaling PreviewHolds s) :
    (∀ p state, s.db.quotaStates.get? p = some state → state.serviceCount
          = (s.db.servicesOf p).countP (fun service => 0 < service.desiredReplicas)
        ∧ state.serviceReplicas = ((s.db.servicesOf p).map (·.desiredReplicas)).sum
        ∧ state.serviceReservedCpuMillicores = ((s.db.servicesOf p).map (fun service =>
            service.desiredReplicas * service.cpuMillicores)).sum
        ∧ state.serviceReservedMemoryMb = ((s.db.servicesOf p).map (fun service =>
            service.desiredReplicas * service.memoryMb)).sum
        ∧ state.serviceReservedNvidiaGpus = ((s.db.servicesOf p).map (fun service =>
            service.desiredReplicas * service.accelerators .nvidia)).sum
        ∧ state.serviceReservedAscendNpus = ((s.db.servicesOf p).map (fun service =>
            service.desiredReplicas * service.accelerators .huaweiAscend)).sum)
    ∧ ∀ i, PreviewHolds i s → ∀ message, i.raises s ≠ some (.quotaInvariantViolation message) := by
  have hsnd := scaling_sound h
  refine ⟨fun p state hst => ?_, fun i hi message hrss =>
    hsnd.raises_consistent hi hrss message rfl⟩
  have hshown : ∀ account, state.commitment account
      = ((s.db.servicesOf p).map (·.commitment account)).sum := by
    intro _
    rw [← Db.committed_eq_sum, ← hsnd.exact.exact, Db.shown_of_get? hst]
  have hmap : ∀ (account : Account) (f : ModelService → ℤ),
      (∀ service : ModelService, service.commitment account = f service) →
      state.commitment account = ((s.db.servicesOf p).map f).sum := by
    intro _ _ hf
    rw [hshown, funext hf]
  refine ⟨(hshown .services).trans (sum_present _), hmap .replicas _ fun _ => rfl,
    hmap .cpu _ fun _ => mul_comm _ _, hmap .memory _ fun _ => mul_comm _ _, ?_, ?_⟩
  · exact hmap .nvidia _ fun service => accelerators_mul service .nvidia
  · exact hmap .ascend _ fun service => accelerators_mul service .huaweiAscend

/-! ### One scale request, and two at once -/

/-- A service with one replica that takes one device of no named vendor. -/
def chatSubmission : ServiceSubmission where
  serviceId := 3
  projectId := 7
  name := "chat"
  model := "chat"
  runtime := .fake
  runtimeType := .fake
  image := none
  cpuMillicores := 500
  memoryMb := 256
  gpuCount := 1
  desiredReplicas := 1

def emptyScaling : ScalingState :=
  ⟨Db.ofProjects (Table.empty.insert 7 .active), .empty⟩

/-- The service is created, and two requests load its row. -/
def previewedTwice : List ScalingCall :=
  [.createService 10 chatSubmission, .previewService 1 3 7, .previewService 2 3 7]

def scaledOnce : ScalingState :=
  scaling.run (previewedTwice ++ [.scaleService 20 1 3 none]) emptyScaling

theorem service_commitments_exact_scaled_once :
    ∃ state, scaledOnce.db.quotaStates.get? 7 = some state ∧ state.serviceReplicas = 3
      ∧ state.serviceReplicas = ((scaledOnce.db.servicesOf 7).map (·.desiredReplicas)).sum := by
  have hreach : Reach scaling PreviewHolds scaledOnce :=
    .run _ (.init ⟨rfl, rfl, rfl, rfl⟩) (by decide +kernel)
  have hrow : (scaledOnce.db.quotaStates.get? 7).map (·.serviceReplicas) = some 3 := by
    decide +kernel
  obtain ⟨state, hst, hreps⟩ := Option.map_eq_some_iff.mp hrow
  exact ⟨state, hst, hreps, ((service_commitments_exact hreach).1 7 state hst).2.1⟩

/-- Both requests scale from the one replica they have seen, to three and to five: seven
    replicas are counted where five are desired.  If both stop the service, the second is
    refused because the counters are below what it replaces. -/
theorem double_scale_drifts : (∃ s, Reach scaling (fun _ _ => True) s
      ∧ (s.db.quotaStates.get? 7).map (·.serviceReplicas) = some 7
      ∧ ((s.db.servicesOf 7).map (·.desiredReplicas)).sum = 5)
    ∧ ∃ s i, Reach scaling (fun _ _ => True) s
      ∧ ScalingCall.raises s i = some (.quotaInvariantViolation
          "service quota state is below the current desired commitment") := by
  have hreach : ∀ calls, Reach scaling (fun _ _ => True) (scaling.run calls emptyScaling) :=
    fun calls => .run calls (.init ⟨rfl, rfl, rfl, rfl⟩)
      (allowed_of_forall calls (fun _ _ _ => trivial) _)
  refine ⟨⟨_, hreach (previewedTwice ++ [.scaleService 20 1 3 none, .scaleService 21 2 5 none]),
    ?_⟩, ⟨_, .scaleService 21 2 0 none, hreach (previewedTwice ++ [.scaleService 20 1 0 none]), ?_⟩⟩
  · decide +kernel
  · decide +kernel

end MiniAiCloud
