import MiniAiCloud.CommitmentProofs
import MiniAiCloud.GatewayRouting

/-! # The names of a project

    What the gateway relies on when it looks a name up: a project has one service of a
    name and one logical model of a public name, whatever calls were made.  The calls
    that scale and serve write rows of services all the time, but not their names; the
    calls on the catalog and those of the gateway write rows of models, but a public
    name only when they insert one. -/

namespace MiniAiCloud

open Transaction Reachability Table

variable {u : Unit} {b : Bool} {status : ModelAvailabilityStatus} {variantId : Uuid}

/-! ## The invariant -/

/-- The name of a service within its project. -/
def ServiceContract.title (contract : ServiceContract) : Uuid × String :=
  (contract.projectId, contract.name)

/-- The public name of a model within its project. -/
def LogicalModel.title (model : LogicalModel) : Uuid × String :=
  (model.projectId, model.publicName)

/-- The services have names of their own, and none wants fewer than no replicas. -/
structure ServicesNamed (T : Table Uuid (ServiceContract × ℤ)) : Prop where
  unique : T.UniqueOn (·.1.title)
  desired : ∀ x w, T.get? x = some w → 0 ≤ w.2

/-- What the gateway relies on. -/
structure Db.Named (db : Db) : Prop where
  services : ServicesNamed db.terms
  models : db.catalog.logicalModels.UniqueOn LogicalModel.title
  capacity : (db.terms.rows.length : ℤ) ≤ maxRoutingCursor

theorem Db.terms_length (db : Db) : db.terms.rows.length = db.modelServices.rows.length :=
  List.length_map _

section Steps

variable {now : Time} {p x : Uuid} {db db' mid : Db}

/-! ## Calls on services -/

/-- The names of services stay unique, and the catalog is not written. -/
structure KeepsNames (db db' : Db) : Prop where
  services : ServicesNamed db.terms → ServicesNamed db'.terms
  catalog : db'.catalog = db.catalog

theorem KeepsNames.refl (db : Db) : KeepsNames db db := ⟨id, rfl⟩

theorem KeepsNames.trans {db'' : Db} (h : KeepsNames db db') (h' : KeepsNames db' db'') :
    KeepsNames db db'' :=
  ⟨fun hnamed => h'.services (h.services hnamed), h'.catalog.trans h.catalog⟩

theorem KeepsNames.of_terms (hterms : db'.terms = db.terms)
    (hcat : db'.catalog = db.catalog) : KeepsNames db db' :=
  ⟨fun hnamed => hterms ▸ hnamed, hcat⟩

theorem KeepsNames.beside (h : db'.besideQuotas = db.besideQuotas) : KeepsNames db db' := by
  have hcat := congrArg Db.catalog h
  exact .of_terms (terms_of_besideQuotas h) hcat

theorem KeepsNames.scale {loaded : Option ModelService} {desired : ℤ}
    {nodes : Option (List String)} {r : Option ModelService}
    (hcall : setDesiredReplicas now x p loaded desired nodes db = .ok r db') :
    KeepsNames db db' := by
  rcases setDesiredReplicas_ok hcall with ⟨rfl, -⟩ | ⟨row, nodes', state, mid, -, hrow, -,
    hrepl, hsnd, rfl⟩
  · exact .refl db'
  have hbes := replaceServiceCommitment_beside hrepl
  have hmid : mid.terms = db.terms := terms_of_besideQuotas hbes
  have hcat := congrArg Db.catalog hbes
  refine ⟨fun hnamed => ?_, hcat⟩
  have hterms : (mid.modelServices.set x (row.rescaled (loaded.getD row) now desired
      nodes')).map ModelService.terms = db.terms.set x (row.contract, desired) := by
    rw [← hmid, ← rescaled_terms row (loaded.getD row) now desired nodes']
    exact map_set _ _ _ _
  rw [Db.terms, hterms]
  refine ⟨hnamed.unique.set (Db.terms_of_get? hrow) rfl, fun y w hw => ?_⟩
  rcases get?_set_cases hw with ⟨-, rfl⟩ | ⟨-, hold⟩
  · exact hsnd.replicas
  · exact hnamed.desired y w hold

theorem KeepsNames.create {s : ServiceSubmission} (hcall : createService now s db = .ok u db') :
    KeepsNames db db' := by
  obtain ⟨nodes, _, mid, hrepl, hsnd, -, huniq, rfl⟩ := createService_ok hcall
  have hbes := replaceServiceCommitment_beside hrepl
  have hmid : mid.terms = db.terms := terms_of_besideQuotas hbes
  have hcat := congrArg Db.catalog hbes
  refine ⟨fun hnamed => ?_, hcat⟩
  have hterms : (mid.modelServices.insert s.serviceId (s.service now nodes)).map
      ModelService.terms = db.terms.insert s.serviceId (s.service now nodes).terms := by
    rw [← hmid]
    exact map_insert _ _ _ _
  rw [Db.terms, hterms]
  refine ⟨hnamed.unique.insert fun y w hw heq => ?_, fun y w hw => ?_⟩
  · rw [← hmid] at hw
    obtain ⟨row, hrow, rfl⟩ := get?_map_eq_some.mp hw
    obtain ⟨hproj, hname⟩ := Prod.mk.inj heq
    exact huniq y row hrow ⟨hproj, hname⟩
  · rcases get?_insert_cases hw with ⟨-, rfl⟩ | hold
    · exact hsnd.replicas
    · exact hnamed.desired y w hold

theorem keepsNames_tracks : Tracks KeepsNames where
  refl := .refl
  trans := .trans
  quiet _ hbes := .beside hbes
  aside hterms hback := by
    have hcat := congrArg Db.catalog hback
    exact .of_terms hterms hcat
  scale _ hset := .scale hset

theorem KeepsNames.commit {α : Type} {m : Txn α}
    (h : ∀ a after, m db = .ok a after → KeepsNames db after) : KeepsNames db (commit m db) := by
  cases hm : m db with
  | ok a after =>
    rw [commit_of_ok hm]
    exact h a after hm
  | error =>
    rw [commit_of_error hm]
    exact .refl db

/-- **SERVICES**: a call that creates, scales or serves keeps the names. -/
theorem scaling_step_named (i : ScalingCall) (s : ScalingState) :
    KeepsNames s.db (scaling.step (i.within s.db) s).db := by
  cases i with
  | createService now submission => exact .commit fun _ _ hcall => .create hcall
  | previewService requestId serviceId projectId =>
    show KeepsNames s.db (s.preview requestId serviceId projectId).db
    rw [ScalingState.preview]
    cases (s.db.modelServices.get? serviceId).filter (·.projectId = projectId) <;>
      exact .refl s.db
  | scaleService now requestId replicas revalidated =>
    show KeepsNames s.db (s.scale now requestId replicas revalidated).db
    rw [ScalingState.scale]
    cases s.requests.get? requestId with
    | none => exact .refl s.db
    | some =>
      refine .commit fun u after hcall => ?_
      rcases scaleService_cases hcall with ⟨_, herror⟩ | hnth | ⟨nodes, hset⟩
      · cases herror
      · cases hnth
        exact .refl s.db
      · obtain ⟨r, hset⟩ := void_ok hset
        exact .scale hset
  | autoscale =>
    exact .commit fun _ _ hcall => autoscale_tracks keepsNames_tracks hcall
  | quota now call rolledBack =>
    refine .beside ?_
    have hkeeps := QuotaCall.run_keeps now call.quotaCall
    show (if rolledBack then Transaction.commit (call.quotaCall.run now) s.db
      else leaves (call.quotaCall.run now) s.db).besideQuotas = s.db.besideQuotas
    cases hrun : call.quotaCall.run now s.db with
    | ok =>
      rw [commit_of_ok hrun, leaves, hrun, ite_self]
      exact hkeeps.of_ok hrun
    | error =>
      rw [commit_of_error hrun, leaves, hrun]
      split_ifs
      · rfl
      · exact hkeeps.of_error hrun
  | serve now op =>
    have htends : Tends s.db.terms (op.txn now) := op.tends now
    obtain ⟨hterms, hback⟩ := htends.commit
    have hcat := congrArg Db.catalog hback
    exact .of_terms hterms hcat
  | elsewhere => exact .of_terms rfl rfl

/-! ## Calls on the catalog -/

/-- The terms of services stay, and the public names stay unique. -/
structure KeepsTitles (db db' : Db) : Prop where
  terms : db'.terms = db.terms
  models : db.catalog.logicalModels.UniqueOn LogicalModel.title →
    db'.catalog.logicalModels.UniqueOn LogicalModel.title

theorem KeepsTitles.refl (db : Db) : KeepsTitles db db := ⟨rfl, id⟩

theorem KeepsTitles.trans {db'' : Db} (h : KeepsTitles db db') (h' : KeepsTitles db' db'') :
    KeepsTitles db db'' :=
  ⟨h'.terms.trans h.terms, fun huniq => h'.models (h.models huniq)⟩

/-- The models themselves are not written. -/
theorem KeepsTitles.aside (hterms : db'.terms = db.terms)
    (hmdls : db'.catalog.logicalModels = db.catalog.logicalModels) : KeepsTitles db db' :=
  ⟨hterms, fun huniq => hmdls ▸ huniq⟩

/-- A call that begins with the lookup of its model. -/
theorem expectLogicalModel_bind {β : Type} {f : LogicalModel → Txn β} {r : β}
    (h : (expectLogicalModel p x >>= f) db = .ok r db') :
    ∃ model, db.catalog.logicalModels.get? x = some model ∧ f model db = .ok r db' := by
  obtain ⟨model, _, hmodel, hr⟩ := bind_ok.mp h
  rw [expectLogicalModel, bind_get, expect_ok] at hmodel
  obtain ⟨hf, hmid⟩ := hmodel
  rw [hmid] at hr
  exact ⟨model, (Option.filter_eq_some_iff.mp hf).1, hr⟩

/-- A model is saved under its public name. -/
theorem KeepsTitles.save {old new : LogicalModel} (h : saveLogicalModel x new db = .ok u db')
    (hold : db.catalog.logicalModels.get? x = some old) (htitle : new.title = old.title) :
    KeepsTitles db db' := by
  rw [saveLogicalModel, writeCatalog, modify_ok] at h
  subst h
  exact ⟨rfl, fun huniq => huniq.set hold htitle⟩

theorem normalizeResourceName_reads (value field : String) :
    Reads (normalizeResourceName value field) :=
  .check (.pure _)

theorem normalizeDisplayText_reads (value field : String) (maximum : ℕ) :
    Reads (normalizeDisplayText value field maximum) :=
  .check (.pure _)

theorem createLogicalModel_titles {name publicName : String} {policy : GatewayRoutingPolicy}
    (h : createLogicalModel now x p name publicName policy db = .ok u db') :
    KeepsTitles db db' := by
  rw [createLogicalModel, bind_get, bind_ok] at h
  obtain ⟨_, _, hproj, h⟩ := h
  rw [(raiseIf_ok.mp hproj).2] at h
  obtain ⟨_, _, hname, h⟩ := bind_ok.mp h
  rw [(normalizeResourceName_reads _ _).of_ok hname] at h
  obtain ⟨title, _, htitle, h⟩ := bind_ok.mp h
  rw [(normalizeDisplayText_reads _ _ _).of_ok htitle] at h
  obtain ⟨_, _, hsvcs, h⟩ := bind_ok.mp h
  rw [checkLogicalPublicNameAvailable, bind_get, raiseIf_ok] at hsvcs
  simp only [hsvcs.2, writeCatalog, ↓raise_ok, modify_ok, not_not] at h
  obtain ⟨-, hfree, -, rfl⟩ := h
  refine ⟨rfl, fun huniq => huniq.insert fun y model hmodel heq => ?_⟩
  obtain ⟨hproj, hpub⟩ := Prod.mk.inj heq
  have hmem : (y, model) ∈ publicModels _ p title :=
    mem_select.mpr ⟨hmodel, decide_eq_true ⟨hproj, hpub⟩⟩
  rw [hfree] at hmem
  cases hmem

theorem setRoutingPolicy_titles {policy : GatewayRoutingPolicy}
    (h : setRoutingPolicy now p x policy db = .ok u db') : KeepsTitles db db' := by
  obtain ⟨_, hget, h⟩ := expectLogicalModel_bind h
  split_ifs at h
  · rw [← (pure_ok.mp h).2]
    exact .refl db
  · exact .save h hget rfl

theorem setLogicalModelStatus_titles {reason : String}
    (h : setLogicalModelStatus now p x status reason db = .ok u db') :
    KeepsTitles db db' := by
  obtain ⟨_, hget, h⟩ := expectLogicalModel_bind h
  rw [bind_get] at h
  obtain ⟨hready, h⟩ := raise_ok.mp h
  split_ifs at h
  · rw [← (pure_ok.mp h).2]
    exact .refl db
  · obtain ⟨_, _, hreas, h⟩ := bind_ok.mp h
    rw [(normalizeDisplayText_reads _ _ _).of_ok hreas] at h
    exact .save h hget rfl

theorem deleteLogicalModel_titles (h : deleteLogicalModel p x db = .ok b db') :
    KeepsTitles db db' := by
  rw [deleteLogicalModel, bind_get] at h
  cases hmodel : getLogicalModel db p x with
  | none =>
    simp only [hmodel, pure_ok] at h
    rw [← h.2]
    exact .refl db
  | some =>
    simp only [hmodel, writeCatalog, bind_ok, raiseIf_ok, modify_ok, pure_ok] at h
    obtain ⟨_, _, ⟨-, rfl⟩, _, _, rfl, -, rfl⟩ := h
    exact ⟨rfl, fun huniq => huniq.keep _⟩

theorem createVariant_titles {name : String} {vendor : AcceleratorVendor}
    {kind : AcceleratorKind}
    (h : createVariant variantId p x name vendor kind status db = .ok u db') :
    KeepsTitles db db' := by
  obtain ⟨_, _, h⟩ := expectLogicalModel_bind h
  obtain ⟨hkind, h⟩ := raise_ok.mp h
  obtain ⟨_, _, hname, h⟩ := bind_ok.mp h
  rw [(normalizeResourceName_reads _ _).of_ok hname] at h
  simp only [writeCatalog, bind_ok, get_ok, ↓raise_ok, modify_ok, not_not] at h
  obtain ⟨_, _, ⟨rfl, rfl⟩, -, -, rfl⟩ := h
  exact .aside rfl rfl

theorem setVariantStatus_titles {reason : String}
    (h : setVariantStatus p x variantId status reason db = .ok u db') : KeepsTitles db db' := by
  obtain ⟨_, _, h⟩ := expectLogicalModel_bind h
  rw [bind_get] at h
  obtain ⟨_, hvar, h⟩ := bind_expect.mp h
  split_ifs at h
  · rw [← (pure_ok.mp h).2]
    exact .refl db
  · obtain ⟨_, _, hretain, h⟩ := bind_ok.mp h
    rw [(raiseIf_ok.mp hretain).2] at h
    obtain ⟨_, _, hreas, h⟩ := bind_ok.mp h
    rw [(normalizeDisplayText_reads _ _ _).of_ok hreas] at h
    rw [writeCatalog, modify_ok] at h
    subst h
    exact .aside rfl rfl

theorem deleteVariant_titles (h : deleteVariant p x variantId db = .ok b db') :
    KeepsTitles db db' := by
  obtain ⟨_, _, h⟩ := expectLogicalModel_bind h
  rw [bind_get] at h
  cases hvar : getVariant db p x variantId with
  | none =>
    simp only [hvar, pure_ok] at h
    rw [← h.2]
    exact .refl db
  | some =>
    simp only [hvar, writeCatalog, bind_ok, raiseIf_ok, modify_ok, pure_ok] at h
    obtain ⟨_, _, ⟨-, rfl⟩, _, _, ⟨-, rfl⟩, _, _, rfl, -, rfl⟩ := h
    exact .aside rfl rfl

/-- **THE CATALOG**: a call on it keeps the public names unique. -/
theorem CatalogOp.titles {op : CatalogOp} (h : op.txn now db = .ok u db') :
    KeepsTitles db db' := by
  cases op with
  | createLogicalModel =>
    exact createLogicalModel_titles h
  | setRoutingPolicy => exact setRoutingPolicy_titles h
  | setLogicalModelStatus => exact setLogicalModelStatus_titles h
  | deleteLogicalModel =>
    obtain ⟨_, h⟩ := void_ok h
    exact deleteLogicalModel_titles h
  | createVariant =>
    exact createVariant_titles h
  | setVariantStatus => exact setVariantStatus_titles h
  | deleteVariant =>
    obtain ⟨_, h⟩ := void_ok h
    exact deleteVariant_titles h

/-! ## Calls of the gateway -/

theorem saveCircuit_titles {key : Uuid × Uuid × AcceleratorVendor}
    {circuit : VendorCircuitState} (h : saveCircuit key circuit db = .ok u db') :
    KeepsTitles db db' := by
  rw [saveCircuit, writeCatalog, modify_ok] at h
  subst h
  exact .aside rfl rfl

theorem passCircuit_titles {service : ModelService}
    (h : passCircuit now p service db = .ok b db') : KeepsTitles db db' := by
  have hnth : ∀ {c : Bool}, (pure c : Txn Bool) db = .ok b db' → KeepsTitles db db' := by
    intro c hpure
    rw [← (pure_ok.mp hpure).2]
    exact .refl db
  rw [passCircuit] at h
  cases hadm : service.admission with
  | none =>
    simp only [hadm] at h
    exact hnth h
  | some admission =>
    simp only [hadm, bind_get] at h
    cases hcirc : db.catalog.vendorCircuits.get?
        (p, admission.logicalModelId, admission.selectedVendor) with
    | none =>
      simp only [hcirc] at h
      exact hnth h
    | some =>
      simp only [hcirc] at h
      split_ifs at h
      · exact hnth h
      · exact hnth h
      · obtain ⟨_, _, hsave, hdone⟩ := bind_ok.mp h
        rw [← (pure_ok.mp hdone).2]
        exact saveCircuit_titles hsave

theorem chooseHealthyEndpoint_titles {selected : Option EndpointSelection}
    (h : chooseHealthyEndpoint now x p db = .ok selected db') : KeepsTitles db db' := by
  have htends : Tends db.terms (chooseHealthyEndpoint now x p) := .chooseHealthyEndpoint
  obtain ⟨hterms, hback⟩ := htends db selected db' h rfl
  have hmdls := congrArg (·.catalog.logicalModels) hback
  exact .aside hterms hmdls

theorem advanceRoutingCursor_titles {steps : ℤ}
    (h : advanceRoutingCursor x steps db = .ok u db') : KeepsTitles db db' := by
  obtain ⟨hsteps, h⟩ := raise_ok.mp h
  rw [bind_get] at h
  obtain ⟨_, _, hmodel, h⟩ := bind_ok.mp h
  obtain ⟨hget, heq⟩ := expect_ok.mp hmodel
  rw [heq] at h
  exact .save h hget rfl

theorem advanceBalanced_titles {policy : CandidatePolicy} {model : Option (Uuid × LogicalModel)}
    {steps : ℤ} (h : advanceBalanced policy model steps db = .ok u db') : KeepsTitles db db' := by
  have hnth : (pure () : Txn Unit) db = .ok u db' → KeepsTitles db db' := by
    intro hpure
    rw [← (pure_ok.mp hpure).2]
    exact .refl db
  cases model with
  | none => exact hnth h
  | some =>
    rw [advanceBalanced] at h
    split_ifs at h
    · exact advanceRoutingCursor_titles h
    · exact hnth h

theorem routeAmong_titles {excluded : List AcceleratorVendor} {policy : CandidatePolicy}
    {model : Option (Uuid × LogicalModel)} {candidates : List (Uuid × ModelService)} :
    ∀ {offset : ℕ} {skips : List GatewayPreflightSkip} {route : Option GatewayRoute} {db db' : Db},
      routeAmong now p excluded policy model offset skips candidates db = .ok route db' →
        KeepsTitles db db' := by
  induction candidates with
  | nil =>
    intro _ _ _ db _ h
    rw [← (pure_ok.mp h).2]
    exact .refl db
  | cons _ _ ih =>
    intro _ _ _ _ _ h
    rw [routeAmong] at h
    split_ifs at h
    · exact ih h
    obtain ⟨_, _, hcirc, h⟩ := bind_ok.mp h
    refine (passCircuit_titles hcirc).trans ?_
    split_ifs at h
    · obtain ⟨selected, _, hsel, h⟩ := bind_ok.mp h
      refine (chooseHealthyEndpoint_titles hsel).trans ?_
      cases selected with
      | none => exact ih h
      | some =>
        obtain ⟨_, _, hadv, hroute⟩ := bind_ok.mp h
        rw [← (pure_ok.mp hroute).2]
        exact advanceBalanced_titles hadv
    · exact ih h

theorem resolvePublicModel_reads (publicModel : String) :
    Reads (resolvePublicModel p publicModel) := by
  refine .bind .get fun db => ?_
  cases publicLogicalModel db p publicModel with
  | some model =>
    refine .check (.ite (.pure _) ?_)
    cases (getServiceByName db p publicModel).or (modelAnchor db p model.1 model.2) with
    | none => exact .pure _
    | some => exact .pure _
  | none =>
    cases getServiceByName db p publicModel with
    | none => exact .pure _
    | some anchor =>
      dsimp only
      cases anchor.2.logicalModelId with
      | none => exact .pure _
      | some modelId =>
        dsimp only
        cases getLogicalModel db p modelId with
        | none => exact .pure _
        | some => exact .ite (.pure _) (.pure _)

theorem chooseRoute_titles {publicModel : String} {excluded : List AcceleratorVendor}
    {r : Option Uuid × Option GatewayRoute}
    (h : chooseRoute now p publicModel excluded db = .ok r db') : KeepsTitles db db' := by
  obtain ⟨resolution, mid, hres, h⟩ := bind_ok.mp h
  obtain rfl := (resolvePublicModel_reads publicModel).of_ok hres
  cases resolution with
  | unserved =>
    rw [← (pure_ok.mp h).2]
    exact .refl mid
  | served anchor model =>
    dsimp only at h
    rw [bind_get] at h
    cases hcands : routeCandidates mid p anchor model with
    | none =>
      simp only [hcands, pure_ok] at h
      rw [← h.2]
      exact .refl mid
    | some =>
      simp only [hcands] at h
      obtain ⟨_, _, hroute, hdone⟩ := bind_ok.mp h
      rw [← (pure_ok.mp hdone).2]
      exact routeAmong_titles hroute

theorem getOrCreateCircuitState_titles {modelId : Uuid} {vendor : AcceleratorVendor}
    {circuit : VendorCircuitState}
    (h : getOrCreateCircuitState now p modelId vendor db = .ok circuit db') :
    KeepsTitles db db' := by
  rw [getOrCreateCircuitState, bind_get] at h
  cases hcirc : db.catalog.vendorCircuits.get? (p, modelId, vendor) with
  | some =>
    simp only [hcirc, pure_ok] at h
    rw [← h.2]
    exact .refl db
  | none =>
    simp only [hcirc] at h
    obtain ⟨hforn, h⟩ := raise_ok.mp h
    obtain ⟨_, _, hsave, hdone⟩ := bind_ok.mp h
    rw [← (pure_ok.mp hdone).2]
    exact saveCircuit_titles hsave

theorem recordOutcome_titles {route : GatewayRoute} {success : Bool} {errorCode : Option String}
    {threshold : ℤ} {cooldown : ℚ}
    (h : recordOutcome now route p success errorCode threshold cooldown db = .ok u db') :
    KeepsTitles db db' := by
  have hnth : (pure () : Txn Unit) db = .ok u db' → KeepsTitles db db' := by
    intro hpure
    rw [← (pure_ok.mp hpure).2]
    exact .refl db
  cases hmodel : route.logicalModelId with
  | none =>
    simp only [recordOutcome, hmodel] at h
    exact hnth h
  | some =>
    cases hven : route.selectedVendor with
    | none =>
      simp only [recordOutcome, hmodel, hven] at h
      exact hnth h
    | some =>
      simp only [recordOutcome, hmodel, hven] at h
      obtain ⟨_, _, hcirc, h⟩ := bind_ok.mp h
      refine (getOrCreateCircuitState_titles hcirc).trans ?_
      split_ifs at h <;> exact saveCircuit_titles h

end Steps

/-! ## Runs -/

theorem Db.Named.titles {db db' : Db} (h : db.Named) (hkeeps : KeepsTitles db db') :
    db'.Named where
  services := hkeeps.terms ▸ h.services
  models := hkeeps.models h.models
  capacity := hkeeps.terms ▸ h.capacity

theorem Db.Named.commit {α : Type} {db : Db} (h : db.Named) {m : Txn α}
    (hm : ∀ a db', m db = .ok a db' → KeepsTitles db db') : (commit m db).Named := by
  cases hrun : m db with
  | ok a after =>
    rw [commit_of_ok hrun]
    exact h.titles (hm a after hrun)
  | error =>
    rw [commit_of_error hrun]
    exact h

theorem gateway_step_named {i : GatewayCall} {s : ScalingState} (h : s.db.Named) :
    (gateway.step i s).db.Named := by
  cases i with
  | services call =>
    show (withinCapacity s (scaling.step (call.within s.db) s)).db.Named
    rw [withinCapacity]
    split_ifs with hroom
    · obtain ⟨hsvcs, hcat⟩ := scaling_step_named call s
      refine ⟨hsvcs h.services, ?_, ?_⟩
      · rw [hcat]
        exact h.models
      · rw [Db.terms_length]
        exact hroom
    · exact h
  | catalog now op => exact h.commit fun _ _ hcall => CatalogOp.titles hcall
  | chooseRoute =>
    exact h.commit fun _ _ hcall => chooseRoute_titles hcall
  | recordOutcome =>
    exact h.commit fun _ _ hcall => recordOutcome_titles hcall

/-- **THE NAMESPACE** holds in every state the calls can reach. -/
theorem gateway_named {ok : GatewayCall → ScalingState → Prop} {s : ScalingState}
    (h : Reach gateway ok s) : s.db.Named := by
  have hstep : ∀ i (s : ScalingState), s.db.Named → ok i s → (gateway.step i s).db.Named :=
    fun _ _ hs _ => gateway_step_named hs
  refine Reach.invariant ?_ hstep h
  rintro s ⟨⟨hsvcs, -⟩, -, hcat⟩
  have hterms : s.db.terms = .empty := by
    rw [Db.terms, hsvcs]
    rfl
  refine ⟨?_, ?_, ?_⟩
  · rw [hterms]
    exact ⟨uniqueOn_empty, by rintro _ _ ⟨⟩⟩
  · rw [hcat]
    exact uniqueOn_empty
  · rw [hterms]
    decide

end MiniAiCloud
