import MiniAiCloud.NamespaceProofs

/-! # What is listed is what is routed

    The list of models and the choice of a route are two computations: the list runs
    over all services and models of a project at once; the choice resolves one name,
    sorts, skips and rotates candidates, closes circuits on its way and stops at the
    first endpoint.  Both decide the same: whether some service that the name stands
    for can take a request now (`CanBeRouted`). -/

namespace MiniAiCloud

open Transaction OrderedQuery Reachability Table List

variable {name : String} {modelId : Uuid} {model : LogicalModel} {policy : CandidatePolicy}
  {row : Uuid × ModelService} {candidates : List (Uuid × ModelService)}

/-! ## Services that can take a request -/

/-- The service has an endpoint to route to. -/
def HasEndpoint (db : Db) (x : Uuid) (service : ModelService) : Prop :=
  healthyEndpoints db x service ≠ []

/-- The circuit of the vendor of the service keeps requests away. -/
def Blocked (now : Time) (p : Uuid) (db : Db) (service : ModelService) : Prop :=
  ∃ admission ∈ service.admission, ∃ circuit ∈ db.catalog.vendorCircuits.get?
    (p, admission.logicalModelId, admission.selectedVendor), circuit.Blocks now

/-- A service of the project that a request may go to. -/
structure Serves (now : Time) (p : Uuid) (db : Db) (x : Uuid) (service : ModelService) :
    Prop where
  row : db.modelServices.get? x = some service
  project : service.projectId = p
  wanted : 0 < service.desiredReplicas
  endpoint : HasEndpoint db x service
  passes : ¬ Blocked now p db service

/-- The policy allows the vendor, and the variant is ready and the one that was
    admitted. -/
def Admissible (db : Db) (policy : CandidatePolicy) (admission : ServiceAdmissionSnapshot) :
    Prop :=
  admission.selectedVendor ∈ policy.allowedVendors
    ∧ ∃ variant, db.catalog.modelVariants.get? admission.modelVariantId = some variant
      ∧ variant.logicalModelId = admission.logicalModelId ∧ variant.status = .ready
      ∧ admission.selectedVendor = variant.vendor ∧ admission.selectedKind = variant.kind

/-- The name stands for a service without a logical model, or for a logical model, and
    some service it stands for can take a request. -/
inductive CanBeRouted (now : Time) (p : Uuid) (db : Db) (name : String) : Prop where
  | plain (x : Uuid) (service : ModelService) (hserves : Serves now p db x service)
      (hname : service.name = name) (hplain : service.admission = none)
      (hfree : ∀ modelId model, db.catalog.logicalModels.get? modelId = some model →
        model.title ≠ (p, name))
  | logical (modelId : Uuid) (model : LogicalModel)
      (hmodel : db.catalog.logicalModels.get? modelId = some model)
      (htitle : model.title = (p, name)) (hready : model.status = .ready)
      (howned : ∀ y other, db.modelServices.get? y = some other → other.projectId = p →
        other.name = name → other.logicalModelId = some modelId)
      (x : Uuid) (service : ModelService) (hserves : Serves now p db x service)
      (admission : ServiceAdmissionSnapshot) (hadmission : service.admission = some admission)
      (hof : admission.logicalModelId = modelId)
      (hadmissible : Admissible db (candidatePolicy (some model.routingPolicy)) admission)

section Db

variable {now : Time} {p x : Uuid} {db : Db} {service : ModelService}

/-! ## Endpoints -/

/-- The two queries ask the same of a replica. -/
theorem endpoint?_isSome {replica : ServiceReplica} {generation : ℤ} {k : Uuid} :
    (replica.endpoint? x generation k).isSome
      ↔ replica.serviceId = x ∧ replica.Routable generation := by
  rw [ServiceReplica.endpoint?, ServiceReplica.Routable]
  cases replica.endpointUrl with
  | none => simp
  | some =>
    cases replica.executionId with
    | none => simp
    | some =>
      simp only [Option.isSome_ite, ne_eq, reduceCtorEq, not_false_eq_true, Option.some.injEq,
        and_true, true_and]

theorem hasEndpoint_iff :
    HasEndpoint db x service ↔ ∃ k replica, db.serviceReplicas.get? k = some replica
      ∧ replica.serviceId = x ∧ replica.Routable service.generation := by
  rw [HasEndpoint, healthyEndpoints, ne_eq, filterMap_eq_nil_iff]
  push Not
  constructor
  · rintro ⟨⟨k, replica⟩, hrow, hsome⟩
    exact ⟨k, replica, mem_rows.mp (mem_orderBy.mp hrow),
      endpoint?_isSome.mp (Option.isSome_iff_ne_none.mpr hsome)⟩
  · rintro ⟨k, replica, hrow, hrtb⟩
    exact ⟨(k, replica), mem_orderBy.mpr (mem_rows.mpr hrow),
      Option.isSome_iff_ne_none.mp (endpoint?_isSome.mpr hrtb)⟩

theorem mem_routableServiceIds :
    x ∈ routableServiceIds db p ↔ ∃ service, db.modelServices.get? x = some service
      ∧ service.projectId = p ∧ HasEndpoint db x service := by
  simp only [routableServiceIds, mem_map, hasEndpoint_iff]
  constructor
  · rintro ⟨⟨k, replica⟩, hrow, rfl⟩
    obtain ⟨hget, hsvc⟩ := mem_select.mp hrow
    obtain ⟨service, hsvc, hproj, hrtb⟩ := of_decide_eq_true hsvc
    exact ⟨service, hsvc, hproj, k, replica, hget, rfl, hrtb⟩
  · rintro ⟨service, hsvc, hproj, k, replica, hget, rfl, hrtb⟩
    exact ⟨(k, replica), mem_select.mpr ⟨hget, decide_eq_true ⟨service, hsvc, hproj, hrtb⟩⟩, rfl⟩

/-! ## Names -/

theorem mem_projectServices : row ∈ projectServices db p
      ↔ db.modelServices.get? row.1 = some row.2 ∧ row.2.projectId = p := by
  rw [projectServices, mem_orderBy]
  exact mem_select.trans (and_congr_right fun _ => decide_eq_true_iff)

theorem mem_projectModels {row : Uuid × LogicalModel} : row ∈ projectModels db p
      ↔ db.catalog.logicalModels.get? row.1 = some row.2 ∧ row.2.projectId = p :=
  mem_select.trans (and_congr_right fun _ => decide_eq_true_iff)

theorem mem_publicModels {row : Uuid × LogicalModel} : row ∈ publicModels db p name
      ↔ db.catalog.logicalModels.get? row.1 = some row.2 ∧ row.2.title = (p, name) := by
  refine mem_select.trans (and_congr_right fun _ => ?_)
  rw [decide_eq_true_iff, LogicalModel.title, Prod.mk.injEq]

/-- There is one service of a name. -/
theorem Db.Named.service_unique (h : db.Named) {y : Uuid} {other : ModelService}
    (hx : db.modelServices.get? x = some service) (hy : db.modelServices.get? y = some other)
    (hproj : service.projectId = other.projectId) (hname : service.name = other.name) :
    x = y ∧ service = other := by
  have heq : service.contract.title = other.contract.title := Prod.ext hproj hname
  obtain rfl := h.services.unique x y service.terms other.terms (Db.terms_of_get? hx)
    (Db.terms_of_get? hy) heq
  exact ⟨rfl, Option.mem_unique hx hy⟩

/-- There is one model of a public name. -/
theorem Db.Named.model_unique (h : db.Named) {a b : Uuid} {other : LogicalModel}
    (ha : db.catalog.logicalModels.get? a = some model)
    (hb : db.catalog.logicalModels.get? b = some other) (htitle : model.title = other.title) :
    a = b ∧ model = other := by
  obtain rfl := h.models a b model other ha hb htitle
  exact ⟨rfl, Option.mem_unique ha hb⟩

theorem Db.Named.desired_nonneg (h : db.Named) (hx : db.modelServices.get? x = some service) :
    0 ≤ service.desiredReplicas :=
  h.services.desired x service.terms (Db.terms_of_get? hx)

/-- A name is ambiguous if it is public and a service of something else has it. -/
theorem mem_ambiguousNames (hnamed : db.Named) : name ∈ ambiguousNames db p ↔ ∃ modelId model,
      db.catalog.logicalModels.get? modelId = some model ∧ model.title = (p, name)
      ∧ ∃ y other, db.modelServices.get? y = some other ∧ other.projectId = p
        ∧ other.name = name ∧ other.logicalModelId ≠ some modelId := by
  simp only [ambiguousNames, mem_map, mem_filter, decide_eq_true_iff]
  constructor
  · rintro ⟨⟨modelId, model⟩, ⟨hmodel, ⟨y, other⟩, hown, hoth⟩, rfl⟩
    obtain ⟨hget, hproj⟩ := mem_projectModels.mp hmodel
    obtain ⟨hsvcs, hname⟩ := mem_filter.mp (mem_of_getLast? hown)
    obtain ⟨hy, hyproj⟩ := mem_projectServices.mp hsvcs
    exact ⟨modelId, model, hget, Prod.ext hproj rfl, y, other, hy, hyproj,
      of_decide_eq_true hname, hoth⟩
  · rintro ⟨modelId, model, hget, htitle, y, other, hy, hproj, hname, hoth⟩
    obtain ⟨hmproj, hmname⟩ := Prod.mk.inj htitle
    refine ⟨(modelId, model), ⟨mem_projectModels.mpr ⟨hget, hmproj⟩, (y, other), ?_, hoth⟩, hmname⟩
    -- the last service of the name is the only one
    have hmem : (y, other) ∈ (projectServices db p).filter (fun row =>
        row.2.name = model.publicName) :=
      mem_filter.mpr ⟨mem_projectServices.mpr ⟨hy, hproj⟩,
        decide_eq_true (hname.trans hmname.symm)⟩
    cases hlast : serviceNamed (projectServices db p) model.publicName with
    | none =>
      rw [serviceNamed, getLast?_eq_none_iff] at hlast
      rw [hlast] at hmem
      cases hmem
    | some =>
      obtain ⟨hsvcs, howned⟩ := mem_filter.mp (mem_of_getLast? hlast)
      obtain ⟨hz, hzproject⟩ := mem_projectServices.mp hsvcs
      obtain ⟨hid, hrow⟩ := hnamed.service_unique hz hy (hzproject.trans hproj.symm)
        ((of_decide_eq_true howned).trans (hmname.trans hname.symm))
      exact congrArg some (Prod.ext hid hrow)

/-! ## The list -/

theorem offeredModel_eq_some (hx : db.modelServices.get? x = some service)
    (hproj : service.projectId = p) :
    offeredModel now p db (x, service) = some modelId ↔ ∃ model admission,
      db.catalog.logicalModels.get? modelId = some model ∧ model.projectId = p
      ∧ model.publicName ∉ ambiguousNames db p ∧ model.status = .ready
      ∧ service.admission = some admission ∧ admission.logicalModelId = modelId
      ∧ Admissible db (candidatePolicy (some model.routingPolicy)) admission
      ∧ Serves now p db x service := by
  have hrtb : x ∈ routableServiceIds db p ↔ HasEndpoint db x service := by
    rw [mem_routableServiceIds]
    constructor
    · rintro ⟨_, hf, -, hend⟩
      obtain rfl := Option.mem_unique hf hx
      exact hend
    · exact fun hend => ⟨service, hx, hproj, hend⟩
  simp only [offeredModel, getLogicalModel, projectVariant, Option.bind_eq_bind,
    Option.bind_eq_some_iff, Option.filter_eq_some_iff, decide_eq_true_iff, Option.guard_eq_some',
    hrtb, not_or, not_not, not_le, ne_eq, Option.pure_def, Option.some.injEq]
  constructor
  · rintro ⟨admission, hadm, model, ⟨hmodel, hmproj⟩, _, ⟨hclear, hready, hwant,
      hend⟩, _, hven, variant, ⟨hvar, -⟩, _, ⟨hof, hvready, hvvendor, hvkind⟩, _,
      hcirc, rfl⟩
    refine ⟨model, admission, hmodel, hmproj, hclear, hready, hadm, rfl,
      ⟨hven, variant, hvar, hof, hvready, hvvendor, hvkind⟩, hx, hproj, hwant,
      hend, ?_⟩
    rintro ⟨_, hf, hblk⟩
    obtain rfl := Option.mem_unique hf hadm
    exact hcirc hblk
  · rintro ⟨model, admission, hmodel, hmproj, hclear, hready, hadm, rfl, ⟨hven,
      variant, hvar, hof, hvready, hvvendor, hvkind⟩, hsrv⟩
    refine ⟨admission, hadm, model, ⟨hmodel, hmproj⟩, (), ⟨hclear, hready,
      hsrv.wanted, hsrv.endpoint⟩, (), hven, variant, ⟨hvar, ?_⟩, (),
      ⟨hof, hvready, hvvendor, hvkind⟩, (), fun hblk => ?_, rfl⟩
    · rw [hof]
      exact mem_map.mpr ⟨(_, model), mem_projectModels.mpr ⟨hmodel, hmproj⟩, rfl⟩
    · exact hsrv.passes ⟨admission, hadm, hblk⟩

/-- The loop over the services collects the models they offer. -/
theorem mem_availableLogicalIds : modelId ∈ availableLogicalIds now p db
      ↔ ∃ row ∈ projectServices db p, offeredModel now p db row = some modelId := by
  rw [availableLogicalIds]
  refine Iff.trans ?_ (or_iff_right (a := modelId ∈ ([] : List Uuid)) not_mem_nil)
  generalize projectServices db p = rows
  generalize ([] : List Uuid) = available
  induction rows generalizing available with
  | nil => simp
  | cons row _ ih =>
    rw [foldl_cons, ih]
    simp only [exists_mem_cons_iff]
    cases hrow : offeredModel now p db row with
    | none => simp
    | some found =>
      by_cases hf : found ∈ available
      · simp only [if_pos hf, Option.some.injEq]
        have : found = modelId → modelId ∈ available := fun heq => heq ▸ hf
        tauto
      · simp only [if_neg hf, mem_cons, Option.some.injEq, eq_comm (a := modelId)]
        tauto

/-- **THE LIST** has the names that can be routed. -/
theorem listed_iff (hnamed : db.Named) :
    name ∈ (listAvailableModels now p db).map (·.modelId) ↔ CanBeRouted now p db name := by
  simp only [listAvailableModels, mem_map, mem_orderBy, mem_append, mem_filter,
    decide_eq_true_iff]
  constructor
  · rintro ⟨_, ⟨⟨x, service⟩, ⟨hrow, hplain, hclear, hwant, hrtb⟩, rfl⟩
      | ⟨⟨modelId, model⟩, ⟨hmodel, havl⟩, rfl⟩, rfl⟩
    · obtain ⟨hx, hproj⟩ := mem_projectServices.mp hrow
      obtain ⟨found, hf, -, hend⟩ := mem_routableServiceIds.mp hrtb
      obtain rfl := Option.mem_unique hf hx
      have hadm : found.admission = none := Option.map_eq_none_iff.mp hplain
      refine .plain x found ⟨hx, hproj, hwant, hend, ?_⟩ rfl hadm ?_
      · rintro ⟨_, hsome, -⟩
        rw [hadm] at hsome
        cases hsome
      · -- a model of this public name would make the name ambiguous
        intro modelId model hmodel htitle
        refine hclear ((mem_ambiguousNames hnamed).mpr ⟨modelId, model, hmodel, htitle, x, found,
          hx, hproj, rfl, ?_⟩)
        rw [hplain]
        exact fun heq => nomatch heq
    · obtain ⟨⟨x, service⟩, hrow, hoffered⟩ := mem_availableLogicalIds.mp havl
      obtain ⟨hx, hproj⟩ := mem_projectServices.mp hrow
      obtain ⟨found, admission, hf, hmproj, hclear, hready, hadm, hof, hadmissible,
        hsrv⟩ := (offeredModel_eq_some hx hproj).mp hoffered
      obtain rfl := Option.some.inj (hf.symm.trans (mem_projectModels.mp hmodel).1)
      refine .logical modelId found hf (Prod.ext hmproj rfl) hready ?_ x service hsrv
        admission hadm hof hadmissible
      intro y other hy hyproj hyname
      by_contra hoth
      exact hclear ((mem_ambiguousNames hnamed).mpr ⟨modelId, found, hf,
        Prod.ext hmproj rfl, y, other, hy, hyproj, hyname, hoth⟩)
  · rintro (⟨x, service, hsrv, hname, hplain, hfree⟩ | ⟨modelId, model, hmodel, htitle, hready,
      hown, x, service, hsrv, admission, hadm, hof, hadmissible⟩)
    · refine ⟨⟨service.name, service.createdAt⟩, .inl ⟨(x, service), ⟨?_, ?_, ?_, ?_, ?_⟩, rfl⟩,
        hname⟩
      · exact mem_projectServices.mpr ⟨hsrv.row, hsrv.project⟩
      · exact Option.map_eq_none_iff.mpr hplain
      · intro hamb
        obtain ⟨modelId, model, hmodel, htitle, -⟩ := (mem_ambiguousNames hnamed).mp hamb
        exact hfree modelId model hmodel (htitle.trans (Prod.ext rfl hname))
      · exact hsrv.wanted
      · exact mem_routableServiceIds.mpr ⟨service, hsrv.row, hsrv.project, hsrv.endpoint⟩
    · obtain ⟨hmproj, hmname⟩ := Prod.mk.inj htitle
      refine ⟨⟨model.publicName, model.createdAt⟩, .inr ⟨(modelId, model), ⟨?_, ?_⟩, rfl⟩, hmname⟩
      · exact mem_projectModels.mpr ⟨hmodel, hmproj⟩
      · refine mem_availableLogicalIds.mpr ⟨(x, service),
          mem_projectServices.mpr ⟨hsrv.row, hsrv.project⟩, ?_⟩
        refine (offeredModel_eq_some hsrv.row hsrv.project).mpr ⟨model, admission, hmodel,
          hmproj, fun hamb => ?_, hready, hadm, hof, hadmissible, hsrv⟩
        obtain ⟨_, _, hoth, hotitle, y, owner, hy, hyproj, hyname, hforn⟩ :=
          (mem_ambiguousNames hnamed).mp hamb
        obtain ⟨rfl, -⟩ := hnamed.model_unique hoth hmodel
          (hotitle.trans (Prod.ext hmproj.symm rfl))
        exact hforn (hown y owner hy hyproj (hyname.trans hmname))

/-! ## The second loop -/

/-- What the loop writes before it finds an endpoint: it closes circuits that do not
    block any more. -/
structure OnlyCircuits (now : Time) (p : Uuid) (db db' : Db) : Prop where
  services : db'.modelServices = db.modelServices
  replicas : db'.serviceReplicas = db.serviceReplicas
  models : db'.catalog.logicalModels = db.catalog.logicalModels
  blocked : ∀ service, Blocked now p db' service ↔ Blocked now p db service

theorem OnlyCircuits.refl (now : Time) (p : Uuid) (db : Db) : OnlyCircuits now p db db :=
  ⟨rfl, rfl, rfl, fun _ => .rfl⟩

/-- A request passes a circuit that does not block. -/
theorem passCircuit_spec (now : Time) (p : Uuid) (service : ModelService) (db : Db) :
    ∃ b mid, passCircuit now p service db = .ok b mid ∧ (b = true ↔ ¬ Blocked now p db service)
      ∧ OnlyCircuits now p db mid := by
  cases hadm : service.admission with
  | none =>
    refine ⟨true, db, by simp only [passCircuit, hadm]; rfl, ?_, .refl now p db⟩
    refine iff_of_true rfl ?_
    rintro ⟨_, hsome, -⟩
    rw [hadm] at hsome
    cases hsome
  | some admission =>
    have hblkd : Blocked now p db service ↔ ∃ circuit ∈ db.catalog.vendorCircuits.get?
        (p, admission.logicalModelId, admission.selectedVendor), circuit.Blocks now := by
      rw [Blocked, hadm]
      simp
    rw [hblkd]
    cases hcirc : db.catalog.vendorCircuits.get?
        (p, admission.logicalModelId, admission.selectedVendor) with
    | none =>
      refine ⟨true, db, by simp only [passCircuit, hadm, bind_get, hcirc]; rfl, ?_,
        .refl now p db⟩
      simp
    | some circuit =>
      by_cases hopn : circuit.state = .opened
      · by_cases hblk : circuit.Blocks now
        · refine ⟨false, db, ?_, ?_, .refl now p db⟩
          · simp only [passCircuit, hadm, bind_get, hcirc, hopn, hblk]
            rfl
          · simp [hblk]
        · refine ⟨true, { db with
              catalog := { db.catalog with
                vendorCircuits := db.catalog.vendorCircuits.put
                  (p, admission.logicalModelId, admission.selectedVendor)
                  (circuit.reset now) } }, ?_, ?_, rfl, rfl, rfl, fun other => ?_⟩
          · simp only [passCircuit, hadm, bind_get, hcirc, hopn, hblk]
            rfl
          · simp [hblk]
          · -- neither the circuit that was closed nor what it became blocks
            refine exists_congr fun a => and_congr_right fun _ => ?_
            by_cases hkey : (p, a.logicalModelId, a.selectedVendor)
                = (p, admission.logicalModelId, admission.selectedVendor)
            · rw [hkey, hcirc, get?_put_self]
              refine iff_of_false ?_ ?_
              · rintro ⟨_, hreset, hst, -⟩
                cases hreset
                cases hst
              · rintro ⟨_, heq, hblk'⟩
                cases heq
                exact hblk hblk'
            · rw [get?_put_ne _ _ hkey]
      · refine ⟨true, db, ?_, ?_, .refl now p db⟩
        · simp only [passCircuit, hadm, bind_get, hcirc]
          rw [if_pos hopn]
          rfl
        · refine iff_of_true rfl ?_
          rintro ⟨_, heq, hst, -⟩
          cases heq
          exact hopn hst

theorem selectable_eq_some {found : ModelService} :
    selectable db x p = some found ↔ db.modelServices.get? x = some found
      ∧ found.projectId = p ∧ found.desiredReplicas ≠ 0 := by
  rw [selectable, Option.filter_eq_some_iff, decide_eq_true_iff]

/-- The candidate ends the loop. -/
def Takes (now : Time) (p : Uuid) (db : Db) (candidate : Uuid × ModelService) : Prop :=
  ¬ Blocked now p db candidate.2 ∧ ∃ found, selectable db candidate.1 p = some found
    ∧ HasEndpoint db candidate.1 found

theorem OnlyCircuits.takes {db' : Db} (h : OnlyCircuits now p db db')
    (candidate : Uuid × ModelService) : Takes now p db' candidate ↔ Takes now p db candidate := by
  rw [Takes, Takes, h.blocked, selectable, selectable, h.services]
  simp only [HasEndpoint, healthyEndpoints, h.replicas]

theorem advanceRoutingCursor_succeeds {steps : ℤ} (hsteps : 1 ≤ steps ∧ steps ≤ maxRoutingCursor)
    (hmodel : db.catalog.logicalModels.get? x = some model) :
    ∃ db', advanceRoutingCursor x steps db = .ok () db' := by
  have hexpect : (expect (db.catalog.logicalModels.get? x) (Err.runtimeError
      "locked logical model disappeared while advancing routing cursor") : Txn LogicalModel) db
        = .ok model db := expect_ok.mpr ⟨hmodel, rfl⟩
  rw [advanceRoutingCursor, bind_of_ok (raiseIf_neg (not_not.mpr hsteps) db), bind_get,
    bind_of_ok hexpect]
  exact ⟨_, rfl⟩

theorem advanceBalanced_succeeds (policy : CandidatePolicy) {model : Option (Uuid × LogicalModel)}
    {steps : ℤ} (hsteps : 1 ≤ steps ∧ steps ≤ maxRoutingCursor)
    (hmodel : ∀ row ∈ model, ∃ found, db.catalog.logicalModels.get? row.1 = some found) :
    ∃ db', advanceBalanced policy model steps db = .ok () db' := by
  cases model with
  | none => exact ⟨db, rfl⟩
  | some row =>
    obtain ⟨_, hf⟩ := hmodel row rfl
    rw [advanceBalanced]
    split_ifs
    · exact advanceRoutingCursor_succeeds hsteps hf
    · exact ⟨db, rfl⟩

/-- **THE LOOP** gives a route if and only if some candidate ends it. -/
theorem routeAmong_spec (now : Time) (p : Uuid) (policy : CandidatePolicy)
    {model : Option (Uuid × LogicalModel)} :
    ∀ {offset : ℕ} (skips : List GatewayPreflightSkip) {db : Db},
      (∀ row ∈ model, ∃ found, db.catalog.logicalModels.get? row.1 = some found) →
      ((offset + candidates.length : ℕ) : ℤ) ≤ maxRoutingCursor →
      ∃ route db', routeAmong now p [] policy model offset skips candidates db = .ok route db'
        ∧ (route.isSome ↔ ∃ candidate ∈ candidates, Takes now p db candidate) := by
  induction candidates with
  | nil =>
    intro _ _ db _ _
    exact ⟨none, db, rfl, by simp⟩
  | cons candidate rest ih =>
    intro offset skips db hmodel hlen
    have hr : ((offset + 1 + rest.length : ℕ) : ℤ) ≤ maxRoutingCursor := by
      rw [length_cons] at hlen
      refine le_trans (le_of_eq ?_) hlen
      congr 1
      omega
    obtain ⟨b, mid, hpass, hb, honly⟩ := passCircuit_spec now p candidate.2 db
    have hmid : ∀ row ∈ model, ∃ found, mid.catalog.logicalModels.get? row.1 = some found := by
      rw [honly.models]
      exact hmodel
    -- a candidate that does not end the loop leaves the question to the others
    have hskip : ∀ {reason : SkipReason}, ¬ Takes now p db candidate → ∃ route db',
        routeAmong now p [] policy model (offset + 1) (skips ++ [preflightSkip candidate reason])
          rest mid = .ok route db'
        ∧ (route.isSome ↔ ∃ c ∈ candidate :: rest, Takes now p db c) := by
      intro _ hnot
      obtain ⟨route, db', hroute, hsome⟩ := ih _ hmid hr
      refine ⟨route, db', hroute, hsome.trans ?_⟩
      rw [exists_mem_cons_iff, or_iff_right hnot]
      exact exists_congr fun c => and_congr_right fun _ => honly.takes c
    rw [routeAmong, if_neg (by simp), bind_of_ok hpass]
    cases b with
    | false =>
      rw [if_neg Bool.false_ne_true]
      refine hskip fun htakes => ?_
      exact Bool.false_ne_true (hb.mpr htakes.1)
    | true =>
      rw [if_pos rfl]
      rcases chooseHealthyEndpoint_cases now candidate.1 p mid with ⟨hn, hempty⟩ | ⟨found,
        selection, hf, hmem, hsel⟩
      · rw [bind_of_ok hn]
        refine hskip fun htakes => ?_
        obtain ⟨-, found, hf, hend⟩ := (honly.takes candidate).mpr htakes
        exact hend (hempty found hf)
      · rw [bind_of_ok hsel]
        have hsteps : 1 ≤ (offset : ℤ) + 1 ∧ (offset : ℤ) + 1 ≤ maxRoutingCursor := by
          push_cast at hr
          omega
        have hknown : ∀ row ∈ model, ∃ model', (mid.selected now candidate.1 found
            selection).catalog.logicalModels.get? row.1 = some model' := hmid
        obtain ⟨last, hadv⟩ := advanceBalanced_succeeds policy hsteps hknown
        dsimp only
        rw [bind_of_ok hadv]
        refine ⟨_, last, rfl, iff_of_true rfl ⟨candidate, mem_cons_self, ?_⟩⟩
        exact (honly.takes candidate).mp ⟨fun hblkd => hb.mp rfl ((honly.blocked _).mp hblkd),
          found, hf, ne_nil_of_mem hmem⟩

/-! ## The candidates -/

theorem preflightReason_eq_none : preflightReason db policy (x, service) = none
      ↔ ∀ admission ∈ service.admission, Admissible db policy admission := by
  rw [preflightReason]
  cases service.admission with
  | none => simp
  | some admission =>
    simp only [Option.mem_some_iff, forall_eq', Admissible]
    by_cases hven : admission.selectedVendor ∈ policy.allowedVendors
    · rw [if_neg (not_not.mpr hven)]
      cases hvar : db.catalog.modelVariants.get? admission.modelVariantId with
      | none => simp
      | some variant =>
        rw [Option.filter_some]
        by_cases hof : variant.logicalModelId = admission.logicalModelId
        · rw [if_pos (decide_eq_true hof)]
          dsimp only
          by_cases hready : variant.status = .ready
          · rw [if_neg (not_not.mpr hready)]
            by_cases heq : admission.selectedVendor = variant.vendor
                ∧ admission.selectedKind = variant.kind
            · rw [if_neg (by tauto)]
              exact iff_of_true rfl ⟨hven, variant, rfl, hof, hready, heq⟩
            · rw [if_pos (by tauto)]
              refine iff_of_false (by simp) ?_
              rintro ⟨-, _, hf, -, -, heq'⟩
              cases hf
              exact heq heq'
          · rw [if_pos hready]
            refine iff_of_false (by simp) ?_
            rintro ⟨-, _, hf, -, hready', -⟩
            cases hf
            exact hready hready'
        · rw [if_neg (by simp [hof])]
          refine iff_of_false (by simp) ?_
          rintro ⟨-, _, hf, hof', -⟩
          cases hf
          exact hof hof'
    · rw [if_pos hven]
      simp [hven]

theorem mem_rotated {model : Option (Uuid × LogicalModel)}
    {eligible : List (Uuid × ModelService)} :
    row ∈ rotated policy model eligible ↔ row ∈ eligible := by
  cases model with
  | none => exact .rfl
  | some =>
    rw [rotated]
    split_ifs
    · rw [mem_append, or_comm, ← mem_append, take_append_drop]
    · exact .rfl

theorem length_rotated {model : Option (Uuid × LogicalModel)}
    {eligible : List (Uuid × ModelService)} :
    (rotated policy model eligible).length = eligible.length := by
  cases model with
  | none => rfl
  | some =>
    rw [rotated]
    split_ifs
    · rw [length_append, Nat.add_comm, ← length_append, take_append_drop]
    · rfl

theorem mem_modelServicesOf :
    row ∈ modelServicesOf db p modelId ↔ db.modelServices.get? row.1 = some row.2
      ∧ row.2.projectId = p ∧ row.2.logicalModelId = some modelId :=
  mem_select.trans (and_congr_right fun _ => decide_eq_true_iff)

theorem mem_policyCandidates :
    row ∈ policyCandidates db p modelId policy ↔ db.modelServices.get? row.1 = some row.2
      ∧ row.2.projectId = p ∧ row.2.logicalModelId = some modelId
      ∧ 0 < row.2.desiredReplicas := by
  rw [policyCandidates, mem_orderBy, mem_filter, decide_eq_true_iff, mem_modelServicesOf]
  tauto

/-- No more candidates than services. -/
theorem length_policyCandidates :
    (policyCandidates db p modelId policy).length ≤ db.terms.rows.length := by
  rw [policyCandidates, length_orderBy, Db.terms_length]
  exact (length_filter_le _ _).trans (length_filter_le _ _)

/-- A service that can take a request, in the terms of the loop. -/
theorem takes_iff_serves (hx : db.modelServices.get? x = some service)
    (hproj : service.projectId = p) (hnamed : db.Named) :
    Takes now p db (x, service) ↔ Serves now p db x service := by
  constructor
  · rintro ⟨hpass, _, hf, hend⟩
    obtain ⟨hget, -, hdes⟩ := selectable_eq_some.mp hf
    obtain rfl := Option.mem_unique hget hx
    exact ⟨hx, hproj, lt_of_le_of_ne (hnamed.desired_nonneg hx) hdes.symm, hend, hpass⟩
  · intro h
    exact ⟨h.passes, service, selectable_eq_some.mpr ⟨hx, hproj, h.wanted.ne'⟩, h.endpoint⟩

/-! ## Resolution -/

theorem publicLogicalModel_some {row : Uuid × LogicalModel}
    (h : publicLogicalModel db p name = some row) :
    db.catalog.logicalModels.get? row.1 = some row.2 ∧ row.2.title = (p, name) :=
  mem_publicModels.mp (mem_orderBy.mp (mem_of_head? h))

theorem publicLogicalModel_none (h : publicLogicalModel db p name = none)
    (hmodel : db.catalog.logicalModels.get? modelId = some model) : model.title ≠ (p, name) := by
  intro htitle
  have hmem : (modelId, model) ∈ orderBy (fun row => toLex (row.2.createdAt, row.1))
      (publicModels db p name) := mem_orderBy.mpr (mem_publicModels.mpr ⟨hmodel, htitle⟩)
  rw [head?_eq_none_iff.mp h] at hmem
  cases hmem

theorem getServiceByName_some (h : getServiceByName db p name = some row) :
    db.modelServices.get? row.1 = some row.2 ∧ row.2.projectId = p ∧ row.2.name = name := by
  obtain ⟨hget, hboth⟩ := mem_select.mp (mem_of_head? h)
  exact ⟨hget, of_decide_eq_true hboth⟩

theorem getServiceByName_none (h : getServiceByName db p name = none)
    (hx : db.modelServices.get? x = some service) (hproj : service.projectId = p) :
    service.name ≠ name := by
  intro hname
  have hmem : (x, service) ∈ db.modelServices.select (fun _ service =>
      service.projectId = p ∧ service.name = name) :=
    mem_select.mpr ⟨hx, decide_eq_true ⟨hproj, hname⟩⟩
  rw [head?_eq_none_iff.mp h] at hmem
  cases hmem

theorem modelAnchor_some (h : modelAnchor db p modelId model = some row) :
    db.modelServices.get? row.1 = some row.2 ∧ row.2.projectId = p
      ∧ row.2.logicalModelId = some modelId :=
  mem_modelServicesOf.mp (mem_orderBy.mp (mem_of_head? h))

theorem modelAnchor_none (h : modelAnchor db p modelId model = none)
    (hx : db.modelServices.get? x = some service) (hproj : service.projectId = p) :
    service.logicalModelId ≠ some modelId := by
  intro hof
  have hmem : (x, service) ∈ orderBy (fun row : Uuid × ModelService =>
      toLex (if row.2.name = model.name then 0 else 1, toLex (row.2.createdAt, row.1)))
      (modelServicesOf db p modelId) :=
    mem_orderBy.mpr (mem_modelServicesOf.mpr ⟨hx, hproj, hof⟩)
  rw [head?_eq_none_iff.mp h] at hmem
  cases hmem

/-! ## The choice -/

/-- A request for the name gets a route. -/
def Routed (now : Time) (p : Uuid) (name : String) (db : Db) : Prop :=
  ∃ anchor route db', chooseRoute now p name [] db = .ok (anchor, some route) db'

theorem not_routed_of_unserved {anchor : Option Uuid}
    (h : resolvePublicModel p name db = .ok (.unserved anchor) db) : ¬ Routed now p name db := by
  rintro ⟨_, _, _, hroute⟩
  rw [chooseRoute, bind_of_ok h] at hroute
  cases hroute

/-- A name that is resolved gets a route if some candidate passes both loops. -/
theorem routed_iff_of_served {anchor : Uuid × ModelService}
    {model : Option (Uuid × LogicalModel)}
    (h : resolvePublicModel p name db = .ok (.served anchor model) db)
    (hcands : routeCandidates db p anchor model = some (policy, candidates))
    (hmodel : ∀ row ∈ model, ∃ found, db.catalog.logicalModels.get? row.1 = some found)
    (hlen : (candidates.length : ℤ) ≤ maxRoutingCursor) :
    Routed now p name db ↔ ∃ row ∈ candidates, preflightReason db policy row = none
      ∧ Takes now p db row := by
  have hfits : ((0 + (rotated policy model (preflight db policy candidates).2).length : ℕ) : ℤ)
      ≤ maxRoutingCursor := by
    rw [Nat.zero_add, length_rotated]
    refine le_trans ?_ hlen
    exact_mod_cast length_filter_le _ _
  obtain ⟨route, db', hroute, hsome⟩ := routeAmong_spec now p policy
    (preflight db policy candidates).1 hmodel hfits
  have hchoose : chooseRoute now p name [] db = .ok (some anchor.1, route) db' := by
    rw [chooseRoute, bind_of_ok h]
    dsimp only
    rw [bind_get]
    simp only [hcands]
    rw [bind_of_ok hroute]
    rfl
  have hrouted : Routed now p name db ↔ route.isSome := by
    constructor
    · rintro ⟨_, _, _, hf⟩
      rw [hchoose] at hf
      cases hf
      rfl
    · intro his
      obtain ⟨found, rfl⟩ := Option.isSome_iff_exists.mp his
      exact ⟨_, found, db', hchoose⟩
  rw [hrouted, hsome]
  simp only [mem_rotated, preflight, mem_filter, decide_eq_true_iff, and_assoc]

/-- The name of a model that the gateway knows: a public name, or the name of a service
    without a logical model. -/
def IsModelName (db : Db) (p : Uuid) (name : String) : Prop :=
  (∃ modelId model, db.catalog.logicalModels.get? modelId = some model
      ∧ model.title = (p, name))
    ∨ ∃ x service, db.modelServices.get? x = some service ∧ service.projectId = p
      ∧ service.name = name ∧ service.admission = none

/-- A public name, once its model is ready and no service of another model has it. -/
theorem routed_iff_of_model (hnamed : db.Named) {anchor : Uuid × ModelService}
    (hres : resolvePublicModel p name db = .ok (.served anchor (some (modelId, model))) db)
    (hmodel : db.catalog.logicalModels.get? modelId = some model)
    (hanch : anchor.2.logicalModelId = some modelId) :
    Routed now p name db ↔ ∃ x service admission, Serves now p db x service
      ∧ service.admission = some admission ∧ admission.logicalModelId = modelId
      ∧ Admissible db (candidatePolicy (some model.routingPolicy)) admission := by
  have hcands : routeCandidates db p anchor (some (modelId, model))
      = some (candidatePolicy (some model.routingPolicy), policyCandidates db p modelId
          (candidatePolicy (some model.routingPolicy))) := by
    simp only [routeCandidates, hanch]
    rw [if_neg (not_not.mpr rfl)]
  rw [routed_iff_of_served hres hcands]
  · constructor
    · rintro ⟨⟨x, service⟩, hrow, hpf, htakes⟩
      obtain ⟨hx, hproj, hof, -⟩ := mem_policyCandidates.mp hrow
      obtain ⟨admission, hadm, hmodelId⟩ := Option.map_eq_some_iff.mp hof
      exact ⟨x, service, admission, (takes_iff_serves hx hproj hnamed).mp htakes, hadm,
        hmodelId, preflightReason_eq_none.mp hpf admission hadm⟩
    · rintro ⟨x, service, admission, hsrv, hadm, hof, hadmissible⟩
      refine ⟨(x, service), mem_policyCandidates.mpr ⟨hsrv.row, hsrv.project, ?_,
        hsrv.wanted⟩, preflightReason_eq_none.mpr fun found hf => ?_,
        (takes_iff_serves hsrv.row hsrv.project hnamed).mpr hsrv⟩
      · exact Option.map_eq_some_iff.mpr ⟨admission, hadm, hof⟩
      · obtain rfl := Option.mem_unique hf hadm
        exact hadmissible
  · rintro _ hrow
    obtain rfl := Option.some.inj hrow
    exact ⟨model, hmodel⟩
  · exact le_trans (by exact_mod_cast length_policyCandidates) hnamed.capacity

/-- A service that has the public name of a model belongs to it, as the lookup sees it. -/
theorem owned_iff (hnamed : db.Named) :
    (∀ row ∈ getServiceByName db p name, row.2.logicalModelId = some modelId)
      ↔ ∀ y other, db.modelServices.get? y = some other → other.projectId = p →
        other.name = name → other.logicalModelId = some modelId := by
  constructor
  · intro h _ _ hy hproj hname
    cases hanch : getServiceByName db p name with
    | none => exact absurd hname (getServiceByName_none hanch hy hproj)
    | some row =>
      obtain ⟨hget, hrproject, hrname⟩ := getServiceByName_some hanch
      obtain ⟨-, rfl⟩ := hnamed.service_unique hget hy (hrproject.trans hproj.symm)
        (hrname.trans hname.symm)
      exact h row hanch
  · intro h row hrow
    obtain ⟨hget, hproj, hname⟩ := getServiceByName_some hrow
    exact h row.1 row.2 hget hproj hname

/-- What a public name is resolved to. -/
theorem resolvePublicModel_public (hpub : publicLogicalModel db p name = some (modelId, model)) :
    resolvePublicModel p name db
      = if ∃ row ∈ getServiceByName db p name, row.2.logicalModelId ≠ some modelId then
          .error (.gatewayModelNameConflict name) db
        else if model.status ≠ .ready then
          .ok (.unserved ((getServiceByName db p name).map Prod.fst)) db
        else match (getServiceByName db p name).or (modelAnchor db p modelId model) with
          | none => .ok (.unserved none) db
          | some anchor => .ok (.served anchor (some (modelId, model))) db := by
  rw [resolvePublicModel, bind_get]
  simp only [hpub]
  by_cases hconf : ∃ row ∈ getServiceByName db p name, row.2.logicalModelId ≠ some modelId
  · rw [if_pos hconf]
    exact bind_of_error (raiseIf_error.mpr ⟨hconf, rfl, rfl⟩)
  · rw [if_neg hconf, bind_of_ok (raiseIf_neg hconf db)]
    split_ifs
    · rfl
    · cases (getServiceByName db p name).or (modelAnchor db p modelId model) <;> rfl

/-- The choice for a public name. -/
theorem routed_iff_of_public (hnamed : db.Named)
    (hpub : publicLogicalModel db p name = some (modelId, model)) :
    Routed now p name db ↔ model.status = .ready
      ∧ (∀ y other, db.modelServices.get? y = some other → other.projectId = p →
        other.name = name → other.logicalModelId = some modelId)
      ∧ ∃ x service admission, Serves now p db x service
        ∧ service.admission = some admission ∧ admission.logicalModelId = modelId
        ∧ Admissible db (candidatePolicy (some model.routingPolicy)) admission := by
  have hres := resolvePublicModel_public hpub
  obtain ⟨hmodel, -⟩ := publicLogicalModel_some hpub
  rw [← owned_iff hnamed]
  split_ifs at hres with hconf hready
  · refine iff_of_false ?_ ?_
    · rintro ⟨_, _, _, hroute⟩
      rw [chooseRoute, bind_of_error hres] at hroute
      cases hroute
    · rintro ⟨-, hown, -⟩
      obtain ⟨row, hrow, hoth⟩ := hconf
      exact hoth (hown row hrow)
  · exact iff_of_false (not_routed_of_unserved hres) fun h => hready h.1
  · have hown : ∀ row ∈ getServiceByName db p name, row.2.logicalModelId = some modelId :=
      fun row hrow => by_contra fun hoth => hconf ⟨row, hrow, hoth⟩
    rw [and_iff_right (not_not.mp hready), and_iff_right hown]
    cases hanch : (getServiceByName db p name).or (modelAnchor db p modelId model) with
    | none =>
      rw [hanch] at hres
      refine iff_of_false (not_routed_of_unserved hres) ?_
      rintro ⟨_, _, admission, hsrv, hadm, hof, -⟩
      refine modelAnchor_none (Option.or_eq_none_iff.mp hanch).2 hsrv.row hsrv.project ?_
      exact Option.map_eq_some_iff.mpr ⟨admission, hadm, hof⟩
    | some anchor =>
      rw [hanch] at hres
      refine routed_iff_of_model hnamed hres hmodel ?_
      rcases Option.or_eq_some_iff.mp hanch with hnamesake | ⟨-, hfirst⟩
      · exact hown anchor hnamesake
      · exact (modelAnchor_some hfirst).2.2

/-- The choice for a service without a logical model. -/
theorem routed_iff_of_plain (hnamed : db.Named) (hpub : publicLogicalModel db p name = none)
    (hx : db.modelServices.get? x = some service) (hproj : service.projectId = p)
    (hname : service.name = name) (hplain : service.admission = none) :
    Routed now p name db ↔ Serves now p db x service := by
  have hanch : getServiceByName db p name = some (x, service) := by
    cases hf : getServiceByName db p name with
    | none => exact absurd hname (getServiceByName_none hf hx hproj)
    | some =>
      obtain ⟨hget, hrproject, hrname⟩ := getServiceByName_some hf
      obtain ⟨hid, hrow⟩ := hnamed.service_unique hget hx (hrproject.trans hproj.symm)
        (hrname.trans hname.symm)
      exact congrArg some (Prod.ext hid hrow)
  have hmodelId : service.logicalModelId = none := by
    rw [ModelService.logicalModelId, hplain]
    rfl
  have hres : resolvePublicModel p name db = .ok (.served (x, service) none) db := by
    rw [resolvePublicModel, bind_get]
    simp only [hpub, hanch, hmodelId]
    rfl
  have hcands : routeCandidates db p (x, service) none
      = some (candidatePolicy none, [(x, service)]) := by
    simp only [routeCandidates, hmodelId]
  have hone : (([(x, service)].length : ℕ) : ℤ) ≤ maxRoutingCursor := by
    rw [length_singleton]
    decide
  rw [routed_iff_of_served hres hcands (fun _ h => nomatch h) hone]
  have hpf : preflightReason db (candidatePolicy none) (x, service) = none := by
    refine preflightReason_eq_none.mpr fun admission hadm => ?_
    rw [hplain] at hadm
    cases hadm
  simp only [mem_singleton, exists_eq_left, hpf, true_and]
  exact takes_iff_serves hx hproj hnamed

/-- **THE CHOICE** finds a route for the names that can be routed. -/
theorem routed_iff (hnamed : db.Named) (hname : IsModelName db p name) :
    Routed now p name db ↔ CanBeRouted now p db name := by
  cases hpub : publicLogicalModel db p name with
  | some row =>
    obtain ⟨modelId, model⟩ := row
    obtain ⟨hmodel, htitle⟩ := publicLogicalModel_some hpub
    rw [routed_iff_of_public hnamed hpub]
    constructor
    · rintro ⟨hready, hown, x, service, admission, hsrv, hadm, hof, hadmissible⟩
      exact .logical modelId model hmodel htitle hready hown x service hsrv admission
        hadm hof hadmissible
    · rintro (⟨x, service, hsrv, _, _, hfree⟩ | ⟨_, _, hoth, hotitle,
        hready, hown, x, service, hsrv, admission, hadm, hof, hadmissible⟩)
      · exact absurd htitle (hfree modelId model hmodel)
      · obtain ⟨rfl, rfl⟩ := hnamed.model_unique hoth hmodel (hotitle.trans htitle.symm)
        exact ⟨hready, hown, x, service, admission, hsrv, hadm, hof, hadmissible⟩
  | none =>
    rcases hname with ⟨modelId, model, hmodel, htitle⟩ | ⟨x, service, hx, hproj, hname, hplain⟩
    · exact absurd htitle (publicLogicalModel_none hpub hmodel)
    rw [routed_iff_of_plain hnamed hpub hx hproj hname hplain]
    constructor
    · intro hsrv
      exact .plain x service hsrv hname hplain fun _ _ => publicLogicalModel_none hpub
    · rintro (⟨_, _, hsrv, hname', -, -⟩ | ⟨_, _, hmodel, htitle, -⟩)
      · obtain ⟨rfl, rfl⟩ := hnamed.service_unique hsrv.row hx
          (hsrv.project.trans hproj.symm) (hname'.trans hname.symm)
        exact hsrv
      · exact absurd htitle (publicLogicalModel_none hpub hmodel)

end Db

/-- **WHAT IS LISTED IS WHAT IS ROUTED**: in every state the calls can reach, a name of a
    model is in the list of a project if and only if a request for it gets a route now,
    and for a listed name no conflict of names is raised. -/
theorem model_list_exact {s : ScalingState} (h : Reach gateway (fun _ _ => True) s)
    (now : Time) (p : Uuid) (name : String) (hname : IsModelName s.db p name) :
    (name ∈ (listAvailableModels now p s.db).map (·.modelId)
        ↔ ∃ anchor route after, chooseRoute now p name [] s.db = .ok (anchor, some route) after)
      ∧ (name ∈ (listAvailableModels now p s.db).map (·.modelId) →
        ∀ conflict, raised (chooseRoute now p name []) s.db
          ≠ some (.gatewayModelNameConflict conflict)) := by
  have hnamed := gateway_named h
  have hlist : name ∈ (listAvailableModels now p s.db).map (·.modelId)
      ↔ Routed now p name s.db := (listed_iff hnamed).trans (routed_iff hnamed hname).symm
  refine ⟨hlist, fun hmem conflict hrsd => ?_⟩
  obtain ⟨_, _, _, hroute⟩ := hlist.mp hmem
  obtain ⟨_, herror⟩ := raised_eq_some.mp hrsd
  rw [hroute] at herror
  cases herror

/-! ### A service that is listed and routed -/

/-- The service is created, and its replica bound until 100 and reported healthy. -/
def servedCalls : List GatewayCall :=
  [.services (.createService 10 chatSubmission),
   .services (.serve 11 (.reconcileLocked 30 3 (fun k => 50 + k))),
   .services (.serve 12 (.bindReplicaExecution 50 1 "worker" none 60 100)),
   .services (.serve 13 (.markReplicaRunning smallFence "http://replica:8000" none none)),
   .services (.serve 14 (.recordReplicaHealth smallFence .healthy none 1 none))]

def servedGateway : ScalingState := gateway.run servedCalls emptyScaling

theorem servedGateway_reach : Reach gateway (fun _ _ => True) servedGateway :=
  .run servedCalls (.init ⟨⟨rfl, rfl, rfl, rfl⟩, rfl, rfl⟩)
    (allowed_of_forall servedCalls (fun _ _ _ => trivial) _)

theorem model_list_exact_chat : "chat" ∈ (listAvailableModels 20 7 servedGateway.db).map (·.modelId)
      ∧ ∃ anchor route after,
        chooseRoute 20 7 "chat" [] servedGateway.db = .ok (anchor, some route) after := by
  have hrow : (servedGateway.db.modelServices.get? 3).map (fun service =>
      (service.projectId, service.name, service.admission.isNone)) = some (7, "chat", true) := by
    decide +kernel
  have hlist : "chat" ∈ (listAvailableModels 20 7 servedGateway.db).map (·.modelId) := by
    decide +kernel
  obtain ⟨service, hsvc, hcols⟩ := Option.map_eq_some_iff.mp hrow
  simp only [Prod.mk.injEq, Option.isNone_iff_eq_none] at hcols
  obtain ⟨hproj, hname, hplain⟩ := hcols
  exact ⟨hlist, (model_list_exact servedGateway_reach 20 7 "chat"
    (.inr ⟨3, service, hsvc, hproj, hname, hplain⟩)).1.mp hlist⟩

/-! ## Leases

    Neither query looks at the lease of a replica.  A replica whose lease has run out is
    routed to until a pass of the reaper has taken its endpoint away. -/

/-- The selection is of a replica whose lease has not run out. -/
def LeaseHolds (now : Time) (db : Db) (selection : EndpointSelection) : Prop :=
  ∃ replica, db.serviceReplicas.get? selection.replicaId = some replica
    ∧ ∀ lease ∈ replica.leaseExpiresAt, now ≤ lease

/-- No service has a replica whose lease has run out. -/
def LeasesCurrent (now : Time) (db : Db) : Prop :=
  ∀ k replica service, db.serviceReplicas.get? k = some replica →
    db.modelServices.get? replica.serviceId = some service → ¬ replica.LeaseExpired now

section Leases

variable {now : Time} {p x : Uuid} {db db' : Db}

theorem LeasesCurrent.holds (h : LeasesCurrent now db) {service : ModelService}
    {selection : EndpointSelection} (hsvc : selectable db x p = some service)
    (hmem : selection ∈ healthyEndpoints db x service) : LeaseHolds now db selection := by
  obtain ⟨replica, hrep, hend⟩ := mem_healthyEndpoints hmem
  obtain ⟨-, hrng, -⟩ := endpoint?_eq_some hend
  have hof : replica.serviceId = x :=
    (endpoint?_isSome.mp (Option.isSome_iff_exists.mpr ⟨_, hend⟩)).1
  refine ⟨replica, hrep, fun lease hlease => not_lt.mp fun hout => ?_⟩
  refine h _ replica service hrep ?_ ⟨?_, lease, hlease, hout⟩
  · rw [hof]
    exact (selectable_eq_some.mp hsvc).1
  · rw [hrng]
    decide

/-- A route is to a healthy endpoint of a service. -/
theorem routeAmong_selection {excluded : List AcceleratorVendor}
    {model : Option (Uuid × LogicalModel)} :
    ∀ {offset : ℕ} {skips : List GatewayPreflightSkip} {route : GatewayRoute} {db db' : Db},
      routeAmong now p excluded policy model offset skips candidates db = .ok (some route) db' →
      ∃ x service, selectable db x p = some service
        ∧ route.selection ∈ healthyEndpoints db x service := by
  induction candidates with
  | nil =>
    intro _ _ _ _ _ h
    cases h
  | cons candidate rest ih =>
    intro offset _ route db db' h
    rw [routeAmong] at h
    split_ifs at h
    · exact ih h
    obtain ⟨b, mid, hpass, -, honly⟩ := passCircuit_spec now p candidate.2 db
    -- the services and the replicas are the same once the circuit is passed
    have heq : ∀ {y : Uuid} {service : ModelService} {selection : EndpointSelection},
        selectable mid y p = some service → selection ∈ healthyEndpoints mid y service →
        ∃ x service, selectable db x p = some service
          ∧ selection ∈ healthyEndpoints db x service := by
      intro y service _ hsvc hmem
      rw [selectable, honly.services] at hsvc
      rw [healthyEndpoints, honly.replicas] at hmem
      exact ⟨y, service, hsvc, hmem⟩
    have hr : ∀ {skips' : List GatewayPreflightSkip},
        routeAmong now p excluded policy model (offset + 1) skips' rest mid
          = .ok (some route) db' →
        ∃ x service, selectable db x p = some service
          ∧ route.selection ∈ healthyEndpoints db x service := by
      intro _ hroute
      obtain ⟨_, _, hsvc, hmem⟩ := ih hroute
      exact heq hsvc hmem
    rw [bind_of_ok hpass] at h
    cases b with
    | false => exact hr h
    | true =>
      rw [if_pos rfl] at h
      obtain ⟨selected, _, hsel, h⟩ := bind_ok.mp h
      cases selected with
      | none =>
        rw [chooseHealthyEndpoint_none hsel] at h
        exact hr h
      | some =>
        obtain ⟨_, hsvc, hmem, -⟩ := chooseHealthyEndpoint_some hsel
        obtain ⟨_, _, -, hroute⟩ := bind_ok.mp h
        obtain ⟨hroute, -⟩ := pure_ok.mp hroute
        cases hroute
        exact heq hsvc hmem

theorem chooseRoute_selection {excluded : List AcceleratorVendor} {anchor : Option Uuid}
    {route : GatewayRoute}
    (h : chooseRoute now p name excluded db = .ok (anchor, some route) db') :
    ∃ x service, selectable db x p = some service
      ∧ route.selection ∈ healthyEndpoints db x service := by
  obtain ⟨resolution, _, hres, h⟩ := bind_ok.mp h
  rw [(resolvePublicModel_reads name).of_ok hres] at h
  cases resolution with
  | unserved => cases h
  | served found model =>
    dsimp only at h
    rw [bind_get] at h
    cases hcands : routeCandidates db p found model with
    | none =>
      simp only [hcands, pure_ok] at h
      cases h.1
    | some =>
      simp only [hcands] at h
      obtain ⟨_, _, hroute, hdone⟩ := bind_ok.mp h
      obtain ⟨hpair, -⟩ := pure_ok.mp hdone
      cases hpair
      exact routeAmong_selection hroute

/-! ### A pass of the reaper -/

/-- A replica whose lease is out after the reaper ran was not touched by it. -/
def Reaps (now : Time) (db db' : Db) : Prop :=
  ∀ k replica', db'.serviceReplicas.get? k = some replica' →
    ∃ replica, db.serviceReplicas.get? k = some replica
      ∧ replica'.serviceId = replica.serviceId
      ∧ (replica'.LeaseExpired now → replica' = replica)

theorem Reaps.of_same (h : db'.serviceReplicas = db.serviceReplicas) : Reaps now db db' := by
  intro k replica' hrep
  rw [h] at hrep
  exact ⟨replica', hrep, rfl, fun _ => rfl⟩

theorem Reaps.trans {db'' : Db} (h : Reaps now db db') (h' : Reaps now db' db'') :
    Reaps now db db'' := by
  intro k replica'' hreplica''
  obtain ⟨replica', hrep', hof', heq'⟩ := h' k replica'' hreplica''
  obtain ⟨replica, hrep, hof, heq⟩ := h k replica' hrep'
  refine ⟨replica, hrep, hof'.trans hof, fun hexp => ?_⟩
  have hkept := heq' hexp
  rw [hkept]
  exact heq (hkept ▸ hexp)

theorem not_leaseExpired_expired (replica : ServiceReplica) :
    ¬ (replica.expired now).LeaseExpired now := by
  rintro ⟨-, _, hlease, -⟩
  cases hlease

/-- One replica is fenced. -/
theorem Reaps.expire {k : Uuid} {replica : ServiceReplica}
    (hrep : db.serviceReplicas.get? k = some replica) :
    Reaps now db { db with
      serviceReplicas := db.serviceReplicas.set k (replica.expired now) } := by
  intro j replica' hset
  rcases get?_set_cases hset with ⟨rfl, rfl⟩ | ⟨-, hold⟩
  · exact ⟨replica, hrep, rfl, fun hexp =>
      absurd hexp (not_leaseExpired_expired replica)⟩
  · exact ⟨replica', hold, rfl, fun _ => rfl⟩

/-- The loop over the replicas of a service fences each of them. -/
theorem expireReplicas_reaps {rows : List (Uuid × ServiceReplica)} :
    ∀ {db db' : Db} {u : Unit}, RowsOf db rows → expireReplicas now rows db = .ok u db' →
      Reaps now db db' ∧ ∀ row ∈ rows, ∀ replica',
        db'.serviceReplicas.get? row.1 = some replica' → ¬ replica'.LeaseExpired now := by
  induction rows with
  | nil =>
    intro _ _ _ _ h
    rw [← (pure_ok.mp h).2]
    exact ⟨.of_same rfl, fun _ hrow => nomatch hrow⟩
  | cons first _ ih =>
    obtain ⟨k, replica⟩ := first
    intro db _ _ hrows h
    obtain ⟨_, _, hsave, hr⟩ := bind_ok.mp h
    rw [saveReplica, modify_ok] at hsave
    subst hsave
    have hrep : db.serviceReplicas.get? k = some replica := hrows.row _ mem_cons_self
    obtain ⟨hreaps, hfncd⟩ := ih hrows.tail hr
    refine ⟨(Reaps.expire hrep).trans hreaps, fun row hrow replica' hrep' hexp => ?_⟩
    rcases mem_cons.mp hrow with rfl | hrow
    · obtain ⟨_, hf, -, heq⟩ := hreaps k replica' hrep'
      obtain rfl := Option.some.inj ((get?_set_self hrep _).symm.trans hf)
      rw [heq hexp] at hexp
      exact not_leaseExpired_expired replica hexp
    · exact hfncd row hrow replica' hrep' hexp

/-- The loop over the services. -/
theorem recoverServices_reaps {services : List (Uuid × ModelService)} :
    ∀ {db db' : Db} {counts : ℤ × ℤ}, recoverServices now services db = .ok counts db' →
      Reaps now db db' ∧ ∀ row ∈ services, ∀ k replica',
        db'.serviceReplicas.get? k = some replica' → replica'.serviceId = row.1 →
        ¬ replica'.LeaseExpired now := by
  induction services with
  | nil =>
    intro _ _ _ h
    rw [← (pure_ok.mp h).2]
    exact ⟨.of_same rfl, fun _ hrow => nomatch hrow⟩
  | cons first _ ih =>
    obtain ⟨_, _⟩ := first
    intro db db' _ h
    rw [recoverServices, bind_get, bind_ok] at h
    obtain ⟨_, db₁, hexpire, h⟩ := h
    obtain ⟨_, db₂, href, h⟩ := bind_ok.mp h
    obtain ⟨_, _, hr, h⟩ := bind_ok.mp h
    rw [(pure_ok.mp h).2] at hr
    have hkept : db₂.serviceReplicas = db₁.serviceReplicas :=
      (Keeps.ite (refreshServiceStatus_keeps _ _ _) (.of_reads (.pure _))).of_ok href
    obtain ⟨hfirst, hfncd⟩ := expireReplicas_reaps ((RowsOf.select db _).orderBy _) hexpire
    obtain ⟨hoths, hrecd⟩ := ih hr
    have hlater : Reaps now db₁ db' := (Reaps.of_same hkept).trans hoths
    refine ⟨hfirst.trans hlater, fun row hrow k replica' hrep' hof hexp => ?_⟩
    rcases mem_cons.mp hrow with rfl | hrow
    · -- it would have been out from the start, and so among the replicas of this service
      obtain ⟨_, hmid, -, heq⟩ := hlater k replica' hrep'
      obtain rfl := heq hexp
      obtain ⟨_, hold, -, heq'⟩ := hfirst k replica' hmid
      obtain rfl := heq' hexp
      refine hfncd (k, replica') (mem_orderBy.mpr ?_) replica' hmid hexp
      exact mem_select.mpr ⟨hold, decide_eq_true ⟨hof, hexp⟩⟩
    · exact hrecd row hrow k replica' hrep' hof hexp

/-- **A PASS** that may look at every service leaves no lease that has run out. -/
theorem recoverExpiredLeases_current {limit : ℕ} {result : LeaseRecoveryResult}
    (hlim : db.modelServices.rows.length ≤ limit)
    (h : recoverExpiredLeases now limit [] db = .ok result db') : LeasesCurrent now db' := by
  have htends : Tends db.terms (recoverExpiredLeases now limit []) := .recoverExpiredLeases
  obtain ⟨hterms, -⟩ := htends db result db' h rfl
  rw [recoverExpiredLeases, bind_get] at h
  obtain ⟨_, _, hrec, hdone⟩ := bind_ok.mp h
  rw [(pure_ok.mp hdone).2] at hrec
  obtain ⟨hreaps, hrecd⟩ := recoverServices_reaps hrec
  intro k replica _ hrep hsvc' hexp
  -- the service was there before the pass, and had this replica
  have hknown := Db.terms_of_get? hsvc'
  rw [hterms] at hknown
  obtain ⟨service, hsvc, -⟩ := get?_map_eq_some.mp hknown
  obtain ⟨_, hold, _, heq⟩ := hreaps k replica hrep
  obtain rfl := heq hexp
  refine hrecd (replica.serviceId, service) ?_ k replica hrep rfl hexp
  refine mem_take_of_length (le_trans (length_filter_le _ _) hlim) ?_
  refine mem_select.mpr ⟨hsvc, decide_eq_true ⟨not_mem_nil, ?_⟩⟩
  exact ⟨(k, replica), mem_rows.mpr hold, rfl, hexp⟩

end Leases

/-- **ROUTES WHERE LEASES ARE CURRENT**: if no service has a replica whose lease has run
    out, as after a pass of the reaper at that time that may look at every service, every
    endpoint given out is of a replica with no lease or one that has not run out. -/
theorem route_lease_current (now : Time) {db : Db}
    (hcur : LeasesCurrent now db ∨ ∃ before limit result, before.modelServices.rows.length ≤ limit
      ∧ recoverExpiredLeases now limit [] before = .ok result db) :
    (∀ p name excluded anchor route after,
        chooseRoute now p name excluded db = .ok (anchor, some route) after →
        LeaseHolds now db route.selection)
      ∧ ∀ x p selection after, chooseHealthyEndpoint now x p db = .ok (some selection) after →
        LeaseHolds now db selection := by
  have hlss : LeasesCurrent now db := by
    rcases hcur with hlss | ⟨before, limit, result, hlim, hpass⟩
    · exact hlss
    · exact recoverExpiredLeases_current hlim hpass
  refine ⟨fun p name excluded anchor route after hroute => ?_, fun x p selection after hsel => ?_⟩
  · obtain ⟨_, _, hsvc, hmem⟩ := chooseRoute_selection hroute
    exact hlss.holds hsvc hmem
  · obtain ⟨_, hsvc, hmem, -⟩ := chooseHealthyEndpoint_some hsel
    exact hlss.holds hsvc hmem

theorem route_lease_current_before_expiry : (∃ anchor route after,
        chooseRoute 20 7 "chat" [] servedGateway.db = .ok (anchor, some route) after)
      ∧ ∀ anchor route after,
        chooseRoute 20 7 "chat" [] servedGateway.db = .ok (anchor, some route) after →
        LeaseHolds 20 servedGateway.db route.selection := by
  have hrows : ∀ row ∈ servedGateway.db.serviceReplicas.rows, ¬ row.2.LeaseExpired 20 := by
    decide +kernel
  have hcur : LeasesCurrent 20 servedGateway.db :=
    fun k replica _ hrep _ => hrows (k, replica) (mem_rows.mpr hrep)
  have hroute : (returned (chooseRoute 20 7 "chat" []) servedGateway.db).bind
      (fun result => result.2.map (·.selection.replicaId)) = some 50 := by
    decide +kernel
  obtain ⟨⟨anchor, _⟩, hret, hcho⟩ := Option.bind_eq_some_iff.mp hroute
  obtain ⟨route, rfl, -⟩ := Option.map_eq_some_iff.mp hcho
  obtain ⟨after, hok⟩ := returned_eq_some.mp hret
  exact ⟨⟨anchor, route, after, hok⟩, (route_lease_current 20 (.inl hcur)).1 7 "chat" []⟩

/-- The lease of the replica ran out at 100.  At 200, before the reaper has come by, both
    calls still give its endpoint out. -/
theorem lapsed_lease_routed : ∃ s, Reach gateway (fun _ _ => True) s
      ∧ (s.db.serviceReplicas.get? 50).map (·.leaseExpiresAt) = some (some 100)
      ∧ (returned (chooseRoute 200 7 "chat" []) s.db).bind (fun result =>
          result.2.map (·.selection.replicaId)) = some 50
      ∧ (returned (chooseHealthyEndpoint 200 3 7) s.db).bind (fun selected =>
          selected.map (·.replicaId)) = some 50 := by
  refine ⟨servedGateway, servedGateway_reach, ?_⟩
  decide +kernel

end MiniAiCloud
