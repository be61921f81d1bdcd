import MiniAiCloud.PoolProofs

/-! # Bookings of a pool

    A node has `healthyAt` devices of a resource.  `bookedAt` of them are promised to
    batch reservations that leave the device to the plugin, `gangsAt` to the replicas
    assigned there.  Nothing in the database adds these numbers up.

    The planner does, from two reads: the services first, the reservations later.
    `countPool_spec` says what its answer means in the database of the second read,
    if what happened between the reads only *drifted*. -/

namespace MiniAiCloud

open Transaction OrderedQuery Tally Table List Option DeferredAcceleratorUsage

variable {db db' : Db} {c : ServiceReplicaCommitment} {device : InventoryDeviceSnapshot}
  {node : String} {pool : PoolRequest} {row : (Uuid × GpuDevice) × Worker}
  {runtimeType : Option RuntimeType} {w w' : Worker}

/-! ## The three numbers -/

/-- The resource of a deferred reservation: that of its runtime profile. -/
def profileResource (catalog : RuntimeProfileCatalog) (profile : Option RuntimeProfile) :
    Option String :=
  (profile.bind catalog.loadExact).map (fun found => found.resourceName)

/-- The reservation is a deferred one on the node, for the resource. -/
def ResourceReservation.BooksAt (reservation : ResourceReservation)
    (catalog : RuntimeProfileCatalog) (db : Db) (node resourceName : String) : Prop :=
  reservation.Deferred ∧ reservedNode db reservation = some node
    ∧ profileResource catalog reservation.requestedProfile = some resourceName
  deriving Decidable

/-- The accelerators of the active deferred reservations on a node, for a resource. -/
def bookedAt (catalog : RuntimeProfileCatalog) (db : Db) (node resourceName : String) : ℤ :=
  db.reservations.sum (fun _ reservation =>
    if reservation.BooksAt catalog db node resourceName then reservation.gpuCount else 0)

/-- The gangs of the active replicas assigned to a node, for a resource. -/
def gangsAt (db : Db) (node resourceName : String) : ℤ :=
  db.serviceReplicas.sum (fun _ replica =>
    ((replicaCommitment db replica).map
      (ServiceReplicaCommitment.share node resourceName)).getD 0)

/-- Every healthy device that a worker on Kubernetes reports. -/
def healthyQuery : InventoryQuery where
  vendors := [.nvidia, .huaweiAscend]
  kinds := [.gpu, .npu]
  minimumMemoryMb := 0
  runtimeType := some .kubernetes

/-- The healthy devices of a resource on a node, whatever memory is free on them. -/
def healthyAt (db : Db) (node resourceName : String) : ℤ :=
  (healthyQuery.devices db).countP (fun device => device.nodeName = node
    ∧ device.kubernetesResourceName = some resourceName)

/-- No active replica without a node may come to this one. -/
def NoFloating (db : Db) (node resourceName : String) : Prop :=
  ∀ x replica, db.serviceReplicas.get? x = some replica →
    ∀ c ∈ replicaCommitment db replica, ¬ c.Floating node resourceName

/-! ## The inventory -/

section Inventory

variable {db db' : Db} {query : InventoryQuery}

theorem mem_devices : device ∈ query.devices db ↔ ∃ row ∈ deviceRows db, query.Selects row
      ∧ inventorySnapshot query.runtimeType row = some device := by
  rw [InventoryQuery.devices, mem_filterMap]
  constructor
  · rintro ⟨row, hrow, hsnap⟩
    obtain ⟨hmem, hsels⟩ := mem_filter.mp (mem_orderBy.mp hrow)
    exact ⟨row, hmem, of_decide_eq_true hsels, hsnap⟩
  · rintro ⟨row, hmem, hsels, hsnap⟩
    exact ⟨row, mem_orderBy.mpr (mem_filter.mpr ⟨hmem, decide_eq_true hsels⟩), hsnap⟩

theorem mem_deviceRows : row ∈ deviceRows db ↔ db.gpuDevices.get? row.1.1 = some row.1.2
      ∧ db.workers.get? row.1.2.workerId = some row.2 := by
  obtain ⟨⟨x, device⟩, worker⟩ := row
  simp only [deviceRows, mem_filterMap, map_eq_some_iff, Prod.mk.injEq]
  constructor
  · rintro ⟨⟨_, _⟩, hmem, _, hw, hrow, rfl⟩
    obtain ⟨rfl, rfl⟩ := Prod.mk.inj hrow
    exact ⟨mem_rows.mp hmem, hw⟩
  · rintro ⟨hdev, hwk⟩
    exact ⟨(x, device), mem_rows.mpr hdev, worker, hwk, rfl, rfl⟩

/-- Counting an inventory is counting the rows behind it; their order does not
    matter. -/
theorem countP_devices (p : InventoryDeviceSnapshot → Bool) :
    (query.devices db).countP p = (deviceRows db).countP (fun row => query.Selects row
      ∧ ∃ device ∈ inventorySnapshot query.runtimeType row, p device = true) := by
  rw [InventoryQuery.devices, countP_filterMap, perm_orderBy.countP_eq, countP_filter]
  refine countP_congr ?_
  intro row _
  cases inventorySnapshot query.runtimeType row with
  | none => simp
  | some => simp [and_comm]

/-- The snapshot of a row, for Kubernetes. -/
theorem inventorySnapshot_eq_some (h : inventorySnapshot runtimeType row = some device) :
    inventoryNode runtimeType row.2 row.1.2 = some device.nodeName
      ∧ device.workerId = row.1.2.workerId ∧ device.health = row.1.2.health
      ∧ device.vendor = row.1.2.vendor
      ∧ device.kubernetesResourceName = row.1.2.kubernetesResourceName := by
  rw [inventorySnapshot] at h
  split at h
  · cases h
  · obtain ⟨_, hnode, rfl⟩ := map_eq_some_iff.mp h
    exact ⟨hnode, rfl, rfl, rfl, rfl⟩

/-- The usable devices the planner sees on a node are healthy devices there. -/
theorem usableAt_le_healthyAt (pool : PoolRequest) (worker : WorkerId)
    (node resourceName : String) :
    (usableAt (pool.inventoryQuery.devices db) resourceName (worker, node) : ℤ)
      ≤ healthyAt db node resourceName := by
  rw [usableAt, healthyAt, countP_devices, countP_devices]
  refine Int.ofNat_le.mpr (countP_mono_left ?_)
  intro row _ hrow
  obtain ⟨⟨honl, hover, hcur, hmm, _⟩, device, hsnap, hdev⟩ := of_decide_eq_true hrow
  obtain ⟨hkey, hname, husa⟩ := of_decide_eq_true hdev
  obtain ⟨_, _, hhl, _⟩ := inventorySnapshot_eq_some hsnap
  refine decide_eq_true ⟨⟨honl, hover, hcur, hmm, ?_, ?_, ?_⟩, ?_⟩
  · cases row.1.2.vendor <;> decide
  · cases row.1.2.acceleratorKind <;> decide
  · rw [← hhl]
    exact Or.inr (husa.imp id (fun hinv => ⟨rfl, hinv⟩))
  · exact ⟨device, hsnap, decide_eq_true ⟨congrArg Prod.snd hkey, hname⟩⟩

/-- The columns of a worker that its inventory rests on. -/
structure Site where
  nodeName : String
  status : WorkerStatus
  overcommitted : Bool
  inventoryGeneration : ℤ
  runtimeTypes : List String

def Worker.site (worker : Worker) : Site where
  nodeName := worker.nodeName
  status := worker.status
  overcommitted := worker.overcommitted
  inventoryGeneration := worker.inventoryGeneration
  runtimeTypes := worker.runtimeTypes

/-- The devices and the columns of the workers behind the inventory are the same. -/
def SameInventory (db db' : Db) : Prop :=
  db'.gpuDevices = db.gpuDevices ∧ db'.workers.map Worker.site = db.workers.map Worker.site

theorem SameInventory.site (h : SameInventory db db') (w : WorkerId) :
    (db'.workers.get? w).map Worker.site = (db.workers.get? w).map Worker.site := by
  rw [← get?_map, h.2, get?_map]

theorem SameInventory.symm (h : SameInventory db db') : SameInventory db' db := ⟨h.1.symm, h.2.symm⟩

theorem selects_of_site {row : Uuid × GpuDevice} (h : w'.site = w.site) :
    query.Selects (row, w') ↔ query.Selects (row, w) := by
  obtain ⟨_, hst, hover, hgen, _⟩ := Site.mk.injEq .. ▸ h
  simp only [InventoryQuery.Selects, hst, hover, hgen]

theorem inventoryNode_of_site {device : GpuDevice} (h : w'.site = w.site) :
    inventoryNode runtimeType w' device = inventoryNode runtimeType w device := by
  have hnode : w'.nodeName = w.nodeName := congrArg Site.nodeName h
  rw [inventoryNode, inventoryNode, hnode]

theorem inventorySnapshot_of_site {row : Uuid × GpuDevice} (h : w'.site = w.site) :
    inventorySnapshot runtimeType (row, w') = inventorySnapshot runtimeType (row, w) := by
  have htypes : w'.runtimeTypes = w.runtimeTypes := congrArg Site.runtimeTypes h
  simp only [inventorySnapshot, htypes, inventoryNode_of_site h]

/-- Counting the rows of an inventory by what rests on the sites. -/
theorem SameInventory.countP_deviceRows (h : SameInventory db db')
    {p : (Uuid × GpuDevice) × Worker → Bool}
    (hp : ∀ row w w', w'.site = w.site → p (row, w') = p (row, w)) :
    (deviceRows db').countP p = (deviceRows db).countP p := by
  rw [deviceRows, deviceRows, h.1, countP_filterMap, countP_filterMap]
  refine countP_congr ?_
  intro row _
  have hsite := h.site row.2.workerId
  cases hw' : db'.workers.get? row.2.workerId with
  | none =>
    rw [hw', map_none] at hsite
    rw [map_eq_none_iff.mp hsite.symm]
  | some w' =>
    rw [hw', map_some] at hsite
    obtain ⟨w, hw, hww⟩ := map_eq_some_iff.mp hsite.symm
    rw [hw]
    simp [hp row w w' hww.symm]

theorem SameInventory.healthyAt (h : SameInventory db db') (node resourceName : String) :
    healthyAt db' node resourceName = healthyAt db node resourceName := by
  rw [MiniAiCloud.healthyAt, MiniAiCloud.healthyAt, countP_devices, countP_devices]
  congr 1
  refine h.countP_deviceRows ?_
  intro _ _ _ hsite
  rw [inventorySnapshot_of_site hsite]
  simp only [selects_of_site hsite]

end Inventory

/-! ## What the reads add up to -/

theorem sum_le_sum_filterMap {α β : Type} {l : List α} {g : α → ℤ} {j : α → Option β}
    {f : β → ℤ} (h : ∀ x ∈ l, g x ≤ ((j x).map f).getD 0) :
    (l.map g).sum ≤ ((l.filterMap j).map f).sum := by
  induction l with
  | nil => exact le_refl _
  | cons x _ ih =>
    have hx := h x mem_cons_self
    have hr := ih (fun y hy => h y (mem_cons_of_mem _ hy))
    rw [map_cons, sum_cons]
    cases hj : j x with
    | none =>
      rw [hj, map_none, getD_none] at hx
      rw [filterMap_cons_none hj]
      omega
    | some =>
      rw [hj, map_some, getD_some] at hx
      rw [filterMap_cons_some hj, map_cons, sum_cons]
      omega

theorem sum_filterMap {α β : Type} (l : List α) (j : α → Option β) (f : β → ℤ) :
    ((l.filterMap j).map f).sum = (l.map (fun x => ((j x).map f).getD 0)).sum := by
  induction l with
  | nil => rfl
  | cons x _ ih =>
    rw [map_cons, sum_cons, ← ih]
    cases hj : j x with
    | none => rw [filterMap_cons_none hj, map_none, getD_none, zero_add]
    | some =>
      rw [filterMap_cons_some hj, map_cons, sum_cons, map_some, getD_some]

section Deferred

variable {catalog : RuntimeProfileCatalog} {nodeOwners : List (String × WorkerId)}
  {worker : WorkerId} {node resourceName : String} {vendor : AcceleratorVendor}

/-- Everything the usage holds that may lie in the pool. -/
def DeferredAcceleratorUsage.weight (usage : DeferredAcceleratorUsage) (worker : WorkerId)
    (node : String) (vendor : AcceleratorVendor) (resourceName : String) : ℤ :=
  amount usage.byNodeResource (worker, node, vendor, resourceName)
    + amount usage.unknownByWorkerVendor (worker, vendor)
    + amount usage.unknownByVendorResource (vendor, resourceName)
    + amount usage.unknownByVendor vendor

/-- What a total takes from the node. -/
def DeferredReservationTotal.share (catalog : RuntimeProfileCatalog)
    (node resourceName : String) (total : DeferredReservationTotal) : ℤ :=
  if total.nodeName = node ∧ profileResource catalog total.profile = some resourceName then
    total.acceleratorCount
  else 0

/-- What is counted under a key of the pool covers the share of the node. -/
theorem share_le {total : DeferredReservationTotal} (hnn : 0 ≤ total.acceleratorCount)
    {c : Prop} [Decidable c] (h : total.nodeName = node
      → profileResource catalog total.profile = some resourceName → c) :
    total.share catalog node resourceName ≤ if c then total.acceleratorCount else 0 := by
  rw [DeferredReservationTotal.share]
  split_ifs with hpool hc
  · exact le_refl _
  · exact absurd (h hpool.1 hpool.2) hc
  · exact hnn
  · exact le_refl _

/-- **CLASSIFYING** loses nothing: a total of the pool is counted for its node or among
    the unclear ones. -/
theorem classify_weight (hown : ownerOf nodeOwners node = some worker)
    {usage : DeferredAcceleratorUsage} {total : DeferredReservationTotal}
    (hven : total.vendor = vendor) (hnn : 0 ≤ total.acceleratorCount) :
    usage.weight worker node vendor resourceName + total.share catalog node resourceName
      ≤ (usage.classify catalog nodeOwners total).weight worker node vendor resourceName := by
  have hshare : ∀ (c : Prop) [Decidable c], (total.nodeName = node
      → profileResource catalog total.profile = some resourceName → c) →
      total.share catalog node resourceName ≤ if c then total.acceleratorCount else 0 :=
    fun _ _ => share_le hnn
  have hres : ∀ name, total.resourceName catalog = some name →
      profileResource catalog total.profile = some resourceName → name = resourceName := by
    intro _ hname hpool
    rw [DeferredReservationTotal.resourceName] at hname
    obtain ⟨_, hprof, hname⟩ := bind_eq_some_iff.mp hname
    obtain ⟨_, hf, hname⟩ := bind_eq_some_iff.mp hname
    rw [profileResource, hprof, bind_some, hf] at hpool
    split at hname
    · exact mem_unique hname hpool
    · cases hname
  rw [classify]
  by_cases hstable : (total.workerSessionMatches && isDnsSubdomain total.nodeName) = true
  · simp only [hstable, if_true, true_and]
    cases hcur : ownerOf nodeOwners total.nodeName with
    | none =>
      simp only [if_true]
      have hn := hshare False fun hnode _ => by
        rw [hnode, hown] at hcur
        cases hcur
      rw [if_false] at hn
      omega
    | some owner =>
      simp only [reduceCtorEq, if_false]
      have howner : total.nodeName = node → owner = worker := fun hnode => by
        rw [hnode, hown] at hcur
        exact (some.inj hcur).symm
      cases hname : total.resourceName catalog with
      | none =>
        have := hshare ((owner, total.vendor) = (worker, vendor)) fun hnode _ => by
          rw [howner hnode, hven]
        simp only [weight, amount_add]
        omega
      | some name =>
        have := hshare ((owner, total.nodeName, total.vendor, name)
            = (worker, node, vendor, resourceName)) fun hnode hpool => by
          rw [howner hnode, hven, hnode, hres name hname hpool]
        simp only [weight, amount_add]
        omega
  · simp only [hstable, Bool.false_eq_true, if_false, false_and]
    cases hname : total.resourceName catalog with
    | none =>
      have := hshare (total.vendor = vendor) fun _ _ => hven
      simp only [weight, amount_add]
      omega
    | some name =>
      have := hshare ((total.vendor, name) = (vendor, resourceName)) fun _ hpool => by
        rw [hven, hres name hname hpool]
      simp only [weight, amount_add]
      omega

theorem classify_all_weight (hown : ownerOf nodeOwners node = some worker) :
    ∀ (totals : List DeferredReservationTotal) (usage : DeferredAcceleratorUsage),
      (∀ total ∈ totals, total.vendor = vendor ∧ 0 ≤ total.acceleratorCount) →
      usage.weight worker node vendor resourceName
          + (totals.map (DeferredReservationTotal.share catalog node resourceName)).sum
        ≤ (totals.foldl (classify catalog nodeOwners) usage).weight
          worker node vendor resourceName := by
  intro totals
  induction totals with
  | nil =>
    intro _ _
    simp
  | cons total _ ih =>
    intro usage htotals
    obtain ⟨hven, hnn⟩ := htotals total mem_cons_self
    have hfirst : usage.weight worker node vendor resourceName
          + total.share catalog node resourceName
        ≤ (usage.classify catalog nodeOwners total).weight worker node vendor resourceName :=
      classify_weight hown hven hnn
    have hr := ih (usage.classify catalog nodeOwners total)
      (fun t ht => htotals t (mem_cons_of_mem _ ht))
    rw [map_cons, sum_cons, foldl_cons]
    omega

/-- The deferred reservations stand under the resource contract: the vendor of a
    reservation is the one its resource name stands for. -/
def Contracted (catalog : RuntimeProfileCatalog) (db : Db) : Prop :=
  ∀ x r, db.reservations.get? x = some r → r.Deferred → 0 ≤ r.gpuCount
    ∧ ∀ name, profileResource catalog r.requestedProfile = some name →
      ∃ vendor kind, kubernetesResourceContract name = some (vendor, kind)
        ∧ r.requestedVendor = some vendor

/-- The node of a reservation is the one of its row in the deferred query. -/
theorem deferredTotal_of_node {r : ResourceReservation}
    (hven : r.requestedVendor = some vendor) (hnode : reservedNode db r = some node) :
    ∃ total, deferredTotal db r = some total ∧ total.nodeName = node
      ∧ total.profile = r.requestedProfile ∧ total.acceleratorCount = r.gpuCount := by
  obtain ⟨w, hwk, _⟩ := bind_eq_some_iff.mp hnode
  refine ⟨⟨vendor, r.requestedProfile, r.gpuCount, node,
    decide (r.workerSessionId = w.workerSessionId)⟩, ?_, rfl, rfl, rfl⟩
  rw [deferredTotal, hven, hnode, hwk]
  rfl

theorem deferredTotal_eq_some {r : ResourceReservation} {total : DeferredReservationTotal}
    (h : deferredTotal db r = some total) :
    r.requestedVendor = some total.vendor ∧ total.acceleratorCount = r.gpuCount := by
  obtain ⟨v, hven, h⟩ := bind_eq_some_iff.mp h
  obtain ⟨w, _, h⟩ := bind_eq_some_iff.mp h
  obtain ⟨n, _, h⟩ := bind_eq_some_iff.mp h
  rw [← some.inj h]
  exact ⟨hven, rfl⟩

/-- **THE DEFERRED READ**: what is booked on the node is in the usage, for the node or
    among the unclear. -/
theorem bookedAt_le_weight {kind : AcceleratorKind} (hkept : Contracted catalog db)
    (hcon : kubernetesResourceContract resourceName = some (vendor, kind))
    (hown : ownerOf nodeOwners node = some worker) :
    bookedAt catalog db node resourceName
      ≤ (activeDeferredAccelerators catalog nodeOwners [vendor] db).weight worker node vendor
        resourceName := by
  have howners : ¬ (nodeOwners = [] ∨ [vendor] = []) := by
    rintro (rfl | hnil)
    · cases hown
    · cases hnil
  rw [activeDeferredAccelerators, if_neg howners]
  refine le_trans ?_ (classify_all_weight hown _ {} ?_)
  · rw [weight, amount_empty, amount_empty, amount_empty, amount_empty,
      zero_add, zero_add, zero_add, zero_add,
      ((perm_orderBy.filterMap _).map _).sum_eq, Table.select, filterMap_filter]
    refine sum_le_sum_filterMap ?_
    rintro ⟨x, r⟩ hrow
    dsimp only
    by_cases hbooks : r.BooksAt catalog db node resourceName
    · obtain ⟨hdef, hnode, hres⟩ := hbooks
      obtain ⟨v, k, hv, hven⟩ := (hkept x r (mem_rows.mp hrow) hdef).2 resourceName hres
      obtain ⟨rfl, -⟩ := Prod.mk.inj (mem_unique hcon hv)
      obtain ⟨_, htotal, htnode, htprofile, htcount⟩ := deferredTotal_of_node hven hnode
      rw [if_pos ⟨hdef, hnode, hres⟩, if_pos (decide_eq_true
        ⟨hdef, vendor, hven, mem_singleton_self _⟩), htotal, map_some,
        getD_some, DeferredReservationTotal.share,
        if_pos ⟨htnode, by rw [htprofile, hres]⟩, htcount]
    · rw [if_neg hbooks]
      split
      · rename_i hsel
        obtain ⟨hdef, -⟩ := of_decide_eq_true hsel
        cases htotal : deferredTotal db r with
        | none => exact le_refl _
        | some =>
          rw [map_some, getD_some, DeferredReservationTotal.share]
          split
          · rw [(deferredTotal_eq_some htotal).2]
            exact (hkept x r (mem_rows.mp hrow) hdef).1
          · exact le_refl _
      · exact le_refl _
  · intro total htotal
    obtain ⟨⟨x, r⟩, hrow, htotal⟩ := mem_filterMap.mp htotal
    obtain ⟨hrow, hsel⟩ := mem_select.mp (mem_orderBy.mp hrow)
    obtain ⟨hdef, v, hv, hmem⟩ := of_decide_eq_true hsel
    obtain ⟨hven, hcnt⟩ := deferredTotal_eq_some htotal
    refine ⟨?_, ?_⟩
    · have hv' : some v = some total.vendor := hv.symm.trans hven
      rw [← some.inj hv']
      exact mem_singleton.mp hmem
    · rw [hcnt]
      exact (hkept x r hrow hdef).1

end Deferred

/-! ## The services read -/

section Services

variable {db : Db} {node resourceName : String}

/-- Replicas that are still missing have no node. -/
theorem missingCommitments_unassigned {row : Uuid × ModelService}
    (h : c ∈ missingCommitments db row) :
    c = serviceCommitment row.2.admission row.2.gang none :=
  (mem_replicate.mp h).2

theorem serviceCommitment_unassigned (admission : Option ServiceAdmissionSnapshot) (count : ℤ) :
    (serviceCommitment admission count none).share node resourceName = 0 :=
  if_neg (fun hon => nomatch hon.2)

/-- The assigned replicas of the services read are the gangs of the node. -/
theorem share_activeServiceAccelerators : ((activeServiceAccelerators db).map
      (ServiceReplicaCommitment.share node resourceName)).sum
      = gangsAt db node resourceName := by
  have hmiss : (((orderBy (fun row : Uuid × ModelService => row.1)
      (db.modelServices.select (fun _ service =>
        service.Accelerated ∧ 0 < service.desiredReplicas))).flatMap (missingCommitments db)).map
        (ServiceReplicaCommitment.share node resourceName)).sum = 0 := by
    refine List.sum_eq_zero ?_
    intro n hn
    obtain ⟨c, hc, rfl⟩ := mem_map.mp hn
    obtain ⟨_, _, hc⟩ := mem_flatMap.mp hc
    rw [missingCommitments_unassigned hc]
    exact serviceCommitment_unassigned _ _
  rw [activeServiceAccelerators, map_append, sum_append, hmiss, add_zero,
    ((perm_orderBy.filterMap _).map _).sum_eq, sum_filterMap]
  rfl

theorem mem_replicaCommitment {replica : ServiceReplica} (h : c ∈ replicaCommitment db replica) :
    ∃ service, db.modelServices.get? replica.serviceId = some service
      ∧ service.Accelerated ∧ replica.status ∈ nonterminalReplicaStatuses
      ∧ c = serviceCommitment replica.admission service.gang replica.assignedNodeName := by
  obtain ⟨service, hsvc, rfl⟩ := map_eq_some_iff.mp h
  obtain ⟨hget, hcond⟩ := filter_eq_some_iff.mp hsvc
  obtain ⟨haccl, hst⟩ := of_decide_eq_true hcond
  exact ⟨service, hget, haccl, hst, rfl⟩

/-- A commitment of the services read is one of a replica or of a service. -/
theorem mem_activeServiceAccelerators (h : c ∈ activeServiceAccelerators db) :
    (∃ x replica, db.serviceReplicas.get? x = some replica
        ∧ c ∈ replicaCommitment db replica)
      ∨ ∃ x service, db.modelServices.get? x = some service
        ∧ c = serviceCommitment service.admission service.gang none := by
  rcases mem_append.mp h with hrep | hsvc
  · left
    obtain ⟨⟨x, replica⟩, hrow, hc⟩ := mem_filterMap.mp hrep
    exact ⟨x, replica, mem_rows.mp (mem_orderBy.mp hrow), hc⟩
  · right
    obtain ⟨⟨x, service⟩, hrow, hc⟩ := mem_flatMap.mp hsvc
    exact ⟨x, service, (mem_select.mp (mem_orderBy.mp hrow)).1, missingCommitments_unassigned hc⟩

theorem noFloating_of_services
    (h : ∀ c ∈ activeServiceAccelerators db, ¬ c.Floating node resourceName) :
    NoFloating db node resourceName := by
  intro x replica hget c hc
  refine h c (mem_append_left _ (mem_filterMap.mpr ⟨(x, replica), ?_, hc⟩))
  exact mem_orderBy.mpr (mem_rows.mpr hget)

end Services

/-! ## The answer of the planner -/

/-- The one worker that reports a node owns it. -/
theorem ownerOf_unique {inventory : List InventoryDeviceSnapshot} (hmem : device ∈ inventory)
    (hone : (reporters inventory device.nodeName).length = 1) :
    ownerOf (uniqueInventoryNodeOwners inventory) device.nodeName = some device.workerId := by
  obtain ⟨owner, hown⟩ := length_eq_one_iff.mp hone
  have hdev : device.workerId ∈ reporters inventory device.nodeName :=
    mem_dedup.mpr (mem_map_of_mem (mem_filter.mpr ⟨hmem, by simp⟩))
  rw [hown, mem_singleton] at hdev
  have hrow : (device.nodeName, owner) ∈ uniqueInventoryNodeOwners inventory := by
    refine mem_filterMap.mpr ⟨device.nodeName, mem_dedup.mpr (mem_map_of_mem hmem), ?_⟩
    rw [hown]
  rw [ownerOf, map_eq_some_iff]
  cases hfind : (uniqueInventoryNodeOwners inventory).find?
      (·.1 = device.nodeName) with
  | none =>
    exact absurd (decide_eq_true (Eq.refl device.nodeName)) (find?_eq_none.mp hfind _ hrow)
  | some row =>
    have hnode : row.1 = device.nodeName := by simpa using find?_some hfind
    obtain ⟨node, _, hrow'⟩ := mem_filterMap.mp (mem_of_find?_eq_some hfind)
    refine ⟨row, rfl, ?_⟩
    split at hrow'
    · rename_i found hf
      have hpair := some.inj hrow'
      rw [← hpair] at hnode
      have hnode' : node = device.nodeName := hnode
      rw [hnode', hown] at hf
      rw [← hpair, hdev]
      exact (singleton_inj.mp hf).symm
    · cases hrow'

/-- The columns of an admission stand under the resource contract. -/
def AdmittedUnderContract (admission : Option ServiceAdmissionSnapshot) : Prop :=
  ∀ a ∈ admission, ∀ name, normalizedText a.acceleratorResourceName = some name →
    ∃ kind, kubernetesResourceContract name = some (a.selectedVendor, kind)

/-- The fixed surroundings of the placements: each node is reported by one worker, and
    resource names mean what the inventory provider makes them mean.  The provider
    takes vendor and resource name of a device from `_kubernetes_resource_contract`;
    the admission of a service takes both from one device.  `gpu_count >= 0` is a CHECK
    constraint. -/
structure Fleet (db : Db) : Prop where
  one_reporter : ∀ row ∈ deviceRows db, ∀ row' ∈ deviceRows db, ∀ node,
    inventoryNode (some .kubernetes) row.2 row.1.2 = some node →
    inventoryNode (some .kubernetes) row'.2 row'.1.2 = some node →
    row.1.2.workerId = row'.1.2.workerId
  devices : ∀ x device, db.gpuDevices.get? x = some device →
    ∀ name ∈ device.kubernetesResourceName,
      ∃ kind, kubernetesResourceContract name = some (device.vendor, kind)
  services : ∀ x service, db.modelServices.get? x = some service →
    0 ≤ service.gpuCount ∧ AdmittedUnderContract service.admission
  replicas : ∀ x replica, db.serviceReplicas.get? x = some replica →
    AdmittedUnderContract replica.admission

/-- A change that leaves the inventory and the services alone, and lets a node without
    floating replicas keep its gangs. -/
structure Drifts (db db' : Db) : Prop where
  inventory : SameInventory db db'
  services : db'.modelServices = db.modelServices
  replicas : ∀ x replica', db'.serviceReplicas.get? x = some replica' →
    ∃ replica, db.serviceReplicas.get? x = some replica
      ∧ replica'.admission = replica.admission
  gangs : ∀ node resourceName, NoFloating db node resourceName →
    NoFloating db' node resourceName
      ∧ gangsAt db' node resourceName = gangsAt db node resourceName

theorem Drifts.refl (db : Db) : Drifts db db :=
  ⟨⟨rfl, rfl⟩, rfl, fun _ replica h => ⟨replica, h, rfl⟩, fun _ _ h => ⟨h, rfl⟩⟩

theorem Drifts.trans {mid : Db} (h : Drifts db mid) (h' : Drifts mid db') :
    Drifts db db' where
  inventory := ⟨h'.inventory.1.trans h.inventory.1, h'.inventory.2.trans h.inventory.2⟩
  services := h'.services.trans h.services
  replicas := by
    intro x replica' hget
    obtain ⟨replica, hmid, heq⟩ := h'.replicas x replica' hget
    obtain ⟨first, hfirst, heq'⟩ := h.replicas x replica hmid
    exact ⟨first, hfirst, heq.trans heq'⟩
  gangs := by
    intro node name hfloat
    obtain ⟨hmid, hgangs⟩ := h.gangs node name hfloat
    obtain ⟨hlast, hgangs'⟩ := h'.gangs node name hmid
    exact ⟨hlast, hgangs'.trans hgangs⟩

/-- Nothing the inventory and the services rest on has changed. -/
theorem Drifts.of_same (hinv : SameInventory db db') (hsvcs : db'.modelServices = db.modelServices)
    (hreps : db'.serviceReplicas = db.serviceReplicas) : Drifts db db' where
  inventory := hinv
  services := hsvcs
  replicas := by
    intro x replica hget
    rw [hreps] at hget
    exact ⟨replica, hget, rfl⟩
  gangs := by
    intro _ _ hfloat
    refine ⟨?_, ?_⟩
    · intro x replica hget c hc
      rw [hreps] at hget
      rw [replicaCommitment, hsvcs] at hc
      exact hfloat x replica hget c hc
    · simp only [gangsAt, replicaCommitment, hsvcs, hreps]

theorem SameInventory.mem_deviceRows (h : SameInventory db db') (hrow : row ∈ deviceRows db') :
    ∃ worker, (row.1, worker) ∈ deviceRows db ∧ row.2.site = worker.site := by
  obtain ⟨hdev, hwk⟩ := MiniAiCloud.mem_deviceRows.mp hrow
  have hsite := h.site row.1.2.workerId
  rw [hwk, map_some] at hsite
  obtain ⟨worker, hget, heq⟩ := map_eq_some_iff.mp hsite.symm
  rw [h.1] at hdev
  exact ⟨worker, MiniAiCloud.mem_deviceRows.mpr ⟨hdev, hget⟩, heq.symm⟩

theorem Drifts.fleet (h : Drifts db db') (hfleet : Fleet db) : Fleet db' where
  one_reporter := by
    intro row hrow row' hrow' node hnode hnode'
    obtain ⟨w, hw, hsite⟩ := h.inventory.mem_deviceRows hrow
    obtain ⟨w', hw', hsite'⟩ := h.inventory.mem_deviceRows hrow'
    rw [inventoryNode_of_site hsite] at hnode
    rw [inventoryNode_of_site hsite'] at hnode'
    exact hfleet.one_reporter (row.1, w) hw (row'.1, w') hw' node hnode hnode'
  devices := by
    rw [h.inventory.1]
    exact hfleet.devices
  services := by
    rw [h.services]
    exact hfleet.services
  replicas := by
    intro x replica' hget
    obtain ⟨replica, hold, heq⟩ := h.replicas x replica' hget
    rw [heq]
    exact hfleet.replicas x replica hold

/-- The worker reports the node. -/
def Reports (db : Db) (worker : WorkerId) (node : String) : Prop :=
  ∃ row ∈ deviceRows db, row.1.2.workerId = worker
    ∧ inventoryNode (some .kubernetes) row.2 row.1.2 = some node

theorem Drifts.reports {worker : WorkerId} (h : Drifts db db')
    (hrpts : Reports db worker node) : Reports db' worker node := by
  obtain ⟨row, hrow, hwk, hnode⟩ := hrpts
  obtain ⟨w, hw, hsite⟩ := h.inventory.symm.mem_deviceRows hrow
  refine ⟨(row.1, w), hw, hwk, ?_⟩
  rw [← hnode]
  exact (inventoryNode_of_site hsite).symm

/-- What the planner has found for a placement: so many accelerators of the resource are
    free on the node, and they stay free as long as no placement on the same node takes
    them. -/
structure Pledge (catalog : RuntimeProfileCatalog) (db : Db) (pool : PoolRequest)
    (node : String) (value : ℤ) : Prop where
  reports : Reports db pool.workerId node
  contract : ∃ kind, kubernetesResourceContract pool.resourceName = some (pool.vendor, kind)
  profile : profileResource catalog (some pool.profile) = some pool.resourceName
  settled : NoFloating db node pool.resourceName
  room : bookedAt catalog db node pool.resourceName + gangsAt db node pool.resourceName
    + value ≤ healthyAt db node pool.resourceName

/-- What the first read of the planner leaves. -/
theorem surveyPool_ok {catalog : RuntimeProfileCatalog} {survey : PoolSurvey}
    (h : surveyPool catalog pool db = .ok (some survey) db') :
    db' = db ∧ survey.inventory = pool.inventoryQuery.devices db
      ∧ survey.services = activeServiceAccelerators db
      ∧ profileResource catalog (some pool.profile) = some pool.resourceName := by
  rw [surveyPool] at h
  cases hload : catalog.loadExact pool.profile with
  | none =>
    rw [hload] at h
    cases (pure_ok.mp h).1
  | some =>
    simp only [hload] at h
    split at h
    · cases (pure_ok.mp h).1
    · rename_i hmatch
      simp only [listHealthyInventoryDevices, bind_ok, raiseIf_ok, ↓bind_get, pure_ok] at h
      obtain ⟨_, _, ⟨_, _, ⟨_, rfl⟩, rfl, rfl⟩, hsur, rfl⟩ := h
      rw [← some.inj hsur]
      refine ⟨rfl, rfl, rfl, ?_⟩
      rw [profileResource, bind_some, hload, map_some]
      simp only [ne_eq, not_or, not_not] at hmatch
      rw [hmatch.2.2]

/-- Where nothing is unclear, the weight is what is counted for the node. -/
theorem weight_le_of_clear {inventory : List InventoryDeviceSnapshot}
    {usage : DeferredAcceleratorUsage} (hkey : (pool.workerId, node)
      ∈ candidateNodeKeys inventory pool.vendor pool.model pool.resourceName)
    (hclear : ¬ usage.Unclear pool.vendor pool.resourceName
      (physicalPool inventory pool.vendor pool.model pool.resourceName)) :
    usage.weight pool.workerId node pool.vendor pool.resourceName
      ≤ amount usage.byNodeResource (pool.workerId, node, pool.vendor, pool.resourceName) := by
  rw [Unclear, not_or, not_or, not_or, not_lt, not_lt] at hclear
  obtain ⟨_, _, _, hwk⟩ := hclear
  have hzero : amount usage.unknownByWorkerVendor (pool.workerId, pool.vendor) ≤ 0 := by
    cases hget : usage.unknownByWorkerVendor.get? (pool.workerId, pool.vendor) with
    | none => rw [amount, hget, getD_none]
    | some n =>
      rw [amount, hget, getD_some]
      by_contra hpos
      exact hwk ⟨((pool.workerId, pool.vendor), n), mem_rows.mpr hget,
        not_le.mp hpos, mem_map_of_mem (physicalPool_spec hkey).1, rfl⟩
  rw [weight]
  omega

/-- **THE PLANNER'S ANSWER**: in the database of the second read the offered
    accelerators are free, and no replica can come for them. -/
theorem countPool_spec {catalog : RuntimeProfileCatalog} {survey : PoolSurvey} {value : ℤ}
    {old old' : Db} (hfleet : Fleet old) (hdrift : Drifts old db)
    (hkept : Contracted catalog db) (hnode : pool.nodeName = some node)
    (hsur : surveyPool catalog pool old = .ok (some survey) old')
    (hcnt : countPool catalog pool survey db = .ok value db') (hpos : 0 < value) :
    Pledge catalog db pool node value := by
  obtain ⟨_, hinv, hsvcs, hprof⟩ := surveyPool_ok hsur
  rw [countPool, bind_get, hinv, hsvcs] at hcnt
  -- a candidate device fixes the vendor of the resource name
  have hcon : (pool.workerId, node) ∈ candidateNodeKeys
      (pool.inventoryQuery.devices old) pool.vendor pool.model pool.resourceName →
      Reports old pool.workerId node ∧ ∃ kind,
        kubernetesResourceContract pool.resourceName = some (pool.vendor, kind) := by
    intro hkey
    obtain ⟨_, hdev, ⟨hven, hname⟩, _, hat⟩ := mem_candidateNodeKeys.mp hkey
    obtain ⟨row, hrow, _, hsnap⟩ := mem_devices.mp hdev
    obtain ⟨hrnode, hrworker, _, hrvendor, hrname⟩ := inventorySnapshot_eq_some hsnap
    obtain ⟨hwk, hnode'⟩ := Prod.mk.inj hat
    refine ⟨⟨row, hrow, hrworker.symm.trans hwk, ?_⟩, ?_⟩
    · rw [← hnode']
      exact hrnode
    · rw [← hven, hrvendor]
      refine hfleet.devices row.1.1 row.1.2 (mem_deviceRows.mp hrow).1 _ ?_
      rw [← hrname, hname]
      rfl
  have hadmitted : ∀ {admission : Option ServiceAdmissionSnapshot} {count : ℤ}
      {assigned : Option String} {kind : AcceleratorKind}, AdmittedUnderContract admission →
      kubernetesResourceContract pool.resourceName = some (pool.vendor, kind) →
      (serviceCommitment admission count assigned).resourceName = some pool.resourceName →
      (serviceCommitment admission count assigned).vendor = some pool.vendor := by
    intro admission _ _ _ hadm hkind hname
    cases admission with
    | none => cases hname
    | some a =>
      obtain ⟨_, hkind'⟩ := hadm a rfl _ hname
      exact congrArg some (Prod.mk.inj (mem_unique hkind' hkind)).1
  obtain ⟨hkey, hreps, hclear, hfloat, hroom⟩ := capacity_spec hnode hpos (by
      intro c hc
      rcases mem_activeServiceAccelerators hc with ⟨x, replica, _, hc⟩ | ⟨x, service, hget, rfl⟩
      · obtain ⟨service, hget, _, _, rfl⟩ := mem_replicaCommitment hc
        exact le_max_of_le_left (hfleet.services _ _ hget).1
      · exact le_max_of_le_left (hfleet.services _ _ hget).1)
    (by
      intro hkey c hc hname
      obtain ⟨kind, hkind⟩ := (hcon hkey).2
      rcases mem_activeServiceAccelerators hc with
        ⟨x, replica, hrep, hc⟩ | ⟨x, service, hget, rfl⟩
      · obtain ⟨service, hget, _, _, rfl⟩ := mem_replicaCommitment hc
        exact hadmitted (hfleet.replicas _ _ hrep) hkind hname
      · exact hadmitted (hfleet.services _ _ hget).2 hkind hname)
    hcnt
  obtain ⟨hrpts, kind, hkind⟩ := hcon hkey
  obtain ⟨hsett, hgangs⟩ := hdrift.gangs node pool.resourceName (noFloating_of_services hfloat)
  -- the node has one owner, so its reservations are charged to this worker
  obtain ⟨_, hdev, _, _, hat⟩ := mem_candidateNodeKeys.mp hkey
  obtain ⟨hwk, hnode'⟩ := Prod.mk.inj hat
  have hown := ownerOf_unique hdev (by rw [hnode']; exact hreps)
  rw [hwk, hnode'] at hown
  have hbkd := bookedAt_le_weight hkept hkind hown
  have husa : (usableAt (pool.inventoryQuery.devices old) pool.resourceName
      (pool.workerId, node) : ℤ) ≤ healthyAt old node pool.resourceName :=
    usableAt_le_healthyAt pool pool.workerId node pool.resourceName
  have hunclear := weight_le_of_clear hkey hclear
  rw [share_activeServiceAccelerators] at hroom
  refine ⟨hdrift.reports hrpts, ⟨kind, hkind⟩, hprof, hsett, ?_⟩
  rw [hgangs, hdrift.inventory.healthyAt]
  omega

end MiniAiCloud
