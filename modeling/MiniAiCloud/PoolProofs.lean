import MiniAiCloud.Admission

/-! # What the pool planner leaves

    The planner starts with the devices of a pool and charges what it read: the
    deferred reservations, then the replicas of services.  The lemmas below follow one
    node key through these loops.  They end in `capacity_spec`: a positive capacity
    plus everything charged to the node is at most the usable devices there, and no
    replica that the planner read can still come to the node. -/

namespace MiniAiCloud

open Transaction OrderedQuery Tally Option List ServiceReplicaCommitment

/-! ## Charging a pool -/

/-- The replica is assigned to the node, for the resource. -/
def ServiceReplicaCommitment.On (commitment : ServiceReplicaCommitment)
    (node resourceName : String) : Prop :=
  commitment.resourceName = some resourceName ∧ commitment.assignedNodeName = some node
  deriving Decidable

/-- The replica has no node yet and may come to this one; a malformed set of eligible
    nodes excludes none. -/
def ServiceReplicaCommitment.Floating (commitment : ServiceReplicaCommitment)
    (node resourceName : String) : Prop :=
  commitment.resourceName = some resourceName ∧ commitment.assignedNodeName = none
    ∧ ∀ nodes ∈ commitment.eligibleNodeNames, node ∈ nodes

/-- What commitments take from a node. -/
def ServiceReplicaCommitment.share (node resourceName : String)
    (commitment : ServiceReplicaCommitment) : ℤ :=
  if commitment.On node resourceName then commitment.acceleratorCount else 0

section Charging

variable {vendor : AcceleratorVendor} {model resourceName : String} {key : NodeKey}
  {t t' : Table NodeKey ℤ}

theorem chargeDeferred_spec {row : (WorkerId × String × AcceleratorVendor × String) × ℤ}
    (hkey : key ∈ keys t) (hleft : 0 ≤ amount t key)
    (h : chargeDeferred vendor resourceName t row = some t') :
    key ∈ keys t' ∧ 0 ≤ amount t' key ∧ amount t' key = amount t key
      - if row.1 = (key.1, key.2, vendor, resourceName) then row.2 else 0 := by
  obtain ⟨⟨worker, node, v, name⟩, n⟩ := row
  obtain ⟨w, N⟩ := key
  rw [chargeDeferred] at h
  split_ifs at h with hoth
  · rw [← some.inj h]
    refine ⟨hkey, hleft, ?_⟩
    rw [if_neg, sub_zero]
    rintro ⟨⟩
    exact hoth.elim (fun hv => hv rfl) (fun hn => hn rfl)
  · obtain ⟨hv, hn⟩ := not_or.mp hoth
    have hv' : v = vendor := not_not.mp hv
    have hn' : name = resourceName := not_not.mp hn
    subst hv' hn'
    have hamt := amount_draw h hkey
    have hle := le_amount_of_draw h
    refine ⟨by rw [draw_keys h]; exact hkey, ?_, ?_⟩
    · rw [hamt]
      by_cases hk : (worker, node) = (w, N)
      · rw [if_pos hk]
        rw [hk] at hle
        exact sub_nonneg.mpr hle
      · rw [if_neg hk, sub_zero]
        exact hleft
    · rw [hamt]
      simp only [Prod.mk.injEq, and_true]

/-- The deferred reservations of the pool come off its node. -/
theorem chargeDeferred_all (used : Table (WorkerId × String × AcceleratorVendor × String) ℤ)
    (hkey : key ∈ keys t) (hleft : 0 ≤ amount t key)
    (h : used.rows.foldlM (chargeDeferred vendor resourceName) t = some t') :
    key ∈ keys t' ∧ 0 ≤ amount t' key ∧ amount t' key
      = amount t key - amount used (key.1, key.2, vendor, resourceName) := by
  have hloop := foldlM_invariant (I := fun done mid => key ∈ Tally.keys mid
      ∧ 0 ≤ amount mid key ∧ amount mid key = amount t key - (done.map (fun row =>
        if row.1 = (key.1, key.2, vendor, resourceName) then row.2 else 0)).sum)
    used.rows ?_ ⟨hkey, hleft, by simp⟩ h
  · rw [← sum_entry used]
    exact hloop
  · intro _ _ _ _ _ hI hstep
    obtain ⟨hmid, hmidleft, hamt⟩ := hI
    obtain ⟨hmid', hleft', hstep'⟩ := chargeDeferred_spec hmid hmidleft hstep
    refine ⟨hmid', hleft', ?_⟩
    rw [hstep', hamt, map_append, sum_append, map_singleton, sum_singleton, sub_sub]

/-- A counter goes down by the cost, or is used up. -/
def Charged (key : NodeKey) (cost : ℤ) (t t' : Table NodeKey ℤ) : Prop :=
  key ∈ keys t' ∧ amount t' key ≤ amount t key
    ∧ (amount t' key ≤ amount t key - cost ∨ amount t' key ≤ 0)

theorem Charged.refl (hkey : key ∈ keys t) : Charged key 0 t t :=
  ⟨hkey, le_refl _, .inl (by rw [sub_zero])⟩

theorem Charged.trans {mid : Table NodeKey ℤ} {c c' : ℤ} (h : Charged key c t mid)
    (h' : Charged key c' mid t') : Charged key (c + c') t t' := by
  obtain ⟨_, hle, hcost⟩ := h
  obtain ⟨hkey', hle', hcost'⟩ := h'
  refine ⟨hkey', hle'.trans hle, ?_⟩
  rcases hcost' with hcost' | hzero
  · rcases hcost with hcost | hzero
    · left
      omega
    · right
      omega
  · exact .inr hzero

theorem keys_set (t : Table NodeKey ℤ) (k : NodeKey) (n : ℤ) : keys (t.set k n) = keys t := by
  rw [Tally.keys, Tally.keys, Table.set, Table.modify, Table.mapRows, List.map_map]
  rfl

/-- Charging the replica to the node of the key, or to another one. -/
theorem chargeAssigned_spec {commitment : ServiceReplicaCommitment} {node : String}
    (hkey : key ∈ keys t) (hnn : 0 ≤ commitment.acceleratorCount)
    (hleft : 0 ≤ amount t key) (h : chargeAssigned model t commitment node = some t') :
    Charged key (if node = key.2 then commitment.acceleratorCount else 0) t t'
      ∧ 0 ≤ amount t' key := by
  rw [chargeAssigned] at h
  cases hkeys : (keys t).filter (·.2 = node) with
  | nil =>
    rw [hkeys] at h
    rw [← some.inj h, if_neg]
    · exact ⟨Charged.refl hkey, hleft⟩
    · rintro rfl
      have hmem : key ∈ (keys t).filter (·.2 = key.2) :=
        mem_filter.mpr ⟨hkey, by simp⟩
      rw [hkeys] at hmem
      exact absurd hmem not_mem_nil
  | cons first rest =>
    cases rest with
    | cons =>
      rw [hkeys] at h
      cases h
    | nil =>
      rw [hkeys] at h
      simp only at h
      have hfirst : first.2 = node := by
        have hmem : first ∈ (keys t).filter (·.2 = node) := by
          rw [hkeys]
          exact mem_cons_self
        simpa using (mem_filter.mp hmem).2
      -- the one key with this node name is ours exactly when the name is
      have hown : node = key.2 → first = key := by
        intro hnode
        have hmem : key ∈ (keys t).filter (·.2 = node) :=
          mem_filter.mpr ⟨hkey, by simp [hnode]⟩
        rw [hkeys, mem_singleton] at hmem
        exact hmem.symm
      split_ifs at h with hmodel
      · rw [← some.inj h]
        obtain ⟨m, hm⟩ := ne_none_iff_exists'.mp (mem_keys.mp hkey)
        by_cases hk : key = first
        · subst hk
          have hzero : amount (t.set key 0) key = 0 := by
            rw [amount, Table.get?_set_self hm]
            rfl
          exact ⟨⟨by rw [keys_set]; exact hkey, by omega, .inr (by omega)⟩, by omega⟩
        · have heq : amount (t.set first 0) key = amount t key := by
            rw [amount, Table.get?_set_ne t 0 hk, amount]
          rw [if_neg (fun hnode => hk (hown hnode).symm)]
          exact ⟨⟨by rw [keys_set]; exact hkey, heq.le, .inl (by omega)⟩, by omega⟩
      · have hamt := amount_draw h hkey
        have hle := le_amount_of_draw h
        by_cases hk : first = key
        · subst hk
          rw [if_pos rfl] at hamt
          rw [if_pos hfirst.symm]
          exact ⟨⟨by rw [draw_keys h]; exact hkey, by omega, .inl hamt.le⟩, by omega⟩
        · rw [if_neg hk, sub_zero] at hamt
          rw [if_neg (fun hnode => hk (hown hnode))]
          exact ⟨⟨by rw [draw_keys h]; exact hkey, hamt.le, .inl (by omega)⟩, by omega⟩

/-- One commitment of the pool: what it takes from the node of the key is charged, and
    it cannot come there later. -/
theorem chargeCommitment_spec {commitment : ServiceReplicaCommitment}
    (hkey : key ∈ keys t) (hnn : 0 ≤ commitment.acceleratorCount)
    (hven : commitment.resourceName = some resourceName → commitment.vendor = some vendor)
    (hleft : 0 ≤ amount t key)
    (h : chargeCommitment vendor model resourceName t commitment = some t') :
    Charged key (commitment.share key.2 resourceName) t t' ∧ 0 ≤ amount t' key
      ∧ ¬ commitment.Floating key.2 resourceName := by
  obtain ⟨committed, m, name, count, eligible, assigned⟩ := commitment
  -- a commitment of another pool is charged nothing and does not float here
  have helse : name ≠ some resourceName → share key.2 resourceName
          ⟨committed, m, name, count, eligible, assigned⟩ = 0
        ∧ ¬ Floating ⟨committed, m, name, count, eligible, assigned⟩ key.2 resourceName :=
    fun hname => ⟨if_neg (fun hon => hname hon.1), fun hfloat => hname hfloat.1⟩
  cases committed with
  | none => cases h
  | some v =>
    simp only [chargeCommitment] at h
    split_ifs at h with hv
    · obtain ⟨hshare, hfloat⟩ := helse (fun hname => hv (some.inj (hven hname)))
      rw [← some.inj h, hshare]
      exact ⟨Charged.refl hkey, hleft, hfloat⟩
    · cases name with
      | none => cases h
      | some name =>
        simp only at h
        split_ifs at h with hname
        · obtain ⟨hshare, hfloat⟩ := helse (fun heq => hname (some.inj heq))
          rw [← some.inj h, hshare]
          exact ⟨Charged.refl hkey, hleft, hfloat⟩
        · have hname' : name = resourceName := not_not.mp hname
          subst hname'
          cases eligible with
          | none => cases h
          | some nodes =>
            cases assigned with
            | none =>
              simp only at h
              split_ifs at h with hcomes
              rw [← some.inj h]
              have hshare : share key.2 name ⟨some v, m, some name, count, some nodes, none⟩ = 0 :=
                if_neg (fun hon => nomatch hon.2)
              rw [hshare]
              refine ⟨Charged.refl hkey, hleft, ?_⟩
              rintro ⟨_, _, hall⟩
              exact hcomes (.inr ⟨key, hkey, hall nodes rfl⟩)
            | some node =>
              simp only at h
              split_ifs at h with hout
              obtain ⟨hchd, hleft'⟩ := chargeAssigned_spec hkey hnn hleft h
              have hshare : share key.2 name ⟨some v, m, some name, count, some nodes, some node⟩
                  = if node = key.2 then count else 0 := by
                split_ifs with hnode
                · exact if_pos ⟨rfl, congrArg some hnode⟩
                · exact if_neg (fun hon => hnode (some.inj hon.2))
              rw [hshare]
              exact ⟨hchd, hleft', fun hfloat => nomatch hfloat.2.1⟩

/-- The replicas of the pool come off its node, and none can come there later. -/
theorem chargeCommitment_all {services : List ServiceReplicaCommitment}
    (hkey : key ∈ keys t) (hleft : 0 ≤ amount t key)
    (hnn : ∀ c ∈ services, 0 ≤ c.acceleratorCount)
    (hven : ∀ c ∈ services, c.resourceName = some resourceName → c.vendor = some vendor)
    (h : services.foldlM (chargeCommitment vendor model resourceName) t = some t') :
    Charged key (services.map (share key.2 resourceName)).sum t t'
      ∧ ∀ c ∈ services, ¬ c.Floating key.2 resourceName := by
  have hloop := foldlM_invariant (I := fun done mid =>
      Charged key (done.map (share key.2 resourceName)).sum t mid
        ∧ 0 ≤ amount mid key ∧ ∀ c ∈ done, ¬ c.Floating key.2 resourceName)
    services ?_ ⟨Charged.refl hkey, hleft, fun c hc => absurd hc not_mem_nil⟩ h
  · exact ⟨hloop.1, hloop.2.2⟩
  · intro _ c _ _ hc hI hstep
    obtain ⟨hchd, hmidleft, hfloat⟩ := hI
    obtain ⟨hchd', hleft', hfloat'⟩ := chargeCommitment_spec hchd.1
      (hnn c hc) (hven c hc) hmidleft hstep
    refine ⟨?_, hleft', ?_⟩
    · rw [map_append, sum_append, map_singleton, sum_singleton]
      exact hchd.trans hchd'
    · intro c' hc'
      rcases mem_append.mp hc' with hdone | hlast
      · exact hfloat c' hdone
      · rw [mem_singleton.mp hlast]
        exact hfloat'

end Charging

/-! ## The capacity of a pool -/

section Capacity

variable {inventory : List InventoryDeviceSnapshot} {vendor : AcceleratorVendor}
  {model resourceName : String} {services : List ServiceReplicaCommitment}
  {deferred : DeferredAcceleratorUsage} {key : NodeKey}

theorem mem_candidateNodeKeys : key ∈ candidateNodeKeys inventory vendor model resourceName
      ↔ ∃ device ∈ inventory, device.InPool vendor resourceName ∧ device.model = model
        ∧ device.nodeKey = key := by
  simp only [candidateNodeKeys, List.mem_map, List.mem_filter, decide_eq_true_eq]
  constructor
  · rintro ⟨device, ⟨hmem, hpool, hmodel⟩, hkey⟩
    exact ⟨device, hmem, hpool, hmodel, hkey⟩
  · rintro ⟨device, hmem, hpool, hmodel, hkey⟩
    exact ⟨device, ⟨hmem, hpool, hmodel⟩, hkey⟩

variable (hkey : key ∈ candidateNodeKeys inventory vendor model resourceName)

include hkey

/-- The uncharged pool counts the devices of a candidate node. -/
theorem physicalPool_spec : key ∈ keys (physicalPool inventory vendor model resourceName)
      ∧ amount (physicalPool inventory vendor model resourceName) key
        = inventory.countP (fun device =>
          device.nodeKey = key ∧ device.InPool vendor resourceName) := by
  obtain ⟨device, hmem, hpool, -, rfl⟩ := mem_candidateNodeKeys.mp hkey
  refine ⟨(mem_keys_collect _ _).mpr ⟨device, ?_, rfl⟩, ?_⟩
  · exact List.mem_filter.mpr ⟨hmem, by simp [hpool, hkey]⟩
  · rw [physicalPool, amount_collect_one, List.countP_filter]
    congr 1
    refine countP_congr ?_
    intro d _
    by_cases hd : d.nodeKey = device.nodeKey
    · simp [hd, hkey]
    · simp [hd]

/-- What a plan says about a candidate node: one worker reports it, no reservation is
    unclear, and the charges are off. -/
theorem planPhysicalPoolRemaining_spec {remaining : Table NodeKey ℤ}
    (hnn : ∀ c ∈ services, 0 ≤ c.acceleratorCount)
    (hven : ∀ c ∈ services, c.resourceName = some resourceName → c.vendor = some vendor)
    (h : planPhysicalPoolRemaining inventory vendor model resourceName services deferred
      = some remaining) :
    (reporters inventory key.2).length = 1
      ∧ ¬ deferred.Unclear vendor resourceName (physicalPool inventory vendor model resourceName)
      ∧ (∀ c ∈ services, ¬ c.Floating key.2 resourceName)
      ∧ (amount remaining key + amount deferred.byNodeResource (key.1, key.2, vendor, resourceName)
          + (services.map (share key.2 resourceName)).sum
        ≤ inventory.countP (fun device =>
          device.nodeKey = key ∧ device.InPool vendor resourceName)
        ∨ amount remaining key ≤ 0) := by
  rw [planPhysicalPoolRemaining] at h
  split at h
  · cases h
  · rename_i hreps
    split at h
    · cases h
    · rename_i hclear
      obtain ⟨_, hdef, hsvcs⟩ := bind_eq_some_iff.mp h
      obtain ⟨hphysical, hcnt⟩ := physicalPool_spec hkey
      obtain ⟨hkey', hleft, _⟩ := chargeDeferred_all _ hphysical
        (by rw [hcnt]; exact Int.natCast_nonneg _) hdef
      obtain ⟨⟨_, _, hchd⟩, hfloat⟩ := chargeCommitment_all hkey' hleft hnn hven hsvcs
      refine ⟨?_, hclear, hfloat, ?_⟩
      · by_contra hne
        exact hreps ⟨key, hkey, hne⟩
      · rcases hchd with hle | hzero
        · left
          omega
        · exact .inr hzero

end Capacity

/-- The compatible devices of a request for one node: all usable ones under the
    resource name, if they are homogeneous. -/
theorem compatible_devices {inventory : List InventoryDeviceSnapshot} {pool : PoolRequest}
    {capabilities : List String} {node : String} {devices : List InventoryDeviceSnapshot}
    {db db' : Db} (hnode : pool.nodeName = some node)
    (h : batchHomogeneousCompatibleDevices inventory pool capabilities db
      = .ok devices db') :
    devices = []
      ∨ devices = (devicesAt inventory pool.resourceName (pool.workerId, node)).filter
            (·.Usable)
        ∧ (∀ device ∈ devicesAt inventory pool.resourceName (pool.workerId, node),
            device.vendor = pool.vendor)
        ∧ (pool.workerId, node)
            ∈ candidateNodeKeys inventory pool.vendor pool.model pool.resourceName := by
  rw [batchHomogeneousCompatibleDevices, bind_ok] at h
  obtain ⟨_, _, _, hdevs⟩ := h
  obtain ⟨hdevs, -⟩ := pure_ok.mp hdevs
  -- every candidate key is the one of the request
  generalize hcands : ((inventory.filter _).map InventoryDeviceSnapshot.nodeKey).dedup
    = candidates at hdevs
  have hcand : ∀ k ∈ candidates, k = (pool.workerId, node)
      ∧ k ∈ candidateNodeKeys inventory pool.vendor pool.model pool.resourceName := by
    intro k hk
    rw [← hcands, List.mem_dedup, List.mem_map] at hk
    obtain ⟨device, hmem, rfl⟩ := hk
    obtain ⟨hmem, hcond⟩ := mem_filter.mp hmem
    obtain ⟨hwk, hnodes, _, hpool, _, hmodel, _⟩ := of_decide_eq_true hcond
    have hkey : device.nodeKey = (pool.workerId, node) := by
      rw [InventoryDeviceSnapshot.nodeKey, hwk, hnodes node hnode]
    exact ⟨hkey, mem_candidateNodeKeys.mpr ⟨device, hmem, hpool, hmodel, rfl⟩⟩
  have hnd : candidates.Nodup := by
    rw [← hcands]
    exact nodup_dedup _
  cases hcases : candidates with
  | nil =>
    rw [hcases] at hdevs
    exact .inl hdevs.symm
  | cons first rest =>
    have hfirst := hcand first (by rw [hcases]; exact mem_cons_self)
    have hr : rest = [] := by
      cases rest with
      | nil => rfl
      | cons second =>
        have hsec := hcand second (by simp [hcases])
        rw [hcases, hfirst.1, hsec.1] at hnd
        simp at hnd
    rw [hcases, hr, hfirst.1] at hdevs
    have hone : orderBy (fun key : NodeKey => toLex key) [(pool.workerId, node)]
        = [(pool.workerId, node)] := rfl
    rw [hone, flatMap_cons, flatMap_nil, append_nil] at hdevs
    split at hdevs
    · rename_i hall
      right
      refine ⟨hdevs.symm, ?_, hfirst.1 ▸ hfirst.2⟩
      intro device hdev
      exact (of_decide_eq_true (all_eq_true.mp hall device hdev)).1
    · exact .inl hdevs.symm

/-- The usable devices a worker reports under a resource name on one node. -/
def usableAt (inventory : List InventoryDeviceSnapshot) (resourceName : String)
    (key : NodeKey) : ℕ :=
  inventory.countP (fun device => device.nodeKey = key
    ∧ device.kubernetesResourceName = some resourceName ∧ device.Usable)

/-- **THE CAPACITY**: what the planner offers on a node, with everything charged there,
    is at most the usable devices. -/
theorem capacity_spec {inventory : List InventoryDeviceSnapshot} {pool : PoolRequest}
    {capabilities : List String} {node : String} {services : List ServiceReplicaCommitment}
    {deferred : DeferredAcceleratorUsage} {value : ℤ} {db db' : Db}
    (hnode : pool.nodeName = some node) (hpos : 0 < value)
    (hnn : ∀ c ∈ services, 0 ≤ c.acceleratorCount)
    (hven : (pool.workerId, node)
        ∈ candidateNodeKeys inventory pool.vendor pool.model pool.resourceName →
      ∀ c ∈ services, c.resourceName = some pool.resourceName → c.vendor = some pool.vendor)
    (h : batchPoolAvailableCapacity inventory pool capabilities services deferred db
      = .ok value db') :
    (pool.workerId, node) ∈ candidateNodeKeys inventory pool.vendor pool.model pool.resourceName
      ∧ (reporters inventory node).length = 1
      ∧ ¬ deferred.Unclear pool.vendor pool.resourceName
        (physicalPool inventory pool.vendor pool.model pool.resourceName)
      ∧ (∀ c ∈ services, ¬ c.Floating node pool.resourceName)
      ∧ value + amount deferred.byNodeResource (pool.workerId, node, pool.vendor, pool.resourceName)
          + (services.map (share node pool.resourceName)).sum
        ≤ usableAt inventory pool.resourceName (pool.workerId, node) := by
  rw [batchPoolAvailableCapacity] at h
  cases hplan : planPhysicalPoolRemaining inventory pool.vendor pool.model
      pool.resourceName services deferred with
  | none =>
    rw [hplan] at h
    obtain ⟨rfl, -⟩ := pure_ok.mp h
    exact absurd hpos (lt_irrefl 0)
  | some =>
    rw [hplan] at h
    simp only [bind_ok, pure_ok] at h
    obtain ⟨devices, _, hcompatible, hvalue, -⟩ := h
    rcases compatible_devices hnode hcompatible with hnil | ⟨hdevs, heq, hkey⟩
    · rw [hnil] at hvalue
      have hzero : value = 0 := hvalue.symm
      omega
    · obtain ⟨hreps, hclear, hfloat, hamt⟩ :=
        planPhysicalPoolRemaining_spec hkey hnn (hven hkey) hplan
      refine ⟨hkey, hreps, hclear, hfloat, ?_⟩
      have husa : amount (collect InventoryDeviceSnapshot.nodeKey (fun _ => 1) devices)
          (pool.workerId, node)
          = usableAt inventory pool.resourceName (pool.workerId, node) := by
        rw [amount_collect_one, hdevs, countP_filter, devicesAt, countP_filter]
        congr 1
        refine countP_congr ?_
        intro _ _
        simp only [Bool.and_eq_true, decide_eq_true_eq]
        constructor
        · rintro ⟨⟨_, husa⟩, hat, hname⟩
          exact ⟨hat, hname, husa⟩
        · rintro ⟨hat, hname, husa⟩
          exact ⟨⟨hat, husa⟩, hat, hname⟩
      -- the node is homogeneous: its physical devices are all those of the resource
      have hphysical : usableAt inventory pool.resourceName (pool.workerId, node)
          ≤ inventory.countP (fun device => device.nodeKey = (pool.workerId, node)
            ∧ device.InPool pool.vendor pool.resourceName) := by
        refine countP_mono_left ?_
        intro device hmem hcond
        obtain ⟨hat, hname, _⟩ := of_decide_eq_true hcond
        refine decide_eq_true ⟨hat, heq device ?_, hname⟩
        exact mem_filter.mpr ⟨hmem, decide_eq_true ⟨hat, hname⟩⟩
      have hsing := rows_of_single (t := collect InventoryDeviceSnapshot.nodeKey
        (fun _ => 1) devices) (k := (pool.workerId, node)) (fun k hk => by
          obtain ⟨_, hmem, rfl⟩ := (mem_keys_collect _ _).mp hk
          rw [hdevs] at hmem
          exact (of_decide_eq_true (mem_filter.mp (mem_filter.mp hmem).1).2).1)
      rcases hsing with hn | hone
      · rw [hn] at hvalue
        have hzero : value = 0 := hvalue.symm
        omega
      · rw [hone, map_singleton, sum_singleton, husa] at hvalue
        simp only at hvalue hamt
        omega

/-! ## Reservations outside the pool

    The loop over the deferred reservations asks for vendor and resource only.  A
    reservation on a node that is not in the pool finds nothing to draw from, and the
    whole pool is closed. -/

/-- The usage with `n` more accelerators at one entry of `by_node_resource`. -/
def DeferredAcceleratorUsage.charged (deferred : DeferredAcceleratorUsage)
    (entry : WorkerId × String × AcceleratorVendor × String) (n : ℤ) :
    DeferredAcceleratorUsage :=
  { deferred with byNodeResource := add deferred.byNodeResource entry n }

/-- The node has no device of the model under the resource name. -/
def Foreign (inventory : List InventoryDeviceSnapshot) (model resourceName node : String) :
    Prop :=
  ∀ device ∈ inventory, device.nodeName = node → device.model = model →
    device.kubernetesResourceName ≠ some resourceName
  deriving Decidable

section Outside

variable {inventory : List InventoryDeviceSnapshot} {vendor v : AcceleratorVendor}
  {model resourceName name node : String} {worker : WorkerId} {n : ℤ}
  {services : List ServiceReplicaCommitment} {deferred : DeferredAcceleratorUsage}

theorem chargeDeferred_keys {row : (WorkerId × String × AcceleratorVendor × String) × ℤ}
    {t t' : Table NodeKey ℤ} (h : chargeDeferred vendor resourceName t row = some t') :
    keys t' = keys t := by
  rw [chargeDeferred] at h
  split at h
  · rw [some.inj h]
  · exact draw_keys h

/-- Entries of another vendor or resource do not count. -/
theorem chargeDeferred_filter (t : Table NodeKey ℤ)
    (rows : List ((WorkerId × String × AcceleratorVendor × String) × ℤ)) :
    rows.foldlM (chargeDeferred vendor resourceName) t
      = (rows.filter (fun row => row.1.2.2.1 = vendor ∧ row.1.2.2.2 = resourceName)).foldlM
          (chargeDeferred vendor resourceName) t := by
  induction rows generalizing t with
  | nil => rfl
  | cons row _ ih =>
    by_cases hrow : row.1.2.2.1 = vendor ∧ row.1.2.2.2 = resourceName
    · rw [filter_cons_of_pos (by simp [hrow]), foldlM_cons, foldlM_cons]
      congr 1
      funext charged
      exact ih charged
    · have hskip : chargeDeferred vendor resourceName t row = some t := by
        rw [chargeDeferred, if_pos]
        rw [Classical.not_and_iff_not_or_not] at hrow
        exact hrow
      rw [filter_cons_of_neg (by simpa using hrow), foldlM_cons, hskip]
      exact ih t

/-- One entry of the pool's vendor and resource on a node without a counter closes the
    pool, wherever it stands among the others. -/
theorem chargeDeferred_none
    {rows : List ((WorkerId × String × AcceleratorVendor × String) × ℤ)}
    (hmem : ((worker, node, vendor, resourceName), n) ∈ rows) (hn : 0 < n)
    {t : Table NodeKey ℤ} (hkey : (worker, node) ∉ keys t) :
    rows.foldlM (chargeDeferred vendor resourceName) t = none := by
  induction rows generalizing t with
  | nil => cases hmem
  | cons row _ ih =>
    rw [foldlM_cons]
    rcases mem_cons.mp hmem with rfl | hr
    · have hamt : amount t (worker, node) = 0 := by
        rw [amount, not_not.mp (mt mem_keys.mpr hkey), getD_none]
      have hrow : chargeDeferred vendor resourceName t
          ((worker, node, vendor, resourceName), n) = none := by
        rw [chargeDeferred, if_neg (by simp), draw, hamt, if_pos hn]
      rw [hrow]
      rfl
    · cases hchg : chargeDeferred vendor resourceName t row with
      | none => rfl
      | some => exact ih hr (by rw [chargeDeferred_keys hchg]; exact hkey)

/-- A foreign node has no counter in the pool. -/
theorem Foreign.notMem_keys (h : Foreign inventory model resourceName node) :
    (worker, node) ∉ keys (physicalPool inventory vendor model resourceName) := by
  intro hkey
  obtain ⟨_, hmem, hnode⟩ := (mem_keys_collect _ _).mp hkey
  obtain ⟨-, hcond⟩ := mem_filter.mp hmem
  obtain ⟨-, hcand⟩ := of_decide_eq_true hcond
  obtain ⟨candidate, hmem', hpool, hmodel, heq⟩ := mem_candidateNodeKeys.mp hcand
  have hat : candidate.nodeName = node := congrArg Prod.snd (heq.trans hnode)
  exact h candidate hmem' hat hmodel hpool.2

/-- Reservations of another vendor or another resource leave a plan as it is. -/
theorem planPhysicalPoolRemaining_charged_other (hoth : v ≠ vendor ∨ name ≠ resourceName) :
    planPhysicalPoolRemaining inventory vendor model resourceName services
        (deferred.charged (worker, node, v, name) n)
      = planPhysicalPoolRemaining inventory vendor model resourceName services deferred := by
  have hrows : (deferred.charged (worker, node, v, name) n).byNodeResource.rows.foldlM
      (chargeDeferred vendor resourceName) (physicalPool inventory vendor model resourceName)
      = deferred.byNodeResource.rows.foldlM (chargeDeferred vendor resourceName)
        (physicalPool inventory vendor model resourceName) := by
    rw [chargeDeferred_filter, DeferredAcceleratorUsage.charged, rows_add_filter,
      ← chargeDeferred_filter]
    intro m
    simpa [← not_or, Classical.or_iff_not_imp_left] using hoth
  have hunclear : (deferred.charged (worker, node, v, name) n).Unclear vendor resourceName
      (physicalPool inventory vendor model resourceName)
      ↔ deferred.Unclear vendor resourceName
        (physicalPool inventory vendor model resourceName) := Iff.rfl
  rw [planPhysicalPoolRemaining, planPhysicalPoolRemaining]
  simp only [hrows, hunclear]

/-- A reservation of the pool's vendor and resource on a foreign node closes the pool. -/
theorem planPhysicalPoolRemaining_charged_foreign
    (hforn : Foreign inventory model resourceName node)
    (hused : 0 < amount deferred.byNodeResource (worker, node, vendor, resourceName) + n) :
    planPhysicalPoolRemaining inventory vendor model resourceName services
      (deferred.charged (worker, node, vendor, resourceName) n) = none := by
  have hamt : 0 < amount (deferred.charged (worker, node, vendor, resourceName)
      n).byNodeResource (worker, node, vendor, resourceName) := by
    rw [DeferredAcceleratorUsage.charged, amount_add, if_pos rfl]
    exact hused
  have hoff : (worker, node) ∉ keys (physicalPool inventory vendor model resourceName) :=
    hforn.notMem_keys
  have hclos := chargeDeferred_none (mem_rows_of_amount hamt) hamt hoff
  rw [planPhysicalPoolRemaining]
  split
  · rfl
  · split
    · rfl
    · rw [hclos]
      rfl

/-- **FOREIGN NODES**: reservations on a node without devices of the planned model and
    resource leave the plan alone exactly when they are of another vendor or resource, or
    there was no plan anyway. -/
theorem plan_ignores_foreign_node_iff (hforeign : Foreign inventory model resourceName node)
    (hused : 0 < amount deferred.byNodeResource (worker, node, v, name) + n) :
    planPhysicalPoolRemaining inventory vendor model resourceName services
        (deferred.charged (worker, node, v, name) n)
      = planPhysicalPoolRemaining inventory vendor model resourceName services deferred
    ↔ planPhysicalPoolRemaining inventory vendor model resourceName services deferred = none
      ∨ v ≠ vendor ∨ name ≠ resourceName := by
  constructor
  · intro heq
    by_cases hoth : v ≠ vendor ∨ name ≠ resourceName
    · exact .inr hoth
    · obtain ⟨hv, hname⟩ := not_or.mp hoth
      obtain rfl := not_not.mp hv
      obtain rfl := not_not.mp hname
      rw [planPhysicalPoolRemaining_charged_foreign hforeign hused] at heq
      exact .inl heq.symm
  · rintro (hn | hoth)
    · by_cases hoth : v ≠ vendor ∨ name ≠ resourceName
      · exact planPhysicalPoolRemaining_charged_other hoth
      · obtain ⟨hv, hname⟩ := not_or.mp hoth
        obtain rfl := not_not.mp hv
        obtain rfl := not_not.mp hname
        rw [planPhysicalPoolRemaining_charged_foreign hforeign hused, hn]
    · exact planPhysicalPoolRemaining_charged_other hoth

end Outside

/-- Two nodes of one cluster worker, with one GPU each: an A100 and an H100. -/
def mixedInventory : List InventoryDeviceSnapshot :=
  [("node-a", "A100"), ("node-b", "H100")].map (fun (node, model) => {
    workerId := "cluster"
    nodeName := node
    health := "healthy"
    vendor := .nvidia
    kind := .gpu
    model := model
    memoryTotalMb := 81920
    runtimeProfileIds := ["vllm-cuda"]
    capabilities := ["bf16"]
    kubernetesResourceName := some "nvidia.com/gpu" })

/-- The A100 pool of `mixedInventory` next to an Ascend reservation on the other node. -/
theorem plan_ignores_foreign_node_other_vendor :
    Foreign mixedInventory "A100" "nvidia.com/gpu" "node-b"
      ∧ (planPhysicalPoolRemaining mixedInventory .nvidia "A100" "nvidia.com/gpu" []
          {}).map Table.rows = some [(("cluster", "node-a"), 1)]
      ∧ planPhysicalPoolRemaining mixedInventory .nvidia "A100" "nvidia.com/gpu" []
          (DeferredAcceleratorUsage.charged {}
            ("cluster", "node-b", .huaweiAscend, "huawei.com/npu") 2)
        = planPhysicalPoolRemaining mixedInventory .nvidia "A100" "nvidia.com/gpu" [] {} := by
  have hforn : Foreign mixedInventory "A100" "nvidia.com/gpu" "node-b" := by decide +kernel
  refine ⟨hforn, by decide +kernel, ?_⟩
  exact (plan_ignores_foreign_node_iff hforn (by decide +kernel)).mpr
    (.inr (.inl (by decide)))

/-- A catalog with one CUDA profile. -/
def cudaCatalog : RuntimeProfileCatalog where
  manifest := Table.empty.insert ("vllm-cuda", "1") "sha256:cuda"
  runtimeProfiles := Table.empty.insert ("vllm-cuda", "1") {
    vendor := .nvidia
    kind := .gpu
    resourceName := "nvidia.com/gpu"
    features := []
    dtypes := ["bf16"]
    tensorParallelSupported := true
    semanticDigest := "sha256:cuda" }

/-- What `_classify_deferred_accelerators` makes of one batch task on the H100. -/
def usageOnH100 : DeferredAcceleratorUsage :=
  DeferredAcceleratorUsage.classify cudaCatalog [("node-a", "cluster"), ("node-b", "cluster")]
    {} {
      vendor := .nvidia
      profile := some ⟨"vllm-cuda", "1", "sha256:cuda"⟩
      acceleratorCount := 1
      nodeName := "node-b"
      workerSessionMatches := true }

/-- A batch task on the H100 node makes the free A100 unavailable. -/
theorem foreign_reservation_closes_pool : Foreign mixedInventory "A100" "nvidia.com/gpu" "node-b"
      ∧ usageOnH100.byNodeResource.rows
        = [(("cluster", "node-b", .nvidia, "nvidia.com/gpu"), 1)]
      ∧ (planPhysicalPoolRemaining mixedInventory .nvidia "A100" "nvidia.com/gpu" []
          {}).map Table.rows = some [(("cluster", "node-a"), 1)]
      ∧ planPhysicalPoolRemaining mixedInventory .nvidia "A100" "nvidia.com/gpu" []
          usageOnH100 = none := by
  refine ⟨by decide +kernel, by decide +kernel, by decide +kernel, ?_⟩
  exact (map_eq_none_iff (f := Table.rows)).mp (by decide +kernel)

end MiniAiCloud
