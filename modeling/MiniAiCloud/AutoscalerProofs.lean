import MiniAiCloud.CommitmentProofs

/-! # An idle service under the autoscaler

    The gateway counts the requests in flight and notes the time only when one starts or
    finishes; a pass trusts that note for `metric_max_age_seconds`.  So a service without
    requests is scaled down while its last request is recent, and stays at the replicas
    it has once a pass comes too late. -/

namespace MiniAiCloud

open Transaction Table Option List

/-! ## The metrics -/

/-- `GatewayMetrics`, without the counts by replica. -/
structure GatewayMetrics where
  active : Table Uuid ℤ := .empty
  observedAt : Table Uuid Time := .empty

/-- A request of a service that starts or finishes. -/
structure GatewayEvent where
  now : Time
  serviceId : Uuid
  finished : Bool

namespace GatewayMetrics

def requestStarted (metrics : GatewayMetrics) (now : Time) (serviceId : Uuid) :
    GatewayMetrics where
  active := metrics.active.put serviceId ((metrics.active.get? serviceId).getD 0 + 1)
  observedAt := metrics.observedAt.put serviceId now

def requestFinished (metrics : GatewayMetrics) (now : Time) (serviceId : Uuid) :
    GatewayMetrics :=
  let serviceActive := (metrics.active.get? serviceId).getD 0
  if serviceActive ≤ 0 then metrics
  else
    { active := metrics.active.put serviceId (serviceActive - 1)
      observedAt := metrics.observedAt.put serviceId now }

def snapshot (metrics : GatewayMetrics) (serviceId : Uuid) : Option ServiceLoad :=
  (metrics.observedAt.get? serviceId).map (⟨(metrics.active.get? serviceId).getD 0, ·⟩)

def handle (metrics : GatewayMetrics) (event : GatewayEvent) : GatewayMetrics :=
  if event.finished then metrics.requestFinished event.now event.serviceId
  else metrics.requestStarted event.now event.serviceId

/-- What the process knows after a history of requests. -/
def after (history : List GatewayEvent) : GatewayMetrics := history.foldl handle {}

end GatewayMetrics

/-- The events of a service. -/
def requestsOf (x : Uuid) (history : List GatewayEvent) : List GatewayEvent :=
  history.filter (·.serviceId = x)

/-- The requests that have started and not finished. -/
def inFlight (x : Uuid) (history : List GatewayEvent) : ℤ :=
  ((requestsOf x history).map fun event => if event.finished then -1 else 1).sum

/-- When a request of the service last started or finished. -/
def lastSeen (x : Uuid) (history : List GatewayEvent) : Option Time :=
  (requestsOf x history).getLast?.map (·.now)

/-- No request finishes that has not started. -/
def Orderly (x : Uuid) (history : List GatewayEvent) : Prop :=
  ∀ n ≤ history.length, 0 ≤ inFlight x (history.take n)
  deriving Decidable

/-- The service has had requests, and all of them have finished, the last one then. -/
def IdleSince (x : Uuid) (history : List GatewayEvent) (seen : Time) : Prop :=
  Orderly x history ∧ inFlight x history = 0 ∧ lastSeen x history = some seen
  deriving Decidable

section Metrics

variable {x : Uuid} {history : List GatewayEvent} {event : GatewayEvent}

theorem requestsOf_concat (hx : event.serviceId = x) :
    requestsOf x (history ++ [event]) = requestsOf x history ++ [event] := by
  rw [requestsOf, filter_append, filter_singleton, decide_eq_true hx]
  rfl

theorem requestsOf_concat_ne (hx : event.serviceId ≠ x) :
    requestsOf x (history ++ [event]) = requestsOf x history := by
  rw [requestsOf, filter_append, filter_singleton, decide_eq_false hx]
  exact append_nil _

theorem GatewayMetrics.handle_ne (metrics : GatewayMetrics) (hx : event.serviceId ≠ x) :
    (metrics.handle event).active.get? x = metrics.active.get? x
      ∧ (metrics.handle event).observedAt.get? x = metrics.observedAt.get? x := by
  rw [handle, requestFinished, requestStarted]
  split_ifs
  · exact ⟨rfl, rfl⟩
  · exact ⟨get?_put_ne _ _ hx.symm, get?_put_ne _ _ hx.symm⟩
  · exact ⟨get?_put_ne _ _ hx.symm, get?_put_ne _ _ hx.symm⟩

/-- The metrics know the requests in flight, and the time of the last event. -/
theorem metrics_exact (h : Orderly x history) :
    ((GatewayMetrics.after history).active.get? x).getD 0 = inFlight x history
      ∧ (GatewayMetrics.after history).observedAt.get? x = lastSeen x history := by
  induction history using List.reverseRecOn with
  | nil => exact ⟨rfl, rfl⟩
  | append_singleton earlier event ih =>
    have hlen : (earlier ++ [event]).length = earlier.length + 1 := length_append
    obtain ⟨hact, hseen⟩ := ih fun n hn => by
      rw [← take_append_of_le_length hn]
      exact h n (by omega)
    have hstep : GatewayMetrics.after (earlier ++ [event])
        = (GatewayMetrics.after earlier).handle event := by
      rw [GatewayMetrics.after, foldl_concat]
      rfl
    rw [hstep, inFlight, lastSeen]
    by_cases hx : event.serviceId = x
    · have hnow := h _ le_rfl
      rw [take_length, inFlight, requestsOf_concat hx, map_append, sum_append] at hnow
      rw [requestsOf_concat hx, map_append, sum_append, getLast?_concat]
      change 0 ≤ inFlight x earlier + _ at hnow
      change _ = inFlight x earlier + _ ∧ _
      rw [map_singleton, sum_singleton] at hnow ⊢
      rw [GatewayMetrics.handle, hx]
      cases hfin : event.finished with
      | false =>
        refine ⟨?_, get?_put_self _ _ _⟩
        rw [← hact]
        exact congrArg (Option.getD · 0) (get?_put_self _ _ _)
      | true =>
        rw [hfin, if_pos rfl] at hnow
        rw [if_pos rfl, if_pos rfl, GatewayMetrics.requestFinished, hact, if_neg (by omega)]
        exact ⟨congrArg (Option.getD · 0) (get?_put_self _ _ _), get?_put_self _ _ _⟩
    · obtain ⟨hact', hseen'⟩ := (GatewayMetrics.after earlier).handle_ne hx
      rw [hact', hseen', requestsOf_concat_ne hx]
      exact ⟨hact, hseen⟩

theorem IdleSince.snapshot {seen : Time} (h : IdleSince x history seen) :
    (GatewayMetrics.after history).snapshot x = some ⟨0, seen⟩ := by
  obtain ⟨horder, hzero, hseen⟩ := h
  obtain ⟨hact, hobs⟩ := metrics_exact horder
  rw [GatewayMetrics.snapshot, hobs, hact, hseen, hzero]
  rfl

end Metrics

/-! ## The target -/

/-- The fewest replicas the autoscaler leaves a service. -/
def ModelService.minimumReplicas (service : ModelService) (scaleToZeroEnabled : Bool) : ℤ :=
  if scaleToZeroEnabled then service.autoscalingMinReplicas
  else max 1 service.autoscalingMinReplicas

/-- The row passes the constraints of its table. -/
def ModelService.Valid (service : ModelService) : Prop :=
  ∀ check ∈ service.constraints, check.2 = true

section Passes

variable {now : Time} {x : Uuid} {service row : ModelService} {settings : AutoscalerSettings}
  {load : Option ServiceLoad} {revalidated : Option (List String)} {db db' : Db}
  {outcome : AutoscaleOutcome} {target : ℤ}

theorem ModelService.Valid.minimum (h : service.Valid) (zero : Bool) :
    0 ≤ service.minimumReplicas zero
      ∧ service.minimumReplicas zero ≤ service.autoscalingMaxReplicas := by
  simp only [Valid, constraints, forall_mem_cons, decide_eq_true_eq] at h
  obtain ⟨-, -, -, -, -, -, -, -, -, hmin, hmax, -⟩ := h
  rw [minimumReplicas]
  split_ifs <;> omega

theorem targetReplicas_between (h : service.Valid) (active : ℤ) (zero : Bool) :
    service.minimumReplicas zero ≤ targetReplicas service active zero
      ∧ targetReplicas service active zero ≤ service.autoscalingMaxReplicas :=
  ⟨le_min (h.minimum zero).2 (le_max_left _ _), min_le_left _ _⟩

theorem targetReplicas_idle (h : service.Valid) (zero : Bool) :
    targetReplicas service 0 zero = service.minimumReplicas zero := by
  obtain ⟨hzero, hmax⟩ := h.minimum zero
  show min _ (max (service.minimumReplicas zero) ⌈((0 : ℤ) : ℚ) / _⌉) = _
  rw [Int.cast_zero, zero_div, Int.ceil_zero, max_eq_left hzero, min_eq_right hmax]

/-! ## A pass -/

theorem autoscaleTo_scales {nodes : Option (List String)}
    (hsvc : db.modelServices.get? x = some service) (hnew : target ≠ service.desiredReplicas)
    (h : autoscaleTo now x service target nodes db = .ok outcome db') :
    ∃ row, db'.modelServices.get? x = some row
      ∧ (outcome = .held ∧ row.desiredReplicas = service.desiredReplicas
        ∨ outcome = .scaled ∧ row.desiredReplicas = target) := by
  obtain ⟨updated, mid, hct, hr⟩ := bind_ok.mp h
  rcases catching_cases hct with hran | ⟨e, last, hrsd, hhnd, hn⟩
  · obtain ⟨r, _, hset, hdone⟩ := bind_ok.mp hran
    obtain ⟨rfl, rfl⟩ := pure_ok.mp hdone
    rcases setDesiredReplicas_ok hset with ⟨-, heq⟩ | ⟨row, nodes', state, after, hsome, hrow,
      -, hrepl, -, rfl⟩
    · exact absurd (heq service hsvc rfl).symm hnew
    obtain ⟨_, rfl⟩ := ne_none_iff_exists'.mp hsome
    have hsvcs := congrArg Db.modelServices (replaceServiceCommitment_beside hrepl)
    have hafter := (congrArg (Table.get? · x) hsvcs).trans hrow
    obtain ⟨_, _, hmod, hdone⟩ := bind_ok.mp hr
    obtain ⟨rfl, rfl⟩ := pure_ok.mp hdone
    rw [modify_ok.mp hmod]
    refine ⟨_, (get?_modify _ _ _ _).trans
      (congrArg (Option.map _) (get?_set_self hafter _)), .inr ⟨rfl, ?_⟩⟩
    exact congrArg ModelService.desiredReplicas (if_pos rfl)
  · obtain ⟨rfl, rfl⟩ := pure_ok.mp hn
    obtain ⟨rfl, rfl⟩ := pure_ok.mp hr
    rcases bind_error.mp hrsd with hset | ⟨_, _, -, hdone⟩
    · have hsvcs := congrArg Db.modelServices (setDesiredReplicas_refused hset hhnd).2
      exact ⟨service, (congrArg (Table.get? · x) hsvcs).trans hsvc, .inl ⟨rfl, rfl⟩⟩
    · exact absurd hdone pure_error

/-- **IDLE SERVICES**: every change of the autoscaler stays between the minimum and the
    maximum of the service; and a service all of whose requests have finished is at its
    minimum after a pass that examines it, is not in the cool-down and is not refused by
    the quota, exactly if it was there before, or the pass comes soon enough after the
    last request and the admission lets it grow where it has to. -/
theorem idle_service_scaled_iff {candidate : AutoscaleCandidate} {locked : List Uuid}
    (hrow : db.modelServices.get? candidate.serviceId = some row) (hvalid : row.Valid)
    (hpass : autoscale now settings candidate locked load revalidated db = .ok outcome db') :
    (outcome = .scaled → ∃ row', db'.modelServices.get? candidate.serviceId = some row'
      ∧ row.minimumReplicas settings.scaleToZeroEnabled ≤ row'.desiredReplicas
      ∧ row'.desiredReplicas ≤ row.autoscalingMaxReplicas)
    ∧ ∀ history seen, load = (GatewayMetrics.after history).snapshot candidate.serviceId →
      IdleSince candidate.serviceId history seen → ¬ row.InCooldown now →
      outcome ≠ .skipped →
      let minimum := row.minimumReplicas settings.scaleToZeroEnabled
      let admitted := AdmitsGrowth settings row minimum revalidated
      (outcome = .held → row.desiredReplicas = minimum ∨ ¬ admitted) →
      ((db'.modelServices.get? candidate.serviceId).map (·.desiredReplicas) = some minimum
        ↔ row.desiredReplicas = minimum
          ∨ -5 ≤ now - seen ∧ now - seen ≤ settings.metricMaxAgeSeconds ∧ admitted) := by
  rcases autoscale_cases upholds_tracks hpass with hskip | ⟨row', hrow',
    ⟨_, _, -, herror⟩ | ⟨service, mid, -, rfl, hsvc, hlckd⟩⟩
  · cases hskip
    exact ⟨nofun, fun _ _ _ _ _ hexamined => absurd rfl hexamined⟩
  · cases herror
  obtain rfl := mem_unique hrow hrow'
  rcases autoscaleLocked_cases hlckd with ⟨_, hok, hno, hheld⟩ | ⟨known, hmem, target, nodes,
    huse, htarget, hnew, hgrow, hto⟩
  · cases hok
    refine ⟨fun hscal => absurd hscal hno, ?_⟩
    intro history seen hsnap hidle hcool _ minimum admitted hquota
    rw [hsvc, map_some, some_inj]
    refine ⟨.inl, fun h => h.elim id fun ⟨hskew, hage, hgrow⟩ => ?_⟩
    have hheld := hheld _ (hsnap.trans hidle.snapshot) ⟨le_refl _, hskew, hage⟩ hcool
    exact (hquota hheld).resolve_right (not_not.mpr hgrow)
  · have hbtw := targetReplicas_between hvalid known.activeRequests
      settings.scaleToZeroEnabled
    obtain ⟨left, hleft, hend⟩ := autoscaleTo_scales hsvc hnew hto
    refine ⟨fun hscal => ⟨left, hleft, ?_⟩, ?_⟩
    · obtain ⟨rfl, -⟩ | ⟨-, hdes⟩ := hend
      · cases hscal
      · rw [hdes, htarget]
        exact hbtw
    intro history seen hsnap hidle hcool _ minimum admitted hquota
    obtain rfl := some.inj (hmem.symm.trans (hsnap.trans hidle.snapshot))
    have hleast : target = minimum := htarget.trans (targetReplicas_idle hvalid _)
    rw [hleft, map_some, some_inj]
    rw [hleast] at hnew hgrow
    obtain ⟨rfl, -⟩ | ⟨-, hdes⟩ := hend
    · -- the quota has refused
      exact ((hquota rfl).elim (fun h => hnew h.symm) fun h => h hgrow).elim
    · exact ⟨fun _ => .inr ⟨huse.2.1, huse.2.2, hgrow⟩, fun _ => hdes.trans hleast⟩

end Passes

/-! ### One request, and a pass long after it -/

/-- A service of two replicas, that may go down to one. -/
def idleDb : Db :=
  (scaling.run [.createService 10 { chatSubmission with
    desiredReplicas := 2, autoscalingEnabled := true }] emptyScaling).db

def oneRequest : List GatewayEvent := [⟨20, 3, false⟩, ⟨25, 3, true⟩]

def idlePass (now : Time) : Txn AutoscaleOutcome :=
  autoscale now ⟨30, false, false, false⟩ ⟨3, none, .fake, none⟩ []
    ((GatewayMetrics.after oneRequest).snapshot 3) none

/-- A minute and more after the only request has finished, a pass finds no metrics and
    leaves the service at its two replicas; so does every later one. -/
theorem idle_service_kept :
    (idleDb.modelServices.get? 3).map (fun row =>
        (row.minimumReplicas false, decide (row.InCooldown 100))) = some (1, false)
      ∧ IdleSince 3 oneRequest 25
      ∧ returned (idlePass 100) idleDb = some .missing
      ∧ ((commit (idlePass 100) idleDb).modelServices.get? 3).map (·.desiredReplicas)
        = some 2 := by
  decide +kernel

theorem idle_service_scaled_iff_soon :
    ((commit (idlePass 50) idleDb).modelServices.get? 3).map (·.desiredReplicas) = some 1 := by
  have hshown : (idleDb.modelServices.get? 3).map (fun row =>
      (row.minimumReplicas false, row.runtimeType, decide (row.InCooldown 50),
        row.constraints.all (·.2))) = some (1, .fake, false, true) := by
    decide +kernel
  obtain ⟨row, hrow, hcols⟩ := Option.map_eq_some_iff.mp hshown
  simp only [Prod.mk.injEq, decide_eq_false_iff_not, List.all_eq_true] at hcols
  obtain ⟨hmin, hkind, hcool, hvalid⟩ := hcols
  have hrun : returned (idlePass 50) idleDb = some .scaled := by decide +kernel
  obtain ⟨db', hpass⟩ := returned_eq_some.mp hrun
  have h := (idle_service_scaled_iff hrow hvalid hpass).2 oneRequest 25 rfl
    (by decide +kernel) hcool nofun nofun
  rw [commit_of_ok hpass, ← hmin]
  refine h.mpr (.inr ⟨by decide +kernel, by decide +kernel, fun hgrow => ?_⟩)
  exact nomatch hgrow.1.symm.trans hkind

end MiniAiCloud
