import MiniAiCloud.ChronicleProofs
import MiniAiCloud.RecoveryProofs

/-! # A live Kubernetes Job is never raced by a retry

    A Job outlives the worker that started it, so its task must not be requeued
    before the Job is sure to be gone.  Eight calls write the lease, with two
    formulas; each of them leaves the lease of a recorded Job past its start, its
    timeout and the cleanup grace, counted from the moment the handle was recorded
    where it has not started.  The clock of the database does not go back. -/

namespace MiniAiCloud

open Transaction Reachability Cluster Chronicle Table Option

/-! ## The clock -/

/-- The entries agree with the clock and with the executions they hold. -/
structure Chronicle.Timed (clock : Time) (c : Chronicle) : Prop where
  started : ∀ t e, c.entries.get? t = some e → e.status ∈ holdingStatuses →
    ∀ s, e.startedAt = some s → s ≤ clock
  runtime : ∀ t e x, c.entries.get? t = some e → e.status ∈ holdingStatuses →
    e.execution = some x →
    ∃ bill, c.bills.get? x = some bill ∧ bill.runtime = e.spec.runtimeType

/-- The lease outlasts the Job of the entry, which was recorded at `h`. -/
structure Entry.Outlasts (h g : ℚ) (e : Entry) : Prop where
  kubernetes : e.spec.runtimeType = .kubernetes
  handled : e.handled = true
  lease : ∃ lease, e.lease = some lease
    ∧ e.startedAt.getD h + e.spec.timeoutSeconds + g ≤ lease

/-- **THE GUARD** of an execution: as long as the task holds it, its lease outlasts
    the Job. -/
structure Chronicle.Guarded (t x : Uuid) (h g : ℚ) (c : Chronicle) : Prop where
  minted : ∃ bill, c.bills.get? x = some bill ∧ bill.runtime = .kubernetes
  leased : ∀ e, c.entries.get? t = some e → e.execution = some x →
    e.status ∈ holdingStatuses → e.Outlasts h g

/-- The task does not wait to be picked up with this execution. -/
def Chronicle.Taken (t x : Uuid) (c : Chronicle) : Prop :=
  ∀ e, c.entries.get? t = some e → e.execution = some x → e.status ≠ .assigned

/-- A lease that was just computed outlasts the Job. -/
theorem Entry.Leased.outlasts {T : Terms} {e : Entry} {h : ℚ} (hlsd : e.Leased T)
    (hkube : e.spec.runtimeType = .kubernetes) (hhnd : e.handled = true)
    (hbeg : ∀ s, e.startedAt = some s → s ≤ T.now) (hnow : h ≤ T.now) :
    e.Outlasts h T.grace := by
  obtain ⟨lease, hlease, hle⟩ := hlsd hkube hhnd
  refine ⟨hkube, hhnd, lease, hlease, le_trans ?_ hle⟩
  cases hstart : e.startedAt with
  | none =>
    show h + e.spec.timeoutSeconds + T.grace ≤ min T.now T.now + e.spec.timeoutSeconds + T.grace
    rw [min_self]
    linarith
  | some s =>
    show s + e.spec.timeoutSeconds + T.grace ≤ min T.now s + e.spec.timeoutSeconds + T.grace
    rw [min_eq_right (hbeg s hstart)]

/-- The statuses a holding task has come from. -/
theorem Entry.Changes.launched {T : Terms} {e e' : Entry} {target : TaskStatus}
    (h : e.Changes T target e') (hheld : e'.status ∈ holdingStatuses) :
    e.status ∈ holdingStatuses ∧ e'.execution = e.execution := by
  have hlau : e.status ∈ holdingStatuses := by
    rcases h.kind with ⟨_, htgt⟩ | ⟨hlau, _⟩
    · have hidle : target ∉ holdingStatuses := by
        revert htgt
        cases target <;> decide
      exact absurd (h.status ▸ hheld) hidle
    · exact holding_of_launch _ hlau
  exact ⟨hlau, h.execution.resolve_right (fun hidle => hidle.1 hlau)⟩

theorem Entry.Adjusts.held {e e' : Entry} (h : e.Adjusts e') (hheld : e'.status ∈ holdingStatuses) :
    e.status ∈ holdingStatuses ∧ e'.execution = e.execution := by
  rw [h.status] at hheld
  exact ⟨hheld, h.execution.resolve_right (fun hidle => hidle.1 hheld)⟩

section Deeds

variable {T : Terms} {c c' : Chronicle} {t u x : Uuid} {e e' : Entry} {h : ℚ}

/-- The entry of one task is replaced, and executions are only minted. -/
theorem Chronicle.Timed.set {clock : Time} (hc : c.Timed clock)
    (hents : c'.entries = c.entries.set u e')
    (hbills : ∀ x bill, c.bills.get? x = some bill → c'.bills.get? x = some bill)
    (hbeg : e'.status ∈ holdingStatuses → ∀ s, e'.startedAt = some s → s ≤ clock)
    (hrt : e'.status ∈ holdingStatuses → ∀ x, e'.execution = some x →
      ∃ bill, c'.bills.get? x = some bill ∧ bill.runtime = e'.spec.runtimeType) :
    c'.Timed clock := by
  refine ⟨?_, ?_⟩
  · intro t found hf hheld
    rw [hents] at hf
    rcases get?_set_cases hf with ⟨_, rfl⟩ | ⟨_, hold⟩
    · exact hbeg hheld
    · exact hc.started t found hold hheld
  · intro t found x hf hheld hx
    rw [hents] at hf
    rcases get?_set_cases hf with ⟨_, rfl⟩ | ⟨_, hold⟩
    · exact hrt hheld x hx
    · obtain ⟨bill, hbill, hkind⟩ := hc.runtime t found x hold hheld hx
      exact ⟨bill, hbills x bill hbill, hkind⟩

/-- The same for an entry that holds what it held before. -/
theorem Chronicle.Timed.kept {clock : Time} (hc : c.Timed clock)
    (hent : c.entries.get? u = some e) (hents : c'.entries = c.entries.set u e')
    (hbills : c'.bills = c.bills) (hspec : e'.spec = e.spec)
    (hheld : e'.status ∈ holdingStatuses → e.status ∈ holdingStatuses ∧ e'.execution = e.execution)
    (hbeg : e'.status ∈ holdingStatuses → ∀ s, e'.startedAt = some s → s ≤ clock) :
    c'.Timed clock := by
  refine hc.set hents (fun x bill hbill => by rw [hbills]; exact hbill) hbeg ?_
  intro hst x hx
  obtain ⟨hst', heq⟩ := hheld hst
  rw [heq] at hx
  rw [hbills, hspec]
  exact hc.runtime u e x hent hst' hx

/-- **EVERY DEED** keeps the clock. -/
theorem Chronicle.Timed.deed (hc : c.Timed T.now) (hdeed : Deed T c c') :
    c'.Timed T.now := by
  cases hdeed with
  | openDay p hnew | roll p day hday
  | release t x e bill stub day usage hent hended hexec hbill hstub hact hday
      hstl =>
    exact ⟨hc.started, hc.runtime⟩
  | create _ e _ _ hst =>
    have hidle : e.status ∉ holdingStatuses := by
      rw [hst]
      decide
    refine ⟨?_, ?_⟩
    · intro u found hf hheld
      rcases get?_insert_cases hf with ⟨_, rfl⟩ | hold
      · exact absurd hheld hidle
      · exact hc.started u found hold hheld
    · intro u found x hf hheld
      rcases get?_insert_cases hf with ⟨_, rfl⟩ | hold
      · exact absurd hheld hidle
      · exact hc.runtime u found x hold hheld
  | adjust t e _ hent hadj =>
    refine hc.kept hent rfl rfl hadj.spec hadj.held ?_
    intro hheld s hs
    rw [hadj.startedAt] at hs
    exact hc.started t e hent (hadj.held hheld).1 s hs
  | change t e _ _ _ hent hchg =>
    refine hc.kept hent rfl rfl hchg.spec hchg.launched ?_
    intro hheld s hs
    rw [hchg.startedAt] at hs
    split_ifs at hs with hrng
    · exact (some.inj hs).symm.le
    · exact hc.started t e hent (hchg.launched hheld).1 s hs
  | assign _ _ _ _ _ bill _ hasg =>
    refine hc.set rfl (fun y old hold => get?_insert_of_some hold _) ?_ ?_
    · intro _ s hs
      rw [hasg.startedAt] at hs
      cases hs
    · intro _ y hy
      rw [hasg.execution] at hy
      rw [← some.inj hy, hasg.spec]
      exact ⟨bill, get?_insert_self hasg.bill_fresh bill, hasg.bill_runtime⟩
  | preempt t _ _ e _ hent hlau =>
    have hheld := holding_of_launch _ hlau
    exact hc.kept hent rfl rfl rfl (fun _ => ⟨hheld, rfl⟩) (fun _ => hc.started t e hent hheld)
  | finish t e _ _ hent hhol =>
    exact hc.kept hent rfl rfl rfl (fun _ => ⟨hhol, rfl⟩)
      (fun _ => hc.started t e hent hhol)
  | requeue =>
    have hidle : TaskStatus.retrying ∉ holdingStatuses := by decide
    exact hc.set rfl (fun _ _ hbill => hbill) (fun hheld => absurd hheld hidle)
      (fun hheld => absurd hheld hidle)

/-- The entry of the guarded task is replaced by one that is as safe. -/
theorem Chronicle.Guarded.set {g : ℚ} (hc : c.Guarded t x h g)
    (hents : c'.entries = c.entries.set u e')
    (hbills : ∀ y bill, c.bills.get? y = some bill → c'.bills.get? y = some bill)
    (hlsd : u = t → e'.execution = some x → e'.status ∈ holdingStatuses →
      e'.Outlasts h g) : c'.Guarded t x h g := by
  refine ⟨?_, ?_⟩
  · obtain ⟨bill, hbill, hkind⟩ := hc.minted
    exact ⟨bill, hbills x bill hbill, hkind⟩
  · intro found hf hx hheld
    rw [hents] at hf
    rcases get?_set_cases hf with ⟨htu, rfl⟩ | ⟨_, hold⟩
    · exact hlsd htu.symm hx hheld
    · exact hc.leased found hold hx hheld

/-- An execution the task has left is not taken up again. -/
theorem Chronicle.Taken.set (hc : c.Taken t x) (hents : c'.entries = c.entries.set u e')
    (htaken : u = t → e'.execution = some x → e'.status ≠ .assigned) : c'.Taken t x := by
  intro found hf hx
  rw [hents] at hf
  rcases get?_set_cases hf with ⟨htu, rfl⟩ | ⟨_, hold⟩
  · exact htaken htu.symm hx
  · exact hc found hold hx

/-- A write of the lease, by any of the calls that renew it. -/
theorem Chronicle.Guarded.adjusted (hc : c.Guarded t x h T.grace) (htimed : c.Timed T.now)
    (hnow : h ≤ T.now) (hent : c.entries.get? t = some e) (hadj : e.Adjusts e')
    (hlease : e'.lease = e.lease ∧ e'.handled = e.handled ∨ e'.Leased T
      ∨ e.status ∉ holdingStatuses
      ∨ ∃ y bill, e.execution = some y ∧ c.bills.get? y = some bill
        ∧ bill.runtime ≠ .kubernetes)
    (hx : e'.execution = some x) (hheld : e'.status ∈ holdingStatuses) :
    e'.Outlasts h T.grace := by
  obtain ⟨hheld', heq⟩ := hadj.held hheld
  rw [heq] at hx
  obtain ⟨hkube, hhnd, lease, hle⟩ := hc.leased e hent hx hheld'
  have hkube' : e'.spec.runtimeType = .kubernetes := by
    rw [hadj.spec]
    exact hkube
  rcases hlease with ⟨heq', hsame''⟩ | hlsd | hidle | ⟨y, bill, hy, hbill, hoth⟩
  · refine ⟨hkube', hsame''.trans hhnd, lease, ?_⟩
    rw [heq', hadj.startedAt, hadj.spec]
    exact hle
  · refine hlsd.outlasts hkube' (hadj.handled hhnd) ?_ hnow
    intro s hs
    rw [hadj.startedAt] at hs
    exact htimed.started t e hent hheld' s hs
  · exact absurd hheld' hidle
  · -- the Job runs on Kubernetes, so no other runtime writes its handle
    obtain ⟨minted, hmint, hkind⟩ := hc.minted
    rw [hx] at hy
    rw [← some.inj hy, hmint] at hbill
    rw [← some.inj hbill] at hoth
    exact absurd hkind hoth

/-- A status change of the guarded task; only a pick-up shortens a lease. -/
theorem Chronicle.Guarded.changed {target : TaskStatus} (hc : c.Guarded t x h T.grace)
    (htimed : c.Timed T.now) (hnow : h ≤ T.now) (htaken : T.pickup = true → c.Taken t x)
    (hent : c.entries.get? t = some e) (hchg : e.Changes T target e')
    (hx : e'.execution = some x) (hheld : e'.status ∈ holdingStatuses) :
    e'.Outlasts h T.grace := by
  obtain ⟨hheld', heq⟩ := hchg.launched hheld
  rw [heq] at hx
  obtain ⟨hkube, hhnd, lease, hle⟩ := hc.leased e hent hx hheld'
  have hkube' : e'.spec.runtimeType = .kubernetes := by
    rw [hchg.spec]
    exact hkube
  rcases hchg.lease with ⟨heq', hrng⟩ | hlsd | ⟨hpreparing, hpick⟩ | hidle
  · refine ⟨hkube', hchg.handled.trans hhnd, lease, ?_⟩
    rw [heq', hchg.startedAt, if_neg hrng, hchg.spec]
    exact hle
  · refine hlsd.outlasts hkube' (hchg.handled.trans hhnd) ?_ hnow
    intro s hs
    rw [hchg.startedAt] at hs
    split_ifs at hs with hrng
    · exact (some.inj hs).symm.le
    · exact htimed.started t e hent hheld' s hs
  · -- only an assigned task is picked up
    have hasg : e.status = .assigned := by
      have halw := hchg.allowed
      rw [hpreparing] at halw
      revert halw
      cases e.status <;> decide
    exact absurd hasg (htaken hpick e hent hx)
  · exact absurd hheld' hidle

/-- **EVERY DEED** keeps the guard. -/
theorem Chronicle.Guarded.deed (hc : c.Guarded t x h T.grace) (htimed : c.Timed T.now)
    (hnow : h ≤ T.now) (htaken : T.pickup = true → c.Taken t x) (hdeed : Deed T c c') :
    c'.Guarded t x h T.grace ∧ (T.pickup = true → c'.Taken t x) := by
  cases hdeed with
  | openDay p hnew | roll p day hday
  | release u y e bill stub day usage hent hended hexec hbill hstub hact hday
      hstl =>
    exact ⟨⟨hc.minted, hc.leased⟩, htaken⟩
  | create _ _ _ _ _ _ hexec =>
    refine ⟨⟨hc.minted, ?_⟩, ?_⟩
    · intro found hf hx
      rcases get?_insert_cases hf with ⟨_, rfl⟩ | hold
      · rw [hexec] at hx
        cases hx
      · exact hc.leased found hold hx
    · intro hpick found hf hx
      rcases get?_insert_cases hf with ⟨_, rfl⟩ | hold
      · rw [hexec] at hx
        cases hx
      · exact htaken hpick found hold hx
  | adjust u e e' hent hadj hlease =>
    refine ⟨hc.set rfl (fun _ _ hbill => hbill) ?_, fun hpick =>
      (htaken hpick).set rfl ?_⟩
    · rintro rfl hx hheld
      exact hc.adjusted htimed hnow hent hadj hlease hx hheld
    · rintro rfl hx hasg
      rw [hadj.status] at hasg
      have hheld : e'.status ∈ holdingStatuses := by
        rw [hadj.status, hasg]
        decide
      rw [(hadj.held hheld).2] at hx
      exact htaken hpick e hent hx hasg
  | change _ _ _ target _ hent hchg =>
    refine ⟨hc.set rfl (fun _ _ hbill => hbill) ?_, fun hpick =>
      (htaken hpick).set rfl ?_⟩
    · rintro rfl hx hheld
      exact hc.changed htimed hnow htaken hent hchg hx hheld
    · intro _ _
      rw [hchg.status]
      rcases hchg.kind with ⟨_, htgt⟩ | ⟨_, htgt⟩
      · revert htgt
        cases target <;> decide
      · revert htgt
        cases target <;> decide
  | assign _ _ _ e' _ _ _ hassigns =>
    -- the guarded execution is there already, so it is not minted again
    have hoth : e'.execution ≠ some x := by
      intro hx
      obtain ⟨minted, hmint, _⟩ := hc.minted
      rw [hassigns.execution] at hx
      rw [← some.inj hx, hassigns.bill_fresh] at hmint
      cases hmint
    exact ⟨hc.set rfl (fun _ _ hbill => get?_insert_of_some hbill _)
        (fun _ hx => absurd hx hoth),
      fun hpick => (htaken hpick).set rfl (fun _ hx => absurd hx hoth)⟩
  | preempt _ _ _ e _ hent hlau =>
    refine ⟨hc.set rfl (fun _ _ hbill => hbill) ?_, fun hpick =>
      (htaken hpick).set rfl (fun _ _ => TaskStatus.noConfusion)⟩
    rintro rfl hx _
    have hheld := holding_of_launch _ hlau
    obtain ⟨hkube, hhnd, hlease⟩ := hc.leased e hent hx hheld
    exact ⟨hkube, hhnd, hlease⟩
  | finish _ _ target _ _ _ _ hfin =>
    refine ⟨hc.set rfl (fun _ _ hbill => hbill) ?_, fun hpick =>
      (htaken hpick).set rfl ?_⟩
    · intro _ _ hheld
      exact absurd hheld (not_holding_of_final _ hfin)
    · intro _ _
      show target ≠ .assigned
      revert hfin
      cases target <;> decide
  | requeue =>
    exact ⟨hc.set rfl (fun _ _ hbill => hbill) (fun _ hx => by cases hx),
      fun hpick => (htaken hpick).set rfl (fun _ hx => by cases hx)⟩

end Deeds

/-! ## Runs against a clock -/

/-- The control plane together with the time of the last call. -/
def clockedPlane : System (Time × Db) Call where
  init s := controlPlane.init s.2
  step i s := (i.now, controlPlane.step i s.2)

theorem clockedPlane_run (calls : List Call) (s : Time × Db) :
    (clockedPlane.run calls s).2 = controlPlane.run calls s.2 := by
  induction calls generalizing s with
  | nil => rfl
  | cons i _ ih => exact ih (clockedPlane.step i s)

/-- The clock does not go back, reports are final, and every lease is computed with
    the same cleanup grace. -/
def gracedCalls (g : ℚ) (i : Call) (s : Time × Db) : Prop :=
  s.1 ≤ i.now ∧ i.op.ReportsFinal ∧ ∀ g' ∈ i.op.cleanupGrace, g' = g

/-- The same, and nobody picks the task up that has its handle already. -/
def guardedCalls (g : ℚ) (t : Uuid) (i : Call) (s : Time × Db) : Prop :=
  gracedCalls g i s
    ∧ (i.op.picksUp = true → ∀ task, s.2.tasks.get? t = some task → task.status ≠ .assigned)

/-- The terms of a call with this grace. -/
theorem gracedCalls.agrees {g : ℚ} {i : Call} {s : Time × Db} (h : gracedCalls g i s) :
    i.Agrees { i.terms with grace := g } :=
  ⟨rfl, i.agrees_terms.attempts, h.2.2, rfl⟩

theorem Chronicle.Timed.mono {clock clock' : Time} {c : Chronicle} (h : c.Timed clock)
    (hle : clock ≤ clock') : c.Timed clock' :=
  ⟨fun t e he hheld s hs => (h.started t e he hheld s hs).trans hle, h.runtime⟩

/-- A call against the clock. -/
theorem step_timed {g : ℚ} {i : Call} {s : Time × Db} (hlife : Lifecycle s.2.cluster)
    (htimed : s.2.chronicle.Timed s.1) (hi : gracedCalls g i s) :
    Lifecycle (clockedPlane.step i s).2.cluster
      ∧ (clockedPlane.step i s).2.chronicle.Timed (clockedPlane.step i s).1 := by
  have hfol : Follows anyRules s.2 (controlPlane.step i s.2) :=
    step_follows hlife (anyRules_keeps i s.2)
  refine ⟨hfol.lifecycle hlife, ?_⟩
  exact (step_tells hlife hi.2.1 hi.agrees).keeps
    (I := fun c => c.Timed i.now) (fun _ _ hc hdeed => hc.deed hdeed) (htimed.mono hi.1)

theorem reach_timed {g : ℚ} {s : Time × Db} (h : Reach clockedPlane (gracedCalls g) s) :
    Lifecycle s.2.cluster ∧ s.2.chronicle.Timed s.1 := by
  refine h.invariant (I := fun s => Lifecycle s.2.cluster ∧ s.2.chronicle.Timed s.1) ?_ ?_
  · rintro ⟨_, _⟩ ⟨_, rfl⟩
    refine ⟨Lifecycle.empty, ?_, ?_⟩
    · intro t e he
      cases he
    · intro t e x he
      cases he
  · rintro i s ⟨hlife, htimed⟩ hi
    exact step_timed hlife htimed hi

/-- What is guarded stays guarded, whatever is called. -/
theorem steps_guarded {g h : ℚ} {t x : Uuid} {s s' : Time × Db}
    (hsteps : Steps clockedPlane (guardedCalls g t) s s') (hlife : Lifecycle s.2.cluster)
    (htimed : s.2.chronicle.Timed s.1) (hgrd : s.2.chronicle.Guarded t x h g)
    (hclock : h ≤ s.1) :
    Lifecycle s'.2.cluster ∧ s'.2.chronicle.Guarded t x h g := by
  have hall := hsteps.preserves (I := fun s => Lifecycle s.2.cluster
    ∧ s.2.chronicle.Timed s.1 ∧ s.2.chronicle.Guarded t x h g ∧ h ≤ s.1) ?_
    ⟨hlife, htimed, hgrd, hclock⟩
  · exact ⟨hall.1, hall.2.2.1⟩
  · rintro i s ⟨hlife, htimed, hgrd, hclock⟩ ⟨hi, hpick⟩
    obtain ⟨hlife', htimed'⟩ := step_timed hlife htimed hi
    have htaken : i.terms.pickup = true → s.2.chronicle.Taken t x := by
      intro hpickup e he _
      obtain ⟨task, hrow, rfl⟩ := get?_map_eq_some.mp he
      exact hpick hpickup task hrow
    have hkept := (step_tells hlife hi.2.1 hi.agrees).keeps
      (I := fun c => c.Timed i.now ∧ c.Guarded t x h g ∧ (i.terms.pickup = true → c.Taken t x))
      (fun _ _ hc hdeed => ⟨hc.1.deed hdeed,
        Guarded.deed (T := { i.terms with grace := g }) hc.2.1 hc.1 (hclock.trans hi.1)
          hc.2.2 hdeed⟩)
      ⟨htimed.mono hi.1, hgrd, htaken⟩
    exact ⟨hlife', htimed', hkept.2.1, hclock.trans hi.1⟩

/-- **`record_runtime_handle`** for a Job sets up the guard. -/
theorem recordRuntimeHandle_guards {T : Terms} {db db' : Db} {c : Caller}
    {o : RuntimeObservation} {task' : Task} (htimed : db.chronicle.Timed T.now)
    (ho : o.runtimeType = "kubernetes")
    (h : recordRuntimeHandle T.now c o T.grace db = .ok task' db') :
    db'.chronicle.Guarded c.taskId c.executionId T.now T.grace := by
  obtain ⟨task, execution, e', hfence, hexec, hkind, hadj, hhnd, hlsd, hdb⟩ :=
    recordRuntimeHandle_entry h
  have hrt : execution.runtimeType = .kubernetes := by
    rw [ho] at hkind
    revert hkind
    cases execution.runtimeType <;> decide
  have hent := chronicle_entry hfence.row
  rw [hdb]
  refine ⟨⟨execution.bill, chronicle_bill hexec, hrt⟩, ?_⟩
  intro found hf hx hheld
  obtain rfl : e' = found := by
    rw [Chronicle.having, get?_set_self hent] at hf
    exact some.inj hf
  obtain ⟨hheld', heq⟩ := hadj.held hheld
  rw [heq] at hx
  -- the execution was minted for the runtime of the task
  obtain ⟨_, hbill, hbill'⟩ := htimed.runtime c.taskId task.entry c.executionId hent hheld' hx
  have hkube : e'.spec.runtimeType = .kubernetes := by
    rw [chronicle_bill hexec] at hbill
    rw [hadj.spec, ← hbill', ← some.inj hbill]
    exact hrt
  refine (hlsd ho).outlasts hkube hhnd ?_ (le_refl _)
  intro s hs
  rw [hadj.startedAt] at hs
  exact htimed.started c.taskId task.entry hent hheld' s hs

/-- **`recover_expired`** leaves a task alone whose lease has not expired. -/
theorem recoverExpired_unexpired {now : Time} {locked : List Uuid} {limit : ℕ}
    {attempts : ℤ} {grace : ℚ} {db : Db} {t : Uuid} {task : Task}
    (hlife : Lifecycle db.cluster) (hrow : db.tasks.get? t = some task)
    (hlease : ¬ task.Expired now) :
    (controlPlane.step ⟨now, .recoverExpired locked limit attempts grace⟩ db).tasks.get? t
      = some task := by
  show (commit (void (recoverExpired now locked limit attempts grace)) db).tasks.get? t = _
  rw [commit]
  cases hrun : void (recoverExpired now locked limit attempts grace) db with
  | error => exact hrow
  | ok u db' =>
    obtain ⟨_, h⟩ := void_ok hrun
    obtain ⟨_, _, _, huns, hlife', hsel, hr⟩ := recoverExpired_pass hlife h
    show db'.tasks.get? t = some task
    rw [(recoverTasks_recovers hlife' hsel hr).2 t ?_, huns.1]
    · exact hrow
    · intro ht
      obtain ⟨_, hoth, hexp⟩ := hsel.good t ht
      rw [huns.1, hrow] at hoth
      rw [← some.inj hoth] at hexp
      exact hlease hexp

/-- **NO RACE**: from the commit of a Kubernetes handle on, as long as the task holds
    the execution, its lease outlasts the Job, and no recovery touches it before. -/
theorem kubernetes_job_never_raced (g : ℚ) (clock : Time) (db : Db)
    (hreach : Reach clockedPlane (gracedCalls g) (clock, db)) (now : Time)
    (hclock : clock ≤ now) (c : Caller) (o : RuntimeObservation)
    (ho : o.runtimeType = "kubernetes") (recorded : Task) (db' : Db)
    (hrec : recordRuntimeHandle now c o g db = .ok recorded db') (later : Time × Db)
    (hlater : Steps clockedPlane (guardedCalls g c.taskId) (now, db') later) (task : Task)
    (hrow : later.2.tasks.get? c.taskId = some task)
    (hx : task.executionId = some c.executionId) (hact : task.status ∈ activeTaskStatuses) :
    (∃ lease, task.leaseExpiresAt = some lease
        ∧ task.startedAt.getD now + task.timeoutSeconds + g ≤ lease)
      ∧ ∀ now' locked limit attempts grace,
        now' ≤ task.startedAt.getD now + task.timeoutSeconds + g →
        (controlPlane.step ⟨now', .recoverExpired locked limit attempts grace⟩
          later.2).tasks.get? c.taskId = some task := by
  obtain ⟨hlife, htimed⟩ := reach_timed hreach
  have hi : gracedCalls g ⟨now, .recordRuntimeHandle c o g⟩ (clock, db) := by
    refine ⟨hclock, ?_, ?_⟩
    · intro s hs
      cases hs
    · intro _ hg'
      exact (some.inj hg').symm
  have hstep : clockedPlane.step ⟨now, .recordRuntimeHandle c o g⟩ (clock, db) = (now, db') := by
    show (now, commit (void (recordRuntimeHandle now c o g)) db) = (now, db')
    rw [commit_void, commit_of_ok hrec]
  obtain ⟨hlife', htimed'⟩ := step_timed hlife htimed hi
  rw [hstep] at hlife' htimed'
  have hgrd : db'.chronicle.Guarded c.taskId c.executionId now g :=
    recordRuntimeHandle_guards (T := ⟨now, 0, g, false⟩) (htimed.mono hclock) ho hrec
  obtain ⟨hlife'', hkept⟩ := steps_guarded hlater hlife' htimed' hgrd (le_refl now)
  have hheld := holding_of_active hlife'' hrow hact
  obtain ⟨_, _, lease, hlease, hle⟩ := hkept.leased task.entry (chronicle_entry hrow) hx hheld
  refine ⟨⟨lease, hlease, hle⟩, ?_⟩
  intro _ _ _ _ _ hearly
  refine recoverExpired_unexpired hlife'' hrow ?_
  rintro ⟨_, _, hf, hexp⟩
  have heq : task.leaseExpiresAt = some lease := hlease
  rw [mem_def, heq] at hf
  rw [← some.inj hf] at hexp
  exact absurd (hearly.trans hle) (not_le.mpr hexp)

instance (g : ℚ) (i : Call) (s : Time × Db) : Decidable (gracedCalls g i s) :=
  inferInstanceAs (Decidable (_ ∧ _ ∧ _))

/-- A worker that runs its tasks as Jobs. -/
def jobWorker : WorkerRegistration where
  hostname := "h"
  concurrency := 4
  cpuCount := 4
  memoryTotalMb := 4096
  runtimeTypes := ["kubernetes"]

/-- A task that runs as a Job is claimed. -/
def jobCalls : List Call :=
  [⟨0, .register "w" jobWorker 100⟩,
   ⟨1, .createQueued 1 { halfCoreTask [] with runtimeType := .kubernetes }⟩,
   ⟨2, .claim 1 "w" 11 30 none standardPrices []⟩, ⟨3, .markPulling firstOwner 30 5⟩]

def jobCloud : Db := controlPlane.run jobCalls freshCloud

/-- The Job of the first execution. -/
def firstJob : RuntimeObservation where
  runtimeType := "kubernetes"
  resourceKind := "job"
  resourceName := "task-1"
  runtimeNamespace := some "batch"
  resourceUid := some "uid"
  runtimeWorkerSessionId := some 100
  specHash := some "hash"
  observedPodName := none
  observedPodUid := none

/-- The Job starts two seconds after its handle was recorded. -/
def startCalls : List Call :=
  [⟨5, .markStarting firstOwner 30 5⟩, ⟨6, .markRunning firstOwner 30 5⟩]

def startedJob (db : Db) : Db := controlPlane.run startCalls db

theorem startCalls_guarded (db : Db) :
    Steps clockedPlane (guardedCalls 5 1) (4, db) (clockedPlane.run startCalls (4, db)) := by
  refine Steps.run startCalls Steps.refl ⟨⟨⟨?_, ?_⟩, ?_⟩, ⟨⟨?_, ?_⟩, ?_⟩, trivial⟩
  · show (4 : ℚ) ≤ 5
    norm_num
  · decide
  · exact fun hpick => by cases hpick
  · show (5 : ℚ) ≤ 6
    norm_num
  · decide
  · exact fun hpick => by cases hpick

/-- With a timeout of 60 seconds and a grace of 5, nobody recovers it up to 71. -/
theorem kubernetes_job_never_raced_of_a_start : ∃ db' task,
    commit (recordRuntimeHandle 4 firstOwner firstJob 5) jobCloud = db'
      ∧ (startedJob db').tasks.get? 1 = some task ∧ task.startedAt = some 6
      ∧ (∃ lease, task.leaseExpiresAt = some lease ∧ 71 ≤ lease)
      ∧ (controlPlane.step ⟨71, .recoverExpired [] 10 3 5⟩ (startedJob db')).tasks.get? 1
        = some task := by
  have hok : (match recordRuntimeHandle 4 firstOwner firstJob 5 jobCloud with
      | .ok _ _ => true
      | .error _ _ => false) = true := by decide +kernel
  have hst : ((startedJob (commit (recordRuntimeHandle 4 firstOwner firstJob 5)
      jobCloud)).tasks.get? 1).map (fun task => (task.startedAt, task.executionId,
        task.status, task.timeoutSeconds)) = some (some 6, some 11, .running, 60) := by
    decide +kernel
  have hreach : Reach clockedPlane (gracedCalls 5) (clockedPlane.run jobCalls (0, freshCloud)) :=
    (Reach.init (S := clockedPlane) (s := (0, freshCloud)) freshCloud_init).run jobCalls
      (by decide +kernel)
  cases hrecord : recordRuntimeHandle 4 firstOwner firstJob 5 jobCloud with
  | error =>
    rw [hrecord] at hok
    cases hok
  | ok recorded db' =>
    rw [commit_of_ok hrecord] at hst
    obtain ⟨task, hrow, hall⟩ := map_eq_some_iff.mp hst
    obtain ⟨hbeg, hx, hrng, htimeout⟩ : task.startedAt = some 6
        ∧ task.executionId = some 11 ∧ task.status = .running
        ∧ task.timeoutSeconds = 60 := by
      simpa only [Prod.mk.injEq] using hall
    have hrun : (clockedPlane.run startCalls (4, db')).2 = startedJob db' :=
      clockedPlane_run startCalls (4, db')
    obtain ⟨hlease, hrec⟩ := kubernetes_job_never_raced 5 3 jobCloud hreach 4
      (by norm_num) firstOwner firstJob rfl recorded db' hrecord _ (startCalls_guarded db')
      task (by rw [hrun]; exact hrow) hx (by rw [hrng]; decide)
    rw [hbeg, htimeout] at hlease hrec
    rw [hrun] at hrec
    refine ⟨db', task, commit_of_ok hrecord, hrow, hbeg, ?_, ?_⟩
    · obtain ⟨lease, hsome, hle⟩ := hlease
      refine ⟨lease, hsome, le_trans ?_ hle⟩
      norm_num
    · refine hrec 71 [] 10 3 5 ?_
      norm_num

end MiniAiCloud
