import MiniAiCloud.PreemptionProofs

/-! # Who is asked to stop

    `request_preemption` takes the candidates of a worker in the order of their priority
    and stops at the first run of them that makes room.  Stopping more tasks never makes
    less room, so whether the run is minimal is a question about its single members. -/

namespace MiniAiCloud

open Transaction Option List

section Victims

variable {worker : WorkerSnapshot} {incoming : TaskSnapshot}
  {kept released victims : List (Uuid × Task)}

/-! ## Room -/

theorem passes_iff {ε α : Type} {c : Prop} [Decidable c] {e : ε} {k : PUnit → Except ε α}
    {m : Except ε α} :
    (∃ a, (if c then throw e >>= k else m) = .ok a) ↔ ¬ c ∧ ∃ a, m = .ok a := by
  split_ifs with hc
  · refine ⟨?_, fun h => absurd hc h.1⟩
    rintro ⟨_, ha⟩
    cases ha
  · exact ⟨fun h => ⟨hc, h⟩, fun h => h.2⟩

theorem ite_filter {α : Type} {c : Prop} [Decidable c] (l : List α) (p : α → Bool) :
    (if c then l.filter p else l) = l.filter (fun a => decide (c → p a = true)) := by
  split_ifs with hc
  · exact filter_congr fun a _ => by simp [hc]
  · simp [hc]

/-- The device is one the task can be bound to. -/
def TaskSnapshot.takes (task : TaskSnapshot) (d : GpuDeviceSnapshot) : Bool :=
  decide (task.gpuMemoryMb ≠ 0 → task.gpuMemoryMb ≤ d.availableMemoryMb)
    && (decide (task.gpuModel ≠ none ∧ task.gpuModel ≠ some "" →
        some d.model = task.gpuModel) && (d.healthy && !d.allocated))

theorem evaluateDevices_passes {devices : List GpuDeviceSnapshot} :
    (∃ ids, evaluateDevices devices incoming = .ok ids)
      ↔ incoming.gpuCount ≤ devices.countP incoming.takes := by
  simp only [evaluateDevices, passes_iff, ite_filter]
  simp only [List.filter_filter, decide_eq_true_eq, ← List.countP_eq_length_filter, not_lt, not_and]
  refine ⟨fun h => h.2.2.1, fun h => ⟨fun hwants => ?_, fun hmm => ?_, h, _, rfl⟩⟩
  -- what the task takes passes each of the earlier filters
  all_goals
    refine h.trans (Int.ofNat_le.mpr (List.countP_mono_left fun d _ => ?_))
    simp only [TaskSnapshot.takes, Bool.and_eq_true, decide_eq_true_eq]
  · exact fun htakes => ⟨htakes.2.1 hwants, htakes.2.2⟩
  · exact fun htakes => ⟨htakes.1 hmm, htakes.2⟩

/-- The task fits on the worker once the released tasks have stopped. -/
def Fits (worker : WorkerSnapshot) (incoming : TaskSnapshot) (released : List (Uuid × Task)) :
    Prop :=
  ∃ ids, evaluateSnapshot (worker.freed released) incoming = .ok ids

/-- **RELEASING MORE** never takes room away. -/
theorem Fits.mono (h : Fits worker incoming kept) (hsub : kept.Sublist released)
    (hdem : ∀ row ∈ released, 0 ≤ row.2.cpuMillicores ∧ 0 ≤ row.2.memoryLimitMb) :
    Fits worker incoming released := by
  simp only [Fits, evaluateSnapshot, passes_iff, evaluateDevices_passes, not_le, not_lt] at h ⊢
  obtain ⟨honl, hcommitted, hslots, hrt, hcpu, hmm, hlabels, htaints, hdevs⟩ := h
  have hlen := hsub.length_le
  have hsum : ∀ f : Uuid × Task → ℤ, (∀ row ∈ released, 0 ≤ f row) →
      (kept.map f).sum ≤ (released.map f).sum :=
    fun f hf => (hsub.map f).sum_le_sum (forall_mem_map.mpr hf)
  have hcpus := hsum _ fun row hrow => (hdem row hrow).1
  have hmemories := hsum _ fun row hrow => (hdem row hrow).2
  refine ⟨honl, hcommitted, hslots.trans_le' ?_, hrt, hcpu.trans' ?_, hmm.trans' ?_,
    hlabels, htaints, hdevs.trans (Int.ofNat_le.mpr ?_)⟩
  · exact max_le_max_left 0 (by omega)
  · exact add_le_add_left (max_le_max_left 0 (sub_le_sub_left hcpus _)) _
  · exact add_le_add_left (max_le_max_left 0 (sub_le_sub_left hmemories _)) _
  · -- a device that is free with fewer tasks stopped is free with more
    show List.countP _ (List.map _ _) ≤ List.countP _ (List.map _ _)
    rw [countP_map, countP_map]
    refine countP_mono_left fun d _ => ?_
    simp only [Function.comp_apply]
    split_ifs with hkept hrel hrel
    · exact id
    · obtain ⟨row, hrow, hd⟩ := mem_flatMap.mp hkept
      exact absurd (mem_flatMap.mpr ⟨row, hsub.subset hrow, hd⟩) hrel
    · simp only [TaskSnapshot.takes, Bool.and_eq_true]
      exact fun htakes => ⟨htakes.1, htakes.2.1, htakes.2.2.1, rfl⟩
    · exact id

/-! ## The choice -/

/-- The victims without one of them. -/
def others (victims : List (Uuid × Task)) (victim : Uuid × Task) : List (Uuid × Task) :=
  victims.filter (fun row => row.1 ≠ victim.1)

end Victims
end MiniAiCloud
