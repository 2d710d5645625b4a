import ThermalGauge.Proofs.Cooling.Shown

/-!
# When cooling devices report throttling

Throttling is reported from a hundredth of the steps of some device on.  A smaller share is rounded
down to nothing, so no throttling is also reported where a device with more than a hundred steps
has taken a few of them.
-/

namespace ThermalGauge

namespace Cooling

variable {t : FileTree} {root : Path} {load : Load}

theorem Steps.share_pos_iff (s : Steps) : 0 < s.share ↔ s.all.toNat ≤ 100 * s.taken.toNat := by
  have hall : 0 < s.all.toNat := Load.toNat_pos_of_ne_zero s.all_ne
  rw [share, Nat.div_pos_iff]
  omega

theorem isThrottling_sample_iff (h : sample t root = .ok load) :
    load.isThrottling = true ↔ ∃ s, Shows t root s ∧ s.all.toNat ≤ 100 * s.taken.toNat := by
  obtain ⟨⟨greatest, hshown, hshare⟩, hle⟩ := sample_eq_ok_iff.mp h
  have hpercent : load.isThrottling = true ↔ 0 < load.percent := by simp [Load.isThrottling]
  rw [hpercent]
  constructor
  · intro hpos
    rw [← hshare, greatest.share_pos_iff] at hpos
    exact ⟨greatest, hshown, hpos⟩
  · rintro ⟨s, hs, hsteps⟩
    rw [← s.share_pos_iff] at hsteps
    exact hsteps.trans_le (hle s hs)

theorem isThrottling_sample_eq_false_iff (h : sample t root = .ok load) :
    load.isThrottling = false ↔ ∀ s, Shows t root s → 100 * s.taken.toNat < s.all.toNat := by
  rw [← Bool.not_eq_true, isThrottling_sample_iff h]
  push Not
  rfl

theorem taken_ne_zero_iff {s : Steps} : s.taken ≠ 0 ↔ 0 < s.taken.toNat := by
  constructor
  · exact Load.toNat_pos_of_ne_zero
  · rintro hpos hzero
    rw [hzero] at hpos
    exact absurd hpos (by decide)

/-- Throttling is reported exactly if some device has taken a hundredth of its steps.  So steps
taken go unreported exactly where every device has taken less than that, and never where all have
a hundred steps at most. -/
theorem throttling_from_hundredth (t : FileTree) (root : Path) :
    (∀ load, sample t root = .ok load →
      (load.isThrottling = true ↔ ∃ s, Shows t root s ∧ s.all.toNat ≤ 100 * s.taken.toNat)) ∧
    ((∃ load, sample t root = .ok load ∧ load.isThrottling = false ∧
        ∃ s, Shows t root s ∧ s.taken ≠ 0) ↔
      (∃ s, Shows t root s ∧ s.taken ≠ 0) ∧
        ∀ s, Shows t root s → 100 * s.taken.toNat < s.all.toNat) ∧
    ((∀ s, Shows t root s → s.all ≤ 100) → ∀ load, sample t root = .ok load →
      load.isThrottling = false → ∀ s, Shows t root s → s.taken = 0) := by
  refine ⟨fun load => isThrottling_sample_iff, ?_, ?_⟩
  · constructor
    · rintro ⟨load, hload, hidle, htaken⟩
      exact ⟨htaken, (isThrottling_sample_eq_false_iff hload).mp hidle⟩
    · rintro ⟨⟨s, hs, htaken⟩, hfew⟩
      obtain ⟨load, hload⟩ := exists_sample_eq_ok hs
      exact ⟨load, hload, (isThrottling_sample_eq_false_iff hload).mpr hfew, s, hs, htaken⟩
  · intro hsmall load hload hidle s hs
    by_contra htaken
    have hall : s.all.toNat ≤ 100 := UInt64.le_iff_toNat_le.mp (hsmall s hs)
    have hfew := (isThrottling_sample_eq_false_iff hload).mp hidle s hs
    have hpos := taken_ne_zero_iff.mp htaken
    omega

/-- One step of two hundred. -/
def barelyThrottled : FileTree := .ofEdits
  [.device (.ofText "cooling_device0") (some (Utf8.encode "1")) (some (Utf8.encode "200"))]

theorem exists_unreported_step :
    ¬ ∀ (t : FileTree) (root : Path) (load : Load), sample t root = .ok load →
      load.isThrottling = false → ∀ s, Shows t root s → s.taken = 0 := by
  intro h
  have hsample : sample barelyThrottled (.ofText ".") = .ok .none :=
    sample_eq_of_found (by decide +kernel)
  have hshows : Shows barelyThrottled (.ofText ".") ⟨1, 200, by decide⟩ :=
    ⟨.ofText "cooling_device0", (found_perm _ _).mem_iff.mp (by decide +kernel),
      by decide +kernel⟩
  exact absurd (h _ _ _ hsample rfl _ hshows) (by decide)

end Cooling

end ThermalGauge
