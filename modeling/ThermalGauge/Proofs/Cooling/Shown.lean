import ThermalGauge.Proofs.Cooling.Listing
import ThermalGauge.Proofs.Ratio

/-!
# What cooling devices show

A device can be used if both of its files hold numbers and it has steps.  A sample is the
greatest share of steps taken that a usable device shows, so it depends on what is shown and not
on which device shows it, nor on devices that cannot be used.
-/

namespace ThermalGauge

namespace Cooling

/-- How many steps a device has taken, out of those it has. -/
structure Steps where
  taken : UInt64
  all : UInt64
  all_ne : all ≠ 0
  deriving DecidableEq

namespace Steps

/-- The share of the steps that is taken, as a percentage rounded down. -/
def share (s : Steps) : Nat := 100 * min s.taken.toNat s.all.toNat / s.all.toNat

variable {s s' : Steps}

theorem share_le (s : Steps) : s.share ≤ 100 := Load.share_le_hundred _ _

/-- Of the same number of steps at least as many are taken. -/
def Raised (s s' : Steps) : Prop := s'.all = s.all ∧ s.taken ≤ s'.taken

theorem raised_refl (s : Steps) : s.Raised s := ⟨rfl, UInt64.le_refl _⟩

theorem share_le_of_raised (h : s.Raised s') : s.share ≤ s'.share := by
  obtain ⟨hall, htaken⟩ := h
  rw [share, share, hall]
  apply Load.share_le_share_of_taken_le
  exact UInt64.le_iff_toNat_le.mp htaken

def load (s : Steps) : Load := ⟨s.share, s.share_le⟩

theorem ofRatio_eq (s : Steps) : Load.ofRatio s.taken s.all = some s.load :=
  Load.ofRatio_eq_some_iff.mpr ⟨s.all_ne, rfl⟩

end Steps

/-- What a device shows, if it can be used. -/
def steps? (t : FileTree) (device : Path) : Option Steps :=
  match readNumber t (currentState device), readNumber t (maxState device) with
  | .ok taken, .ok all => if h : all = 0 then none else some ⟨taken, all, h⟩
  | _, _ => none

def Shows (t : FileTree) (root : Path) (s : Steps) : Prop :=
  ∃ device ∈ devices t root, steps? t device = some s

variable {t t' : FileTree} {root root' device : Path} {s : Steps} {load : Load}

theorem steps?_eq_some_iff :
    steps? t device = some s ↔ readNumber t (currentState device) = .ok s.taken ∧
      readNumber t (maxState device) = .ok s.all := by
  unfold steps?
  split
  · rename_i taken all hcurrent hmax
    rw [hcurrent, hmax]
    constructor
    · intro h
      split at h
      · cases h
      · cases h
        exact ⟨rfl, rfl⟩
    · rintro ⟨htaken, hall⟩
      cases htaken
      cases hall
      rw [dif_neg s.all_ne]
  · rename_i hnone
    constructor
    · intro h
      cases h
    · rintro ⟨hcurrent, hmax⟩
      exact absurd hmax (hnone _ _ hcurrent)

theorem load?_eq (t : FileTree) (device : Path) :
    load? t device = (steps? t device).map Steps.load := by
  unfold load? deviceLoad steps?
  cases hcurrent : readNumber t (currentState device) with
  | error fault => rfl
  | ok taken =>
      cases hmax : readNumber t (maxState device) with
      | error fault => rfl
      | ok all =>
          by_cases hall : all = 0
          · simp only [Load.ofRatio_eq_none_iff.mpr hall, dif_pos hall, Option.map_none]
          · simp only [dif_neg hall, Option.map_some]
            exact Steps.ofRatio_eq ⟨taken, all, hall⟩

theorem mem_loads_iff : load ∈ loads t root ↔ ∃ s, Shows t root s ∧ s.load = load := by
  simp only [loads, List.mem_filterMap, load?_eq, Option.map_eq_some_iff]
  constructor
  · rintro ⟨device, hdevice, s, hs, hload⟩
    exact ⟨s, ⟨device, hdevice, hs⟩, hload⟩
  · rintro ⟨s, ⟨device, hdevice, hs⟩, hload⟩
    exact ⟨device, hdevice, s, hs, hload⟩

theorem sample_cases (t : FileTree) (root : Path) :
    (∃ load, Load.greatest (loads t root) = some load ∧ sample t root = .ok load) ∨
      (Load.greatest (loads t root) = none ∧ sample t root = .error (.noSensors sourceName)) := by
  unfold sample
  cases Load.greatest (loads t root) with
  | some load => exact .inl ⟨load, rfl, rfl⟩
  | none => exact .inr ⟨rfl, rfl⟩

theorem sample_eq_ok_iff :
    sample t root = .ok load ↔ (∃ s, Shows t root s ∧ s.share = load.percent) ∧
      ∀ s, Shows t root s → s.share ≤ load.percent := by
  have hgreatest : sample t root = .ok load ↔ Load.greatest (loads t root) = some load := by
    rcases sample_cases t root with ⟨load', h, hsample⟩ | ⟨h, hsample⟩ <;>
      simp [h, hsample]
  rw [hgreatest, Load.greatest_eq_some_iff, mem_loads_iff]
  simp only [mem_loads_iff, Load.ext_iff]
  constructor
  · rintro ⟨hshown, hgreatest⟩
    exact ⟨hshown, fun s hs => hgreatest s.load ⟨s, hs, rfl⟩⟩
  · rintro ⟨hshown, hgreatest⟩
    refine ⟨hshown, ?_⟩
    rintro load' ⟨s, hs, hload⟩
    rw [Load.le_def, ← hload]
    exact hgreatest s hs

theorem sample_eq_error_iff :
    sample t root = .error (.noSensors sourceName) ↔ ∀ s, ¬ Shows t root s := by
  have hnone : sample t root = .error (.noSensors sourceName) ↔
      Load.greatest (loads t root) = none := by
    rcases sample_cases t root with ⟨load, h, hsample⟩ | ⟨h, hsample⟩ <;> simp [h, hsample]
  rw [hnone, Load.greatest_eq_none_iff, List.eq_nil_iff_forall_not_mem]
  simp only [mem_loads_iff]
  constructor
  · intro h s hs
    exact h s.load ⟨s, hs, rfl⟩
  · rintro h load ⟨s, hs, -⟩
    exact h s hs

theorem sample_of_devices_nil (h : devices t root = []) :
    sample t root = .error (.noSensors sourceName) := by
  rw [sample_eq_error_iff]
  rintro s ⟨device, hdevice, -⟩
  rw [h] at hdevice
  cases hdevice

theorem exists_sample_eq_ok (h : Shows t root s) : ∃ load, sample t root = .ok load := by
  rcases sample_cases t root with ⟨load, -, hsample⟩ | ⟨-, hsample⟩
  · exact ⟨load, hsample⟩
  · exact absurd h (sample_eq_error_iff.mp hsample s)

/-- The order in which the devices are found makes no difference. -/
theorem toOption_sample (t : FileTree) (root : Path) :
    (sample t root).toOption =
      Load.greatest (((found t root).filterMap (steps? t)).map Steps.load) := by
  have hmem : ∀ s, s ∈ (found t root).filterMap (steps? t) ↔ Shows t root s := by
    intro s
    simp only [List.mem_filterMap, (found_perm t root).mem_iff, Shows]
  rcases sample_cases t root with ⟨load, -, hsample⟩ | ⟨-, hsample⟩
  · obtain ⟨⟨s, hs, hshare⟩, hgreatest⟩ := sample_eq_ok_iff.mp hsample
    rw [hsample, Except.toOption, eq_comm, Load.greatest_eq_some_iff]
    refine ⟨List.mem_map.mpr ⟨s, (hmem s).mpr hs, Load.ext hshare⟩, ?_⟩
    intro load' hload'
    obtain ⟨s', hs', rfl⟩ := List.mem_map.mp hload'
    exact hgreatest s' ((hmem s').mp hs')
  · have hnone := sample_eq_error_iff.mp hsample
    rw [hsample, Except.toOption, eq_comm, Load.greatest_eq_none_iff, List.map_eq_nil_iff,
      List.eq_nil_iff_forall_not_mem]
    intro s hs
    exact hnone s ((hmem s).mp hs)

theorem sample_eq_of_found
    (h : Load.greatest (((found t root).filterMap (steps? t)).map Steps.load) = some load) :
    sample t root = .ok load := by
  have hload := (toOption_sample t root).trans h
  cases hsample : sample t root with
  | ok load' =>
      rw [hsample] at hload
      exact congrArg Except.ok (Option.some.inj hload)
  | error why =>
      rw [hsample] at hload
      cases hload

theorem sample_ne_of_found
    (h : Load.greatest (((found t' root').filterMap (steps? t')).map Steps.load) ≠
      Load.greatest (((found t root).filterMap (steps? t)).map Steps.load)) :
    sample t' root' ≠ sample t root := by
  intro hsame
  rw [← toOption_sample, ← toOption_sample, hsame] at h
  exact h rfl

/-- A load does not get smaller, nor is it lost. -/
def NotLowered (before after : Except Fault Load) : Prop :=
  ∀ load, before = .ok load → ∃ load', after = .ok load' ∧ load ≤ load'

theorem sample_notLowered
    (h : ∀ s, Shows t root s → ∃ s', Shows t' root' s' ∧ s.Raised s') :
    NotLowered (sample t root) (sample t' root') := by
  intro load hload
  obtain ⟨⟨s, hs, hshare⟩, -⟩ := sample_eq_ok_iff.mp hload
  obtain ⟨s', hs', hraised⟩ := h s hs
  obtain ⟨load', hload'⟩ := exists_sample_eq_ok hs'
  refine ⟨load', hload', ?_⟩
  rw [Load.le_def, ← hshare]
  exact Nat.le_trans (Steps.share_le_of_raised hraised) ((sample_eq_ok_iff.mp hload').2 s' hs')

theorem sample_congr (h : ∀ s, Shows t root s ↔ Shows t' root' s) :
    sample t' root' = sample t root := by
  rcases sample_cases t root with ⟨load, -, hsample⟩ | ⟨-, hsample⟩
  · rw [hsample]
    rw [sample_eq_ok_iff] at hsample ⊢
    simpa only [h] using hsample
  · rw [hsample]
    rw [sample_eq_error_iff] at hsample ⊢
    simpa only [h] using hsample

end Cooling

end ThermalGauge
