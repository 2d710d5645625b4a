import ThermalGauge.Proofs.Gauge
import ThermalGauge.Settings

/-!
# Settings that build

Variables put a margin into settings only if a ramp can have it.  What they make of the default
settings therefore always builds.  Whatever is built, a gauge asks the temperature sensors last.
-/

namespace ThermalGauge

namespace Settings

/-- The margin is one that a ramp can have. -/
def Usable (s : Settings) : Prop :=
  s.onsetMargin.isFinite = true ∧ s.onsetMargin.isPositive = true

theorem usable_default : (default : Settings).Usable :=
  ⟨(default : Ramp).finite, (default : Ramp).positive⟩

theorem readMargin_eq_ok_iff {text : String} {margin : Binary32} :
    readMargin text = .ok margin ↔
      Binary32.read (Text.trim text) = .ok margin ∧
        margin.isFinite = true ∧ margin.isPositive = true := by
  cases hread : Binary32.read (Text.trim text) with
  | error why => simp [readMargin, hread]
  | ok value =>
      have hcheck : (value.isFinite && value.isPositive) = true ↔
          value.isFinite = true ∧ value.isPositive = true := Bool.and_eq_true_iff
      simp only [readMargin, hread, hcheck, Except.ok.injEq]
      split
      · next hvalue =>
        constructor
        · rintro ⟨⟩
          exact ⟨rfl, hvalue⟩
        · rintro ⟨rfl, -⟩
          rfl
      · next hvalue =>
        constructor
        · rintro ⟨⟩
        · rintro ⟨rfl, hmargin⟩
          exact absurd hmargin hvalue

theorem usable_of_readMargin {text : String} {margin : Binary32}
    (h : readMargin text = .ok margin) :
    margin.isFinite = true ∧ margin.isPositive = true :=
  (readMargin_eq_ok_iff.mp h).2

namespace Usable

variable {s : Settings}

theorem of_onsetMargin_eq (h : s.Usable) {s' : Settings}
    (hmargin : s'.onsetMargin = s.onsetMargin) : s'.Usable := by
  unfold Usable
  rw [hmargin]
  exact h

theorem applySource (h : s.Usable) (text : Option String) : (s.applySource text).1.Usable := by
  apply h.of_onsetMargin_eq
  unfold Settings.applySource
  split
  · rfl
  · split <;> rfl

theorem applyRoot (h : s.Usable) (text : Option String) : (s.applyRoot text).1.Usable := by
  apply h.of_onsetMargin_eq
  cases text with
  | none => rfl
  | some text =>
      simp only [Settings.applyRoot]
      split <;> rfl

theorem applyMargin (h : s.Usable) (text : Option String) : (s.applyMargin text).1.Usable := by
  cases text with
  | none => exact h
  | some text =>
      cases hread : readMargin text with
      | error why =>
          apply h.of_onsetMargin_eq
          simp only [Settings.applyMargin, hread]
      | ok margin =>
          have hmargin := usable_of_readMargin hread
          simp only [Settings.applyMargin, hread]
          exact hmargin

theorem applyLookup (h : s.Usable) (lookup : Lookup) : (s.applyLookup lookup).1.Usable := by
  have hsource := h.applySource (lookup .source)
  have hroot := hsource.applyRoot (lookup .sysfsRoot)
  have hmargin := hroot.applyMargin (lookup .onsetMargin)
  simpa only [Settings.applyLookup] using hmargin

theorem applyEnvironment (h : s.Usable) (e : Environment) : (s.applyEnvironment e).1.Usable :=
  h.applyLookup e.lookup

theorem ramp (h : s.Usable) : s.ramp = .ok ⟨s.onsetMargin, h.1, h.2⟩ := by
  have hmargin : s.onsetMargin.isFinite = true ∧ s.onsetMargin.isPositive = true := h
  simp only [Settings.ramp, Ramp.ofMargin]
  rw [dif_pos hmargin]
  rfl

theorem exists_build (h : s.Usable) :
    ∃ gauge, s.build = .ok gauge ∧ gauge.selection = s.selection := by
  unfold build
  rw [h.ramp]
  cases hs : s.selection <;> exact ⟨_, rfl, rfl⟩

end Usable

theorem sensorsLast_of_build {s : Settings} {gauge : Gauge} (h : s.build = .ok gauge) :
    Probe.SensorsLast gauge.probes := by
  unfold build at h
  cases hs : s.selection with
  | cooling =>
      rw [hs] at h
      cases h
      exact .cooling _ .nil
  | auto =>
      cases hr : s.ramp <;> rw [hs, hr] at h <;> cases h
      exact .cooling _ (.sensors _)
  | components =>
      cases hr : s.ramp <;> rw [hs, hr] at h <;> cases h
      exact .sensors _

/-- The margin makes no difference where the temperature sensors are not read. -/
theorem build_congr {s s' : Settings} (hselection : s.selection = s'.selection)
    (hroot : s.sysfsRoot = s'.sysfsRoot)
    (hmargin : s.selection ≠ .cooling → s.onsetMargin = s'.onsetMargin) : s.build = s'.build := by
  unfold build ramp
  rw [← hselection, hroot]
  cases hs : s.selection with
  | cooling => rfl
  | auto => rw [hmargin (by simp [hs])]
  | components => rw [hmargin (by simp [hs])]

theorem ramp_of_not_usable {s : Settings} (h : ¬ s.Usable) :
    s.ramp = .error (.misconfigured (.margin s.onsetMargin)) := by
  have hmargin : ¬ (s.onsetMargin.isFinite = true ∧ s.onsetMargin.isPositive = true) := h
  simp only [Settings.ramp, Ramp.ofMargin]
  rw [dif_neg hmargin]
  rfl

theorem usable_of_build {s : Settings} {gauge : Gauge} (h : s.build = .ok gauge)
    (hs : s.selection ≠ .cooling) : s.Usable := by
  refine Classical.byContradiction fun hmargin => ?_
  unfold build at h
  rw [ramp_of_not_usable hmargin] at h
  cases hselection : s.selection with
  | cooling => exact hs hselection
  | auto =>
      rw [hselection] at h
      cases h
  | components =>
      rw [hselection] at h
      cases h

theorem exists_build_applyEnvironment (e : Environment) :
    ∃ gauge, ((default : Settings).applyEnvironment e).1.build = .ok gauge ∧
      Probe.SensorsLast gauge.probes := by
  obtain ⟨gauge, hbuild, -⟩ := (usable_default.applyEnvironment e).exists_build
  exact ⟨gauge, hbuild, sensorsLast_of_build hbuild⟩

end Settings

end ThermalGauge
