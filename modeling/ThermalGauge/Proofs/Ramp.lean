import ThermalGauge.Component
import ThermalGauge.Proofs.Percentage

/-!
# The ramp of a component's load

The load is a percentage that comes of four operations, each of which is rounded.  None of them
makes a NaN of the temperatures that have a load, and each keeps the order: so the load grows with
the temperature, falls where the critical temperature rises, and is 0 up to the exact onset,
although the onset itself is rounded.
-/

namespace ThermalGauge

open Binary32

namespace Ramp

variable {r : Ramp} {t t' c c' : Binary32} {l : Load}

/-- The temperature from which the load grows. -/
def onset (r : Ramp) (c : Binary32) : Binary32 := c - r.margin

def distance (r : Ramp) (t c : Binary32) : Binary32 := t - r.onset c

def share (r : Ramp) (t c : Binary32) : Binary32 := r.distance t c / r.margin

def percentage (r : Ramp) (t c : Binary32) : Binary32 := r.share t c * .ofNat 100

/-- Temperatures that have a load. -/
structure IsReading (t c : Binary32) : Prop where
  temperature : t.isFinite = true
  critical : c.isFinite = true
  positive : c.isPositive = true

theorem load_eq_some_iff :
    r.load t c = some l ↔ IsReading t c ∧ l = .ofPercent (r.percentage t c) := by
  have hload : r.load t c = if t.isFinite && c.isFinite && c.isPositive then
      some (.ofPercent (r.percentage t c)) else none := rfl
  rw [hload]
  constructor
  · intro h
    split at h
    · rename_i hreading
      simp only [Bool.and_eq_true] at hreading
      exact ⟨⟨hreading.1.1, hreading.1.2, hreading.2⟩, (Option.some.inj h).symm⟩
    · cases h
  · rintro ⟨⟨ht, hc, hpos⟩, rfl⟩
    simp [ht, hc, hpos]

section Operations

theorem place_onset (r : Ramp) (hc : c.isFinite = true) :
    (r.onset c).place = nearestPlace (c.place - r.margin.place) :=
  (place_sub hc r.finite).1

theorem neg_margin_le_onset (r : Ramp) (hc : c.isFinite = true) (hpos : c.isPositive = true) :
    -r.margin.place ≤ (r.onset c).place := by
  have hcritical : (0 : ℚ) < c.place := by exact_mod_cast isPositive_iff.mp hpos
  calc -r.margin.place = nearestPlace (-(r.margin.place : ℚ)) := by
        rw [nearestPlace_neg, nearestPlace_place]
    _ ≤ nearestPlace (c.place - r.margin.place) := nearestPlace_mono (by linarith only [hcritical])
    _ = (r.onset c).place := (r.place_onset hc).symm

theorem onset_le_critical (r : Ramp) (hc : c.isFinite = true) : (r.onset c).place ≤ c.place := by
  have hmargin : (0 : ℚ) < r.margin.place := by exact_mod_cast isPositive_iff.mp r.positive
  calc (r.onset c).place = nearestPlace (c.place - r.margin.place) := r.place_onset hc
    _ ≤ nearestPlace c.place := nearestPlace_mono (by linarith only [hmargin])
    _ = c.place := nearestPlace_place c

theorem isFinite_onset (r : Ramp) (hc : c.isFinite = true) (hpos : c.isPositive = true) :
    (r.onset c).isFinite = true := by
  have hlow := r.neg_margin_le_onset hc hpos
  have hhigh := r.onset_le_critical hc
  have hlimits := place_lt_unitsLimit hc
  have hmarginLimits := place_lt_unitsLimit r.finite
  exact isFinite_of_place (place_sub hc r.finite).2 (by omega) (by omega)

theorem place_distance (r : Ramp) (h : IsReading t c) :
    (r.distance t c).place = nearestPlace (t.place - (r.onset c).place) :=
  (place_sub h.temperature (r.isFinite_onset h.critical h.positive)).1

theorem distance_ne_nan (r : Ramp) (h : IsReading t c) : r.distance t c ≠ nan :=
  (place_sub h.temperature (r.isFinite_onset h.critical h.positive)).2

theorem scales_share (r : Ramp) : Scales (· / r.margin) (1 / r.margin.exact) :=
  scales_div r.finite r.positive

theorem scales_percentage : Scales (· * ofNat 100) 100 := by
  have hexact : (ofNat 100).exact = 100 := by
    have hplace : (ofNat 100).place = 100 * unitsOfOne := by decide +kernel
    rw [exact, hplace, Int.cast_mul, Int.cast_natCast, mul_div_cancel_right₀ _ unitsOfOne_pos.ne']
    rfl
  have hscales := scales_mul (y := ofNat 100) (by decide +kernel) (by decide +kernel)
  rwa [hexact] at hscales

theorem share_ne_nan (r : Ramp) (h : IsReading t c) : r.share t c ≠ nan :=
  r.scales_share.ne_nan (r.distance_ne_nan h)

theorem percentage_ne_nan (r : Ramp) (h : IsReading t c) : r.percentage t c ≠ nan :=
  scales_percentage.ne_nan (r.share_ne_nan h)

end Operations

section Order

theorem ofPercent_le_of_distance (h : IsReading t c) (h' : IsReading t' c')
    (hle : (r.distance t c).place ≤ (r.distance t' c').place) :
    Load.ofPercent (r.percentage t c) ≤ Load.ofPercent (r.percentage t' c') := by
  have hshare : (r.share t c).place ≤ (r.share t' c').place :=
    r.scales_share.mono (r.distance_ne_nan h) (r.distance_ne_nan h') hle
  have hpercentage : (r.percentage t c).place ≤ (r.percentage t' c').place :=
    scales_percentage.mono (r.share_ne_nan h) (r.share_ne_nan h') hshare
  exact Load.ofPercent_le_ofPercent (r.percentage_ne_nan h) (r.percentage_ne_nan h')
    (exact_le_exact.mpr hpercentage)

/-- Up to the exact onset nothing is left of the distance: rounding the onset does not carry it
over a temperature, which needs no rounding. -/
theorem distance_nonpos (h : IsReading t c) (hle : t.exact ≤ c.exact - r.margin.exact) :
    (r.distance t c).place ≤ 0 := by
  have hplaces : (t.place : ℚ) ≤ c.place - r.margin.place := by
    rw [exact, exact, exact, ← sub_div, div_le_div_iff_of_pos_right unitsOfOne_pos] at hle
    exact hle
  have honset : t.place ≤ (r.onset c).place := by
    rw [← nearestPlace_place t, r.place_onset h.critical]
    exact nearestPlace_mono hplaces
  rw [r.place_distance h, ← nearestPlace_zero]
  refine nearestPlace_mono (sub_nonpos.mpr ?_)
  exact_mod_cast honset

theorem ofPercent_of_distance_nonpos (h : IsReading t c) (hle : (r.distance t c).place ≤ 0) :
    Load.ofPercent (r.percentage t c) = .none := by
  have hshare : (r.share t c).place ≤ 0 := r.scales_share.place_nonpos (r.distance_ne_nan h) hle
  have hpercentage : (r.percentage t c).place ≤ 0 :=
    scales_percentage.place_nonpos (r.share_ne_nan h) hshare
  exact Load.ofPercent_of_nonpos (r.percentage_ne_nan h) (exact_nonpos.mpr hpercentage)

theorem distance_mono_temperature (h : IsReading t c) (h' : IsReading t' c)
    (hle : t.exact ≤ t'.exact) : (r.distance t c).place ≤ (r.distance t' c).place := by
  have hplace : (t.place : ℚ) ≤ t'.place := by exact_mod_cast exact_le_exact.mp hle
  rw [r.place_distance h, r.place_distance h']
  exact nearestPlace_mono (sub_le_sub_right hplace _)

theorem distance_anti_critical (h : IsReading t c) (h' : IsReading t c')
    (hle : c.exact ≤ c'.exact) : (r.distance t c').place ≤ (r.distance t c).place := by
  have hplace : (c.place : ℚ) ≤ c'.place := by exact_mod_cast exact_le_exact.mp hle
  have honset : (r.onset c).place ≤ (r.onset c').place := by
    rw [r.place_onset h.critical, r.place_onset h'.critical]
    exact nearestPlace_mono (sub_le_sub_right hplace _)
  rw [r.place_distance h, r.place_distance h']
  refine nearestPlace_mono (sub_le_sub_left ?_ _)
  exact_mod_cast honset

end Order

/-- There is a load for finite temperatures and a critical one above zero, and then no operation
gives a NaN, even where the distance overflows.  The load is 0 up to the exact onset, never falls
with the temperature and never grows with the critical one. -/
theorem load_shape (r : Ramp) :
    (∀ t c, (∃ l, r.load t c = some l) ↔
      t.isFinite = true ∧ c.isFinite = true ∧ c.isPositive = true) ∧
    (∀ t c l, r.load t c = some l →
      c - r.margin ≠ nan ∧ t - (c - r.margin) ≠ nan ∧ (t - (c - r.margin)) / r.margin ≠ nan ∧
        (t - (c - r.margin)) / r.margin * .ofNat 100 ≠ nan) ∧
    (∀ t c l, r.load t c = some l → t.exact ≤ c.exact - r.margin.exact → l = .none) ∧
    (∀ t t' c l l', r.load t c = some l → r.load t' c = some l' → t.exact ≤ t'.exact → l ≤ l') ∧
    (∀ t c c' l l', r.load t c = some l → r.load t c' = some l' → c.exact ≤ c'.exact → l' ≤ l) := by
  refine ⟨?_, ?_, ?_, ?_, ?_⟩
  · intro t c
    constructor
    · rintro ⟨l, hl⟩
      obtain ⟨⟨ht, hc, hpos⟩, -⟩ := load_eq_some_iff.mp hl
      exact ⟨ht, hc, hpos⟩
    · rintro ⟨ht, hc, hpos⟩
      exact ⟨_, load_eq_some_iff.mpr ⟨⟨ht, hc, hpos⟩, rfl⟩⟩
  · intro t c l hl
    obtain ⟨h, -⟩ := load_eq_some_iff.mp hl
    exact ⟨(place_sub h.critical r.finite).2, r.distance_ne_nan h, r.share_ne_nan h,
      r.percentage_ne_nan h⟩
  · intro t c l hl hle
    obtain ⟨h, rfl⟩ := load_eq_some_iff.mp hl
    exact ofPercent_of_distance_nonpos h (distance_nonpos h hle)
  · intro t t' c l l' hl hl' hle
    obtain ⟨h, rfl⟩ := load_eq_some_iff.mp hl
    obtain ⟨h', rfl⟩ := load_eq_some_iff.mp hl'
    exact ofPercent_le_of_distance h h' (distance_mono_temperature h h' hle)
  · intro t c c' l l' hl hl' hle
    obtain ⟨h, rfl⟩ := load_eq_some_iff.mp hl
    obtain ⟨h', rfl⟩ := load_eq_some_iff.mp hl'
    exact ofPercent_le_of_distance h' h (distance_anti_critical h h' hle)

end Ramp

end ThermalGauge
