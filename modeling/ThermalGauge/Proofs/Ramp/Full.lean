import ThermalGauge.Proofs.Ramp

/-!
# Full load from the critical temperature on

At the critical temperature the distance from the exact onset is the whole margin, but the onset is
rounded, and a small margin may be lost in that.  The load is full exactly where the distance from
the rounded onset is at least `33386659 / 2 ^ 25` of the margin, a little less than 99.5 percent.  A
margin of at least the 83887th part of the critical temperature is safe.
-/

namespace ThermalGauge

open Binary32

namespace Ramp

variable {r : Ramp} {t c : Binary32}

/-- The share of the margin from which the load is full: the least that, rounded as a share and
again as a percentage, comes to 99 and a half. -/
def fullShare : ℚ := 33386659 / 2 ^ 25

section Thresholds

/-! A percentage of 99 and a half is the count `13041664 * 2 ^ 132`, and the least share that
becomes it is the count `16693330 * 2 ^ 125`.  Each is written with the significand before it, as
the rule of rounding has it. -/

theorem ofPercent_eq_full_iff_percentage (h : IsReading t c) :
    Load.ofPercent (r.percentage t c) = .full ↔
      (13041663 + 1) * 2 ^ 132 ≤ (r.percentage t c).place := by
  have hcount : (199 / 2 * unitsOfOne : ℚ) = ((13041663 + 1) * 2 ^ 132 : Int) := by
    rw [unitsOfOne_eq]
    norm_num
  rw [Load.ofPercent_eq_full_iff (r.percentage_ne_nan h), exact, le_div_iff₀ unitsOfOne_pos,
    hcount, Int.cast_le]

theorem le_percentage_iff (h : IsReading t c) :
    (13041663 + 1) * 2 ^ 132 ≤ (r.percentage t c).place ↔
      26083327 * 2 ^ 132 ≤ 200 * (r.share t c).place := by
  have hmiddle : (2 * (13041663 : Nat) + 1) * 2 ^ 132 = (26083327 * 2 ^ 132 : ℚ) := by norm_num
  have hlimit : (13041663 + 1) * 2 ^ 132 ≤ unitsLimit := by decide +kernel
  have hreach : (26083327 * 2 ^ 132 : ℚ) ≤ 2 * (100 * unitsLimit) := by
    have hcounts : 26083327 * 2 ^ 132 ≤ 2 * (100 * unitsLimit) := by decide +kernel
    exact_mod_cast hcounts
  rw [← hmiddle] at hreach
  have hreached := scales_percentage.succ_mul_le_place_iff (r.share_ne_nan h) (by norm_num)
    (.inr (by norm_num)) (by norm_num) hlimit hreach
  have hdouble : 2 * (100 * ((r.share t c).place : ℚ)) = 200 * (r.share t c).place := by ring
  rw [hmiddle, hdouble] at hreached
  exact_mod_cast hreached

/-- Between the two counts no share stands. -/
theorem le_share_iff (r : Ramp) (t c : Binary32) :
    26083327 * 2 ^ 132 ≤ 200 * (r.share t c).place ↔
      (16693329 + 1) * 2 ^ 125 ≤ (r.share t c).place := by
  constructor
  · intro hle
    obtain ⟨j, hj⟩ := two_pow_dvd_place (x := r.share t c) (e := 125) (by omega)
    rw [hj] at hle ⊢
    omega
  · omega

theorem le_distance_iff (h : IsReading t c) :
    (16693329 + 1) * 2 ^ 125 ≤ (r.share t c).place ↔
      33386659 * r.margin.place ≤ 2 ^ 25 * (r.distance t c).place := by
  have hmargin : (0 : ℚ) < r.margin.place := by exact_mod_cast isPositive_iff.mp r.positive
  have hscale (a : ℚ) : 33386659 * 2 ^ 125 ≤ 2 * (1 / r.margin.exact * a) ↔
      33386659 * r.margin.place ≤ 2 ^ 25 * a := by
    have hquotient : 2 * (1 / r.margin.exact * a) = 2 ^ 125 * (2 ^ 25 * a) / r.margin.place := by
      rw [exact, unitsOfOne_eq]
      push_cast
      field_simp
      ring
    rw [hquotient, le_div_iff₀ hmargin]
    constructor <;> intro h <;> linarith only [h]
  have hmiddle : (2 * (16693329 : Nat) + 1) * 2 ^ 125 = (33386659 * 2 ^ 125 : ℚ) := by norm_num
  have hlimit : (16693329 + 1) * 2 ^ 125 ≤ unitsLimit := by decide +kernel
  have hreach : (33386659 * 2 ^ 125 : ℚ) ≤ 2 * (1 / r.margin.exact * unitsLimit) := by
    have hbelow : (r.margin.place : ℚ) < unitsLimit := by
      exact_mod_cast (place_lt_unitsLimit r.finite).2
    rw [hscale]
    linarith only [hbelow, hmargin]
  rw [← hmiddle] at hreach
  have hreached := r.scales_share.succ_mul_le_place_iff (r.distance_ne_nan h) (by norm_num)
    (.inr (by norm_num)) (by norm_num) hlimit hreach
  rw [hmiddle, hscale] at hreached
  exact_mod_cast hreached

theorem load_eq_full_iff (h : IsReading t c) :
    r.load t c = some .full ↔ 33386659 * r.margin.place ≤ 2 ^ 25 * (r.distance t c).place := by
  rw [load_eq_some_iff, and_iff_right h, eq_comm, ofPercent_eq_full_iff_percentage h,
    le_percentage_iff h, le_share_iff, le_distance_iff h]

theorem fullShare_mul_le_iff {a : Int} :
    fullShare * r.margin.exact ≤ a / unitsOfOne ↔ 33386659 * r.margin.place ≤ 2 ^ 25 * a := by
  rw [exact, fullShare, ← mul_div_assoc, div_le_div_iff_of_pos_right unitsOfOne_pos,
    div_mul_eq_mul_div, div_le_iff₀ (by positivity), mul_comm (a : ℚ)]
  exact_mod_cast Iff.rfl

end Thresholds

section Critical

theorem onset_error (r : Ramp) (hc : c.isFinite = true) (hpos : c.isPositive = true) :
    2 ^ 24 * (c.place - r.margin.place) - (c.place - r.margin.place).natAbs ≤
        2 ^ 24 * (r.onset c).place ∧
      2 ^ 24 * (r.onset c).place ≤
        2 ^ 24 * (c.place - r.margin.place) + (c.place - r.margin.place).natAbs := by
  have hcritical : 0 < c.place := isPositive_iff.mp hpos
  have hmargin : 0 < r.margin.place := isPositive_iff.mp r.positive
  have hlimits := place_lt_unitsLimit hc
  have hmarginLimits := place_lt_unitsLimit r.finite
  rw [r.place_onset hc, ← Int.cast_sub]
  exact nearestPlace_error (by omega)

/-- It makes no difference that the distance of the critical temperature is rounded. -/
theorem distance_critical_iff (r : Ramp) (hc : c.isFinite = true) (hpos : c.isPositive = true) :
    33386659 * r.margin.place ≤ 2 ^ 25 * (r.distance c c).place ↔
      33386659 * r.margin.place ≤ 2 ^ 25 * (c.place - (r.onset c).place) := by
  have hcritical : 0 < c.place := isPositive_iff.mp hpos
  have hmargin : 0 < r.margin.place := isPositive_iff.mp r.positive
  have hbelow := r.onset_le_critical hc
  have herror := r.onset_error hc hpos
  have hdistance := r.place_distance ⟨hc, hc, hpos⟩
  rw [← Int.cast_sub] at hdistance
  by_cases hsmall : 4 * r.margin.place ≤ c.place
  · -- The onset is more than half of the critical temperature, so the distance is exact.
    rw [nearestPlace_sub hbelow (by omega)] at hdistance
    rw [hdistance]
  · -- The margin is great against what rounding takes of it, twice.
    have hspan : ((c.place - r.margin.place).natAbs : Int) ≤ 3 * r.margin.place := by omega
    have hgap : 2 ^ 24 * r.margin.place - 3 * r.margin.place ≤
        2 ^ 24 * (c.place - (r.onset c).place) := by omega
    refine iff_of_true ?_ (by omega)
    rcases le_total (c.place - (r.onset c).place) unitsLimit with hle | hge
    · have hkept := (nearestPlace_error (n := c.place - (r.onset c).place) (by omega)).1
      rw [← hdistance] at hkept
      omega
    · have hmarginLimits := place_lt_unitsLimit r.finite
      have hfar := unitsLimit_le_nearestPlace (q := (c.place - (r.onset c).place : Int))
        (by exact_mod_cast hge)
      rw [← hdistance] at hfar
      omega

theorem load_full_from_critical_iff (r : Ramp) (hc : c.isFinite = true)
    (hpos : c.isPositive = true) :
    (∀ t, t.isFinite = true → c.exact ≤ t.exact → r.load t c = some .full) ↔
      33386659 * r.margin.place ≤ 2 ^ 25 * (c.place - (r.onset c).place) := by
  rw [← r.distance_critical_iff hc hpos, ← load_eq_full_iff ⟨hc, hc, hpos⟩]
  constructor
  · intro h
    exact h c hc le_rfl
  · intro h t ht hle
    have hdistance := distance_mono_temperature (r := r) ⟨hc, hc, hpos⟩ ⟨ht, hc, hpos⟩ hle
    rw [load_eq_full_iff ⟨hc, hc, hpos⟩] at h
    rw [load_eq_full_iff ⟨ht, hc, hpos⟩]
    omega

/-- Where the load is full: at a single temperature, from the critical one on, and for which
margins always. -/
theorem full_from_critical_iff (r : Ramp) {c : Binary32} (hc : c.isFinite = true)
    (hpos : c.isPositive = true) :
    (∀ t, t.isFinite = true →
      (r.load t c = some .full ↔ fullShare * r.margin.exact ≤ (t - (c - r.margin)).exact)) ∧
    ((∀ t, t.isFinite = true → c.exact ≤ t.exact → r.load t c = some .full) ↔
      fullShare * r.margin.exact ≤ c.exact - (c - r.margin).exact) ∧
    (c.exact ≤ 83887 * r.margin.exact →
      ∀ t, t.isFinite = true → c.exact ≤ t.exact → r.load t c = some .full) := by
  have hgap : c.exact - (c - r.margin).exact =
      (c.place - (r.onset c).place : Int) / unitsOfOne := by
    rw [exact, exact, ← sub_div, Int.cast_sub]
    rfl
  refine ⟨?_, ?_, ?_⟩
  · intro t ht
    rw [load_eq_full_iff ⟨ht, hc, hpos⟩]
    exact fullShare_mul_le_iff.symm
  · rw [r.load_full_from_critical_iff hc hpos, hgap, fullShare_mul_le_iff]
  · intro hsafe
    have hcritical : 0 < c.place := isPositive_iff.mp hpos
    have hmargin : 0 < r.margin.place := isPositive_iff.mp r.positive
    have herror := r.onset_error hc hpos
    have hplaces : c.place ≤ 83887 * r.margin.place := by
      rw [exact, exact, ← mul_div_assoc, div_le_div_iff_of_pos_right unitsOfOne_pos] at hsafe
      exact_mod_cast hsafe
    have hspan : ((c.place - r.margin.place).natAbs : Int) ≤ 83886 * r.margin.place := by omega
    rw [r.load_full_from_critical_iff hc hpos]
    omega

/-- The margin of 20 degrees is safe for a critical temperature of 100. -/
theorem full_from_hundred :
    (ofNat 100).isFinite = true ∧ (ofNat 100).isPositive = true ∧
      (ofNat 100).exact ≤ 83887 * (default : Ramp).margin.exact ∧
      ∀ t, t.isFinite = true → (ofNat 100).exact ≤ t.exact →
        (default : Ramp).load t (ofNat 100) = some .full := by
  have hfinite : (ofNat 100).isFinite = true := by decide +kernel
  have hpositive : (ofNat 100).isPositive = true := by decide +kernel
  have hsafe : (ofNat 100).exact ≤ 83887 * (default : Ramp).margin.exact := by decide +kernel
  exact ⟨hfinite, hpositive, hsafe, (full_from_critical_iff default hfinite hpositive).2.2 hsafe⟩

/-- A margin of a millionth of a degree is lost in the rounding of an onset at 100 degrees. -/
theorem exists_not_full_at_critical :
    ¬ ∀ (r : Ramp) (t c : Binary32), t.isFinite = true → c.isFinite = true →
      c.isPositive = true → c.exact ≤ t.exact → r.load t c = some .full := by
  intro h
  have hfull := h ⟨ofBits 0x358637BD, by decide +kernel, by decide +kernel⟩ (ofNat 100) (ofNat 100)
    (by decide +kernel) (by decide +kernel) (by decide +kernel) le_rfl
  exact absurd hfull (by decide +kernel)

end Critical

end Ramp

end ThermalGauge
