import ThermalGauge.Proofs.Binary32.Places

/-!
# The nearest value

The value nearest to a number is the one that stands in its nearest place, and of two that are
equally near, the one with the even significand.  It is positive from beyond half the least positive
value on, and finite up to the middle between the greatest finite value and the next count.
-/

namespace ThermalGauge

namespace Binary32

/-- The number that counts the spacings to a value. -/
def significand (x : Binary32) : Nat := x.place.natAbs / spacing x.place.natAbs

/-- No finite value is nearer to `q`; of two that are equally near, the one with an even significand
is taken. -/
structure IsNearest (q : ℚ) (x : Binary32) : Prop where
  finite : x.isFinite = true
  nearest : ∀ y : Binary32, y.isFinite = true → |q - x.exact| ≤ |q - y.exact|
  even : ∀ y : Binary32, y.isFinite = true → y.exact ≠ x.exact →
    |q - x.exact| = |q - y.exact| → Even x.significand

section Neighbours

variable {x y : Binary32} {k e : Nat}

theorem inBinade_mul (hk : k < 2 ^ 24) (hlow : e = 0 ∨ 2 ^ 23 ≤ k) : InBinade e (k * 2 ^ e) := by
  refine ⟨hlow.imp id fun h => ?_, ?_⟩
  · rw [Nat.pow_add, Nat.mul_comm]
    exact Nat.mul_le_mul_right _ h
  · rw [Nat.pow_add, Nat.mul_comm (2 ^ e)]
    exact Nat.mul_lt_mul_of_pos_right hk (Nat.two_pow_pos e)

theorem significand_eq (hx : x.place = k * 2 ^ e) (hk : k < 2 ^ 24)
    (hlow : e = 0 ∨ 2 ^ 23 ≤ k) : x.significand = k := by
  have hcount : x.place.natAbs = k * 2 ^ e := by
    rw [hx]
    exact_mod_cast Int.natAbs_natCast _
  rw [significand, hcount, (inBinade_mul hk hlow).spacing_eq,
    Nat.mul_div_cancel k (Nat.two_pow_pos e)]

/-- With an odd count before it, the significand is even, also where it begins a binade. -/
theorem even_significand (hx : x.place = (k + 1) * 2 ^ e) (hk : k < 2 ^ 24)
    (hlow : e = 0 ∨ 2 ^ 23 ≤ k) (hodd : k % 2 = 1) : Even x.significand := by
  by_cases hlast : k + 1 = 2 ^ 24
  · have hx' : x.place = (2 ^ 23 : Nat) * 2 ^ (e + 1) := by
      rw [hx, pow_succ]
      have : ((k + 1 : Nat) : Int) = 2 ^ 24 := by exact_mod_cast congrArg Nat.cast hlast
      push_cast at this ⊢
      rw [this]
      ring
    rw [significand_eq hx' (by decide) (.inr le_rfl)]
    decide
  · rw [significand_eq (k := k + 1) (by exact_mod_cast hx) (by omega) (by omega)]
    exact Nat.even_iff.mpr (by omega)

theorem exists_count (hnonneg : 0 ≤ x.place) :
    ∃ k e : Nat, x.place = k * 2 ^ e ∧ k < 2 ^ 24 ∧ (e = 0 ∨ 2 ^ 23 ≤ k) := by
  obtain ⟨e, he⟩ := exists_inBinade x.place.natAbs
  obtain ⟨k, hk⟩ := spacing_dvd_place x
  rw [he.spacing_eq, Nat.mul_comm] at hk
  have hplace : x.place = k * 2 ^ e := by
    rw [← Int.natAbs_of_nonneg hnonneg, hk]
    exact_mod_cast rfl
  have hpos := Nat.two_pow_pos e
  refine ⟨k, e, hplace, ?_, he.low.imp id fun hlow => ?_⟩
  · have hhigh := he.high
    rw [hk, Nat.pow_add, Nat.mul_comm (2 ^ e)] at hhigh
    exact Nat.lt_of_mul_lt_mul_right hhigh
  · rw [hk, Nat.pow_add, Nat.mul_comm (2 ^ e)] at hlow
    exact Nat.le_of_mul_le_mul_right hlow hpos

/-- Between a count and the next one there is no place. -/
theorem place_le_or_le (x : Binary32) (hlow : e = 0 ∨ 2 ^ 23 ≤ k) :
    x.place ≤ k * 2 ^ e ∨ (k + 1) * 2 ^ e ≤ x.place := by
  by_cases hle : x.place ≤ k * 2 ^ e
  · exact .inl hle
  have hlt : (k * 2 ^ e : Int) < x.place := not_le.mp hle
  have hdvd : (2 ^ e : Int) ∣ x.place := by
    rcases hlow with rfl | hk
    · simp
    · apply two_pow_dvd_place
      have hcount : 2 ^ (e + 23) ≤ k * 2 ^ e := by
        rw [Nat.pow_add, Nat.mul_comm]
        exact Nat.mul_le_mul_right _ hk
      exact le_trans (by exact_mod_cast hcount) hlt.le
  obtain ⟨j, hj⟩ := hdvd
  right
  have hpos : (0 : Int) < 2 ^ e := by positivity
  rw [hj, mul_comm] at hlt
  have hkj : (k : Int) < j := (mul_lt_mul_iff_right₀ hpos).mp hlt
  rw [hj, mul_comm]
  gcongr
  exact hkj

theorem exists_count_succ (hpos : 0 < x.place) :
    ∃ k e : Nat, x.place = (k + 1) * 2 ^ e ∧ k < 2 ^ 24 ∧ (e = 0 ∨ 2 ^ 23 ≤ k) := by
  have hround := roundUnits_of_spacing_dvd (spacing_dvd_place x)
  have hne : roundUnits x.place.natAbs 1 ≠ 0 := by omega
  obtain ⟨k, e, hk, hlimit, hlow⟩ := exists_significand_roundUnits hne
  rw [hround] at hk
  refine ⟨k, e, ?_, hlimit, hlow⟩
  rw [← Int.natAbs_of_nonneg hpos.le, hk]
  exact_mod_cast rfl

end Neighbours

section Places

variable {q : ℚ} {x y : Binary32}

/-- Of the nearest place and a lower one the middle is below, or it is a tie that goes to the even
one. -/
theorem add_place_le_of_lt (hq : 0 ≤ q) (hx : x.place = nearestPlace q)
    (hy : y.place < x.place) :
    (x.place + y.place : ℚ) < 2 * q ∨
      (x.place + y.place : ℚ) = 2 * q ∧ Even x.significand ∧ ¬ Even y.significand := by
  rcases le_or_gt x.place 0 with hzero | hpos
  · have hsum : (x.place + y.place : ℚ) < 0 := by exact_mod_cast (by omega : x.place + y.place < 0)
    left
    linarith
  -- The place is reached from the middle below it, and a lower one is at most the count before.
  obtain ⟨k, e, hplace, hk, hlow⟩ := exists_count_succ hpos
  have hlimit : (k + 1) * 2 ^ e ≤ unitsLimit := by
    have := (place_mem x).2
    rw [hplace] at this
    exact_mod_cast this
  have hreached := (succ_mul_le_nearestPlace_iff hk hlow hlimit).mp (hx ▸ hplace.ge)
  have hbelow : y.place ≤ k * 2 ^ e := by
    rcases place_le_or_le y hlow with hle | hge
    · exact hle
    · rw [← hplace] at hge
      exact absurd hge hy.not_ge
  have hxq : (x.place : ℚ) = (k + 1) * 2 ^ e := by exact_mod_cast hplace
  rcases hbelow.lt_or_eq with hlt | heq
  · have hyq : (y.place : ℚ) < k * 2 ^ e := by exact_mod_cast hlt
    left
    rcases hreached with hmiddle | ⟨hmiddle, -⟩ <;> linarith
  · have hyq : (y.place : ℚ) = k * 2 ^ e := by exact_mod_cast heq
    rcases hreached with hmiddle | ⟨hmiddle, hodd⟩
    · left
      linarith
    · right
      refine ⟨by linarith, even_significand hplace hk hlow hodd, ?_⟩
      rw [significand_eq heq hk hlow, Nat.not_even_iff]
      exact hodd

/-- Of the nearest place and a higher one the middle is above, or it is a tie that goes to the even
one. -/
theorem le_add_place_of_lt (hq : 0 ≤ q) (hx : x.place = nearestPlace q)
    (hy : x.place < y.place) :
    2 * q < (x.place + y.place : ℚ) ∨
      2 * q = (x.place + y.place : ℚ) ∧ Even x.significand ∧ ¬ Even y.significand := by
  have hnonneg : 0 ≤ x.place := by
    rw [hx, nearestPlace_of_nonneg hq]
    exact Int.natCast_nonneg _
  -- A higher place is at least the next count, which is not reached.
  obtain ⟨k, e, hplace, hk, hlow⟩ := exists_count hnonneg
  have habove : (k + 1) * 2 ^ e ≤ y.place := by
    rcases place_le_or_le y hlow with hle | hge
    · rw [← hplace] at hle
      exact absurd hle hy.not_ge
    · exact hge
  have hlimit : (k + 1) * 2 ^ e ≤ unitsLimit := by
    exact_mod_cast habove.trans (place_mem y).2
  have hbetween : ¬ ((k + 1) * 2 ^ e : Int) ≤ nearestPlace q := by
    rw [← hx, hplace, not_le]
    have : (0 : Int) < 2 ^ e := by positivity
    linarith
  rw [succ_mul_le_nearestPlace_iff hk hlow hlimit, not_or, not_lt, not_and'] at hbetween
  obtain ⟨hle, heven⟩ := hbetween
  have hxq : (x.place : ℚ) = k * 2 ^ e := by exact_mod_cast hplace
  rcases habove.lt_or_eq with hlt | heq
  · have hyq : ((k + 1) * 2 ^ e : ℚ) < y.place := by exact_mod_cast hlt
    left
    linarith
  · have hyq : ((k + 1) * 2 ^ e : ℚ) = y.place := by exact_mod_cast heq
    rcases hle.lt_or_eq with hlt | hmiddle
    · left
      linarith
    · right
      have hkeven : k % 2 ≠ 1 := fun hodd => heven hodd hmiddle.symm
      refine ⟨by linarith, ?_, ?_⟩
      · rw [significand_eq hplace hk hlow, Nat.even_iff]
        omega
      · rw [significand_eq (k := k + 1) (by exact_mod_cast heq.symm) (by omega) (by omega),
          Nat.not_even_iff]
        omega

/-- Of the two, the lower one is not nearer from their middle on. -/
theorem abs_sub_le_abs_sub_iff {a b u : ℚ} (h : a < b) :
    |u - b| ≤ |u - a| ↔ a + b ≤ 2 * u := by
  rw [← sq_le_sq]
  constructor <;> intro <;> nlinarith

theorem abs_sub_le_abs_sub_iff' {a b u : ℚ} (h : a < b) :
    |u - a| ≤ |u - b| ↔ 2 * u ≤ a + b := by
  rw [← sq_le_sq]
  constructor <;> intro <;> nlinarith

end Places

section Values

variable {q : ℚ} {x y z : Binary32}

theorem abs_sub_exact (q : ℚ) (x : Binary32) :
    |q - x.exact| = |q * unitsOfOne - x.place| / unitsOfOne := by
  have hpos := unitsOfOne_pos
  rw [← abs_of_pos hpos, ← abs_div, abs_of_pos hpos, exact, sub_div,
    mul_div_cancel_right₀ q hpos.ne']

theorem abs_sub_exact_le_iff :
    |q - x.exact| ≤ |q - y.exact| ↔
      |q * unitsOfOne - x.place| ≤ |q * unitsOfOne - y.place| := by
  rw [abs_sub_exact, abs_sub_exact, div_le_div_iff_of_pos_right unitsOfOne_pos]

theorem exact_inj : x.exact = y.exact ↔ x.place = y.place := by
  rw [le_antisymm_iff, exact_le_exact, exact_le_exact, ← le_antisymm_iff]

/-- In the nearest place stands a nearest value, and there is no other. -/
theorem abs_sub_exact_of_place (hq : 0 ≤ q) (hz : z.place = nearestPlace (q * unitsOfOne))
    (y : Binary32) :
    |q - z.exact| ≤ |q - y.exact| ∧ (z.place ≠ y.place → |q - y.exact| ≤ |q - z.exact| →
      Even z.significand ∧ ¬ Even y.significand) := by
  have hunits : 0 ≤ q * unitsOfOne := mul_nonneg hq unitsOfOne_pos.le
  rw [abs_sub_exact_le_iff, abs_sub_exact_le_iff]
  rcases lt_trichotomy y.place z.place with hlt | heq | hlt
  · have hplaces : (y.place : ℚ) < z.place := by exact_mod_cast hlt
    rw [abs_sub_le_abs_sub_iff hplaces, abs_sub_le_abs_sub_iff' hplaces, add_comm]
    rcases add_place_le_of_lt hunits hz hlt with hless | ⟨hmiddle, htie⟩
    · exact ⟨hless.le, fun _ h => absurd h hless.not_ge⟩
    · exact ⟨hmiddle.le, fun _ _ => htie⟩
  · rw [heq]
    exact ⟨le_rfl, fun h => absurd rfl h⟩
  · have hplaces : (z.place : ℚ) < y.place := by exact_mod_cast hlt
    rw [abs_sub_le_abs_sub_iff hplaces, abs_sub_le_abs_sub_iff' hplaces]
    rcases le_add_place_of_lt hunits hz hlt with hless | ⟨hmiddle, htie⟩
    · exact ⟨hless.le, fun _ h => absurd h hless.not_ge⟩
    · exact ⟨hmiddle.le, fun _ _ => htie⟩

theorem isNearest_iff (hq : 0 ≤ q) (hfinite : z.isFinite = true)
    (hz : z.place = nearestPlace (q * unitsOfOne)) :
    IsNearest q x ↔ x.isFinite = true ∧ x.place = z.place := by
  constructor
  · intro h
    refine ⟨h.finite, ?_⟩
    by_contra hne
    obtain ⟨hle, htie⟩ := abs_sub_exact_of_place hq hz x
    have hge := h.nearest z hfinite
    have heven := h.even z hfinite (fun heq => hne (exact_inj.mp heq).symm) (hge.antisymm hle)
    exact (htie (Ne.symm hne) hge).2 heven
  · rintro ⟨hx, hplace⟩
    have hnearest := abs_sub_exact_of_place hq (hplace.trans hz)
    refine ⟨hx, fun y hy => (hnearest y).1, fun y hy hne heq => ?_⟩
    exact ((hnearest y).2 (fun h => hne (exact_inj.mpr h.symm)) heq.ge).1

theorem eq_of_place_eq (hx : x.isFinite = true) (hpos : x.isPositive = true)
    (hy : y.isFinite = true) (h : x.place = y.place) : x = y := by
  have hypos : y.isPositive = true := by rwa [isPositive_iff, ← h, ← isPositive_iff]
  obtain ⟨a, -, rfl⟩ := exists_of_isPositive hx hpos
  obtain ⟨b, -, rfl⟩ := exists_of_isPositive hy hypos
  have hunits : a.units = b.units := by simpa [place, signed] using h
  cases a
  cases b
  simp_all

end Values

section Range

variable {q : ℚ}

/-- The numbers to which some positive finite value is nearest. -/
def InRange (q : ℚ) : Prop := (2 ^ 150 : ℚ)⁻¹ < q ∧ q < 2 ^ 128 - 2 ^ 103

/-- Half the least positive value is still rounded to zero. -/
theorem nearestPlace_pos_iff : 0 < nearestPlace (q * unitsOfOne) ↔ (2 ^ 150 : ℚ)⁻¹ < q := by
  have hreached := succ_mul_le_nearestPlace_iff (q := q * unitsOfOne) (k := 0) (e := 0)
    (by decide) (.inl rfl) (by decide +kernel)
  have hunits : 2 * (q * unitsOfOne) = q * 2 ^ 150 := by
    rw [unitsOfOne_eq]
    push_cast
    ring
  rw [hunits] at hreached
  rw [inv_lt_iff_one_lt_mul₀ (by positivity), Int.lt_iff_add_one_le]
  simpa using hreached

/-- The middle before the first count out of range is rounded to that count. -/
theorem unitsLimit_le_nearestPlace_iff :
    unitsLimit ≤ nearestPlace (q * unitsOfOne) ↔ (2 ^ 128 - 2 ^ 103 : ℚ) ≤ q := by
  have hreached := succ_mul_le_nearestPlace_iff (q := q * unitsOfOne) (k := 2 ^ 24 - 1) (e := 253)
    (by decide) (.inr (by decide)) (by decide +kernel)
  have hlimit : (unitsLimit : Int) = ((2 ^ 24 - 1 : Nat) + 1) * 2 ^ 253 := by decide +kernel
  have hmiddle : (2 * ((2 ^ 24 - 1 : Nat) : ℚ) + 1) * 2 ^ 253 =
      2 * ((2 ^ 128 - 2 ^ 103) * unitsOfOne) := by
    rw [unitsOfOne_eq]
    norm_num
  rw [hlimit, hreached, and_iff_left (by decide), ← le_iff_lt_or_eq, hmiddle]
  rw [mul_le_mul_iff_right₀ two_pos, mul_le_mul_iff_left₀ unitsOfOne_pos]

theorem inRange_iff : InRange q ↔
    0 < nearestPlace (q * unitsOfOne) ∧ nearestPlace (q * unitsOfOne) < unitsLimit := by
  apply and_congr nearestPlace_pos_iff.symm
  rw [← not_le, ← unitsLimit_le_nearestPlace_iff, not_le]

theorem InRange.pos (h : InRange q) : 0 < q := lt_trans (by positivity) h.1

end Range

end Binary32

end ThermalGauge
