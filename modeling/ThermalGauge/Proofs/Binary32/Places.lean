import ThermalGauge.Proofs.Binary32.Rounding
import Mathlib.Data.Rat.Floor
import Mathlib.Tactic.FieldSimp
import Mathlib.Tactic.Positivity
import Mathlib.Algebra.Order.Field.Rat

/-!
# Values in their places

The values of single precision stand on a line of units: a finite one at its signed magnitude, an
infinite one where the magnitudes end.  The order of the values is that of their places.  Every
operation puts its exact result into the nearest place, so it keeps the order that the exact
operation keeps; nothing that overflows passes an infinite value.
-/

namespace ThermalGauge

namespace Binary32

/-- Where a value stands, in units.  The infinite ones stand where the magnitudes end. -/
def place : Binary32 → Int
  | nan => 0
  | infinite negative => if negative then -unitsLimit else unitsLimit
  | finite negative m => signed negative m

/-- The count nearest to the absolute value of `q`, as far as counts go. -/
def nearestCount (q : ℚ) : Nat := min (roundUnits q.num.natAbs q.den) unitsLimit

/-- The place nearest to `q` units, as far as places go. -/
def nearestPlace (q : ℚ) : Int := if q < 0 then -nearestCount q else nearestCount q

section NearestPlace

variable {q r : ℚ} {num den k e : Nat}

theorem abs_eq_natAbs_div (q : ℚ) : |q| = (q.num.natAbs : ℚ) / q.den := by
  calc |q| = |(q.num : ℚ) / q.den| := by rw [Rat.num_div_den]
    _ = (q.num.natAbs : ℚ) / q.den := by rw [abs_div, Nat.abs_cast, Nat.cast_natAbs, Int.cast_abs]

theorem nearestCount_le_nearestCount (h : |q| ≤ |r|) : nearestCount q ≤ nearestCount r := by
  refine min_le_min_right _ (roundUnits_le_roundUnits q.den_pos r.den_pos ?_)
  rw [abs_eq_natAbs_div, abs_eq_natAbs_div,
    div_le_div_iff₀ (by exact_mod_cast q.den_pos) (by exact_mod_cast r.den_pos)] at h
  exact_mod_cast h

theorem nearestCount_of_abs_eq (hden : 0 < den) (h : |q| = num / den) :
    nearestCount q = min (roundUnits num den) unitsLimit := by
  rw [nearestCount, roundUnits_congr q.den_pos hden]
  rw [abs_eq_natAbs_div, div_eq_div_iff (by exact_mod_cast q.den_ne_zero)
    (by exact_mod_cast hden.ne')] at h
  exact_mod_cast h

theorem nearestCount_zero : nearestCount 0 = 0 := by decide +kernel

theorem nearestPlace_of_nonneg (h : 0 ≤ q) : nearestPlace q = nearestCount q :=
  if_neg h.not_gt

theorem nearestPlace_of_nonpos (h : q ≤ 0) : nearestPlace q = -nearestCount q := by
  rcases h.lt_or_eq with hneg | rfl
  · exact if_pos hneg
  · rw [nearestPlace_of_nonneg le_rfl, nearestCount_zero]
    rfl

theorem nearestPlace_neg (q : ℚ) : nearestPlace (-q) = -nearestPlace q := by
  have hcount : nearestCount (-q) = nearestCount q := by
    rw [nearestCount, Rat.num_neg_eq_neg_num, Int.natAbs_neg, Rat.den_neg_eq_den, nearestCount]
  rcases le_total 0 q with h | h
  · rw [nearestPlace_of_nonpos (neg_nonpos.mpr h), nearestPlace_of_nonneg h, hcount]
  · rw [nearestPlace_of_nonneg (neg_nonneg.mpr h), nearestPlace_of_nonpos h, hcount, neg_neg]

theorem nearestPlace_zero : nearestPlace 0 = 0 := by
  rw [nearestPlace_of_nonneg le_rfl, nearestCount_zero]
  rfl

/-- Rounding keeps the order. -/
theorem nearestPlace_mono (hqr : q ≤ r) : nearestPlace q ≤ nearestPlace r := by
  rcases le_total 0 q with hq | hq
  · have hr : 0 ≤ r := hq.trans hqr
    rw [nearestPlace_of_nonneg hq, nearestPlace_of_nonneg hr]
    exact_mod_cast nearestCount_le_nearestCount (abs_le_abs_of_nonneg hq hqr)
  rcases le_total 0 r with hr | hr
  · rw [nearestPlace_of_nonpos hq, nearestPlace_of_nonneg hr]
    omega
  · rw [nearestPlace_of_nonpos hq, nearestPlace_of_nonpos hr]
    have := nearestCount_le_nearestCount (abs_le_abs_of_nonpos hr hqr)
    omega

theorem place_rounded (negative : Bool) (hden : 0 < den) :
    (rounded negative num den).place =
      nearestPlace (if negative then -(num / den) else num / den) := by
  have hnonneg : (0 : ℚ) ≤ num / den := by positivity
  have hcount : (rounded negative num den).place =
      if negative then -((min (roundUnits num den) unitsLimit : Nat) : Int)
        else (min (roundUnits num den) unitsLimit : Nat) := by
    unfold rounded
    split
    · rename_i h
      rw [min_eq_left h.le]
      rfl
    · rename_i h
      rw [min_eq_right (not_lt.mp h)]
      rfl
  rw [hcount]
  split
  · rw [nearestPlace_of_nonpos (neg_nonpos.mpr hnonneg),
      nearestCount_of_abs_eq hden ((abs_neg _).trans (abs_of_nonneg hnonneg))]
  · rw [nearestPlace_of_nonneg hnonneg, nearestCount_of_abs_eq hden (abs_of_nonneg hnonneg)]

/-- Where a count is reached, for rational numbers of units. -/
theorem succ_mul_le_nearestPlace_iff (hk : k < 2 ^ 24) (hlow : e = 0 ∨ 2 ^ 23 ≤ k)
    (hlimit : (k + 1) * 2 ^ e ≤ unitsLimit) :
    ((k + 1) * 2 ^ e : Int) ≤ nearestPlace q ↔
      ((2 * k + 1) * 2 ^ e : ℚ) < 2 * q ∨ ((2 * k + 1) * 2 ^ e : ℚ) = 2 * q ∧ k % 2 = 1 := by
  rcases lt_or_ge q 0 with hneg | hnonneg
  · have hplace : nearestPlace q ≤ 0 := by
      rw [nearestPlace_of_nonpos hneg.le]
      omega
    have hcount : (0 : Int) < (k + 1) * 2 ^ e := by
      exact_mod_cast Nat.mul_pos k.succ_pos (Nat.two_pow_pos e)
    have hmiddle : (0 : ℚ) < (2 * k + 1) * 2 ^ e := by
      exact_mod_cast Nat.mul_pos (2 * k).succ_pos (Nat.two_pow_pos e)
    constructor
    · intro h
      exact absurd (hcount.trans_le h) hplace.not_gt
    · rintro (h | ⟨h, -⟩) <;> linarith only [h, hmiddle, hneg]
  have hden : (0 : ℚ) < q.den := by exact_mod_cast q.den_pos
  have hq : 2 * q = 2 * (q.num.natAbs : ℚ) / q.den := by
    rw [mul_div_assoc, ← abs_eq_natAbs_div, abs_of_nonneg hnonneg]
  have hreached : ((k + 1) * 2 ^ e : Int) ≤ nearestPlace q ↔
      (k + 1) * 2 ^ e ≤ roundUnits q.num.natAbs q.den := by
    have hmin : (k + 1) * 2 ^ e ≤ nearestCount q ↔
        (k + 1) * 2 ^ e ≤ roundUnits q.num.natAbs q.den :=
      le_min_iff.trans (and_iff_left hlimit)
    rw [nearestPlace_of_nonneg hnonneg, ← hmin]
    exact_mod_cast Iff.rfl
  rw [hreached, succ_mul_le_roundUnits_iff q.den_pos hk hlow, hq, lt_div_iff₀ hden,
    eq_div_iff hden.ne']
  exact_mod_cast Iff.rfl

/-- A count of at most 24 significant bits, or the negative of one, stays where it is. -/
theorem nearestPlace_of_spacing_dvd {n : Int} (hdvd : spacing n.natAbs ∣ n.natAbs)
    (hlimit : n.natAbs ≤ unitsLimit) : nearestPlace n = n := by
  have hcount : nearestCount n = n.natAbs := by
    rw [nearestCount, Rat.num_intCast, Rat.den_intCast, roundUnits_of_spacing_dvd hdvd,
      min_eq_left hlimit]
  rcases le_total 0 n with h | h
  · rw [nearestPlace_of_nonneg (by exact_mod_cast h), hcount]
    omega
  · rw [nearestPlace_of_nonpos (by exact_mod_cast h), hcount]
    omega

/-- A whole number of units is missed by at most its `2 ^ -24`th part. -/
theorem nearestPlace_error {n : Int} (hlimit : n.natAbs ≤ unitsLimit) :
    2 ^ 24 * n - n.natAbs ≤ 2 ^ 24 * nearestPlace n ∧
      2 ^ 24 * nearestPlace n ≤ 2 ^ 24 * n + n.natAbs := by
  have hcount : nearestCount n = min (roundUnits n.natAbs 1) unitsLimit := by
    rw [nearestCount, Rat.num_intCast, Rat.den_intCast]
  have herror := roundUnits_error n.natAbs
  rcases le_total 0 n with h | h
  · rw [nearestPlace_of_nonneg (by exact_mod_cast h), hcount]
    omega
  · rw [nearestPlace_of_nonpos (by exact_mod_cast h), hcount]
    omega

end NearestPlace

section Order

variable {x y : Binary32}

theorem natAbs_signed (negative : Bool) (m : Magnitude) : (signed negative m).natAbs = m.units := by
  cases negative <;> simp [signed]

theorem spacing_dvd_place (x : Binary32) : spacing x.place.natAbs ∣ x.place.natAbs := by
  cases x with
  | nan => exact dvd_zero _
  | infinite negative => cases negative <;> decide +kernel
  | finite negative m =>
      rw [place, natAbs_signed]
      exact m.representable.2

theorem place_lt_unitsLimit (h : x.isFinite = true) :
    -(unitsLimit : Int) < x.place ∧ x.place < unitsLimit := by
  cases x with
  | nan => simp [isFinite] at h
  | infinite negative => simp [isFinite] at h
  | finite negative m =>
      have hlt := m.representable.1
      have hunits := natAbs_signed negative m
      rw [place]
      omega

theorem less_iff (hx : x ≠ nan) (hy : y ≠ nan) : x.less y = true ↔ x.place < y.place := by
  have hlimit : (0 : Int) < unitsLimit := by decide +kernel
  cases x with
  | nan => exact absurd rfl hx
  | infinite s =>
      cases y with
      | nan => exact absurd rfl hy
      | infinite t => cases s <;> cases t <;> simp [less, place]; omega
      | finite t b =>
          have hb := place_lt_unitsLimit (x := finite t b) rfl
          cases s <;> simp [less, place] at hb ⊢ <;> omega
  | finite s a =>
      have ha := place_lt_unitsLimit (x := finite s a) rfl
      cases y with
      | nan => exact absurd rfl hy
      | infinite t => cases t <;> simp [less, place] at ha ⊢ <;> omega
      | finite t b => simp [less, place]

theorem unitsOfOne_eq : unitsOfOne = 2 ^ 149 := by decide +kernel

/-- An exact value, of which an infinite one has that of the first magnitude out of range. -/
def exact (x : Binary32) : ℚ := x.place / unitsOfOne

theorem unitsOfOne_pos : (0 : ℚ) < unitsOfOne := by
  rw [unitsOfOne_eq]
  norm_num

theorem exact_le_exact : x.exact ≤ y.exact ↔ x.place ≤ y.place := by
  rw [exact, exact, div_le_div_iff_of_pos_right unitsOfOne_pos, Int.cast_le]

theorem ne_nan_of_isFinite (h : x.isFinite = true) : x ≠ nan := by
  rintro rfl
  cases h

theorem isFinite_zero : zero.isFinite = true := by decide +kernel

@[simp] theorem place_zero : zero.place = 0 := by decide +kernel

@[simp] theorem place_infinite (negative : Bool) :
    (infinite negative).place = if negative then -(unitsLimit : Int) else unitsLimit := rfl

theorem isFinite_or_infinite (hx : x ≠ nan) :
    x.isFinite = true ∨ ∃ negative, x = infinite negative := by
  cases x with
  | nan => exact absurd rfl hx
  | infinite negative => exact .inr ⟨negative, rfl⟩
  | finite negative m => exact .inl rfl

theorem place_mem (x : Binary32) : -(unitsLimit : Int) ≤ x.place ∧ x.place ≤ unitsLimit := by
  by_cases hx : x = nan
  · subst hx
    simp [place]
  rcases isFinite_or_infinite hx with hfinite | ⟨negative, rfl⟩
  · exact (place_lt_unitsLimit hfinite).imp le_of_lt le_of_lt
  · cases negative <;> simp [place]

theorem nearestPlace_place (x : Binary32) : nearestPlace x.place = x.place := by
  have hbounds := place_mem x
  exact nearestPlace_of_spacing_dvd (spacing_dvd_place x) (by omega)

theorem two_pow_dvd_place {e : Nat} (h : (2 ^ (e + 23) : Nat) ≤ x.place) :
    (2 ^ e : Int) ∣ x.place := by
  have hcount : 2 ^ (e + 23) ≤ x.place.natAbs := by omega
  have hdvd : 2 ^ e ∣ x.place.natAbs := (two_pow_dvd_spacing hcount).trans (spacing_dvd_place x)
  exact_mod_cast Int.natCast_dvd.mpr hdvd

/-- A difference that is no greater than what was taken away needs no rounding. -/
theorem nearestPlace_sub (hle : y.place ≤ x.place) (hhalf : x.place - y.place ≤ y.place) :
    nearestPlace ((x.place - y.place : Int) : ℚ) = x.place - y.place := by
  have hx := place_mem x
  have hfine : spacing (x.place - y.place).natAbs ∣ spacing y.place.natAbs :=
    spacing_dvd_spacing (by omega)
  have hcoarse : spacing y.place.natAbs ∣ x.place.natAbs :=
    (spacing_dvd_spacing (by omega)).trans (spacing_dvd_place x)
  have hdifference : (x.place - y.place).natAbs = x.place.natAbs - y.place.natAbs := by omega
  refine nearestPlace_of_spacing_dvd (hfine.trans ?_) (by omega)
  rw [hdifference]
  exact Nat.dvd_sub hcoarse (spacing_dvd_place y)

theorem unitsLimit_le_nearestPlace {q : ℚ} (h : unitsLimit ≤ q) :
    unitsLimit ≤ nearestPlace q := by
  have hlimit := nearestPlace_place (infinite false)
  rw [place_infinite, if_neg Bool.false_ne_true] at hlimit
  calc (unitsLimit : Int) = nearestPlace (unitsLimit : Int) := hlimit.symm
    _ ≤ nearestPlace q := nearestPlace_mono (by exact_mod_cast h)

theorem isFinite_of_place (hx : x ≠ nan) (hlow : -(unitsLimit : Int) < x.place)
    (hhigh : x.place < unitsLimit) : x.isFinite = true := by
  rcases isFinite_or_infinite hx with hfinite | ⟨negative, rfl⟩
  · exact hfinite
  · cases negative <;> simp at hlow hhigh

theorem isPositive_iff : x.isPositive = true ↔ 0 < x.place := by
  by_cases hx : x = nan
  · rw [hx]
    decide +kernel
  · rw [isPositive, less_iff (ne_nan_of_isFinite isFinite_zero) hx, place_zero]

theorem exact_nonneg : 0 ≤ x.exact ↔ 0 ≤ x.place := by
  rw [exact, le_div_iff₀ unitsOfOne_pos, zero_mul, Int.cast_nonneg_iff]

theorem exact_nonpos : x.exact ≤ 0 ↔ x.place ≤ 0 := by
  rw [exact, div_le_iff₀ unitsOfOne_pos, zero_mul, Int.cast_nonpos]

theorem rounded_ne_nan (negative : Bool) (num den : Nat) : rounded negative num den ≠ nan := by
  unfold rounded
  split <;> simp

end Order

section Operations

variable {x y : Binary32}

theorem place_sub (hx : x.isFinite = true) (hy : y.isFinite = true) :
    (x - y).place = nearestPlace (x.place - y.place) ∧ x - y ≠ nan := by
  cases x with
  | nan => cases hx
  | infinite negative => cases hx
  | finite s a =>
      cases y with
      | nan => cases hy
      | infinite negative => cases hy
      | finite t b =>
          refine ⟨?_, rounded_ne_nan _ _ _⟩
          show (rounded _ (signed s a - signed t b).natAbs 1).place = _
          rw [place_rounded _ Nat.one_pos, place, place, ← Int.cast_sub]
          generalize signed s a - signed t b = d
          congr 1
          rw [Nat.cast_one, div_one, Nat.cast_natAbs]
          rcases lt_trichotomy d 0 with h | rfl | h
          · simp [h.ne, h, abs_of_neg]
          · simp
          · simp [h.ne', h.le, abs_of_pos h]

/-- Multiplies by a positive factor and rounds; what is infinite stays. -/
structure Scales (f : Binary32 → Binary32) (factor : ℚ) : Prop where
  pos : 0 < factor
  infinite (negative : Bool) : f (infinite negative) = infinite negative
  place {x : Binary32} (hx : x.isFinite = true) : (f x).place = nearestPlace (factor * x.place)
  ne_nan {x : Binary32} (hx : x ≠ nan) : f x ≠ nan

theorem exists_of_isPositive (hfinite : x.isFinite = true) (hpos : x.isPositive = true) :
    ∃ m : Magnitude, 0 < m.units ∧ x = finite false m := by
  rw [isPositive_iff] at hpos
  cases x with
  | nan => cases hfinite
  | infinite negative => cases hfinite
  | finite negative m =>
      cases negative with
      | false => exact ⟨m, by simpa [Binary32.place, signed] using hpos, rfl⟩
      | true =>
          simp only [Binary32.place, signed, if_true] at hpos
          omega

theorem Scales.of_rounded {f : Binary32 → Binary32} {factor : ℚ} (num : Nat → Nat) (den : Nat)
    (hpos : 0 < factor) (hden : 0 < den)
    (hinfinite : ∀ negative, f (.infinite negative) = .infinite negative)
    (hrounded : ∀ negative m, f (.finite negative m) = rounded negative (num m.units) den)
    (hquotient : ∀ n, (num n : ℚ) / den = factor * n) : Scales f factor := by
  refine ⟨hpos, hinfinite, ?_, ?_⟩
  · intro x hx
    cases x with
    | nan => cases hx
    | infinite negative => cases hx
    | finite negative m =>
        rw [hrounded, place_rounded _ hden, hquotient, Binary32.place, signed]
        cases negative <;> simp
  · intro x hx
    cases x with
    | nan => exact absurd rfl hx
    | infinite negative => simp [hinfinite]
    | finite negative m =>
        rw [hrounded]
        exact rounded_ne_nan _ _ _

theorem scales_div (hfinite : y.isFinite = true) (hpos : y.isPositive = true) :
    Scales (· / y) (1 / y.exact) := by
  obtain ⟨b, hb, rfl⟩ := exists_of_isPositive hfinite hpos
  have hexact : (finite false b).exact = (b.units : ℚ) / unitsOfOne := rfl
  have hunits : (0 : ℚ) < b.units := by exact_mod_cast hb
  have hone := unitsOfOne_pos
  refine Scales.of_rounded (· * unitsOfOne) b.units ?_ hb ?_ ?_ ?_
  · rw [hexact]
    exact one_div_pos.mpr (div_pos hunits hone)
  · intro negative
    cases negative <;> rfl
  · intro negative a
    have hdiv : finite negative a / finite false b =
        rounded (negative != false) (a.units * unitsOfOne) b.units := if_neg hb.ne'
    rw [hdiv, Bool.bne_false]
  · intro n
    rw [hexact]
    push_cast
    field_simp

theorem scales_mul (hfinite : y.isFinite = true) (hpos : y.isPositive = true) :
    Scales (· * y) y.exact := by
  obtain ⟨b, hb, rfl⟩ := exists_of_isPositive hfinite hpos
  have hexact : (finite false b).exact = (b.units : ℚ) / unitsOfOne := rfl
  have hunits : (0 : ℚ) < b.units := by exact_mod_cast hb
  have hone := unitsOfOne_pos
  refine Scales.of_rounded (· * b.units) unitsOfOne ?_ ?_ ?_ ?_ ?_
  · rw [hexact]
    exact div_pos hunits hone
  · exact_mod_cast hone
  · intro negative
    have hmul : infinite negative * finite false b =
        if b.units = 0 then nan else infinite (negative != false) := rfl
    rw [hmul, if_neg hb.ne', Bool.bne_false]
  · intro negative a
    have hmul : finite negative a * finite false b =
        rounded (negative != false) (a.units * b.units) unitsOfOne := rfl
    rw [hmul, Bool.bne_false]
  · intro n
    rw [hexact]
    push_cast
    ring

namespace Scales

variable {f : Binary32 → Binary32} {factor : ℚ}

/-- What is infinite is not moved, and no finite value is moved beyond it. -/
theorem mono (h : Scales f factor) (hx : x ≠ nan) (hy : y ≠ nan) (hxy : x.place ≤ y.place) :
    (f x).place ≤ (f y).place := by
  rcases isFinite_or_infinite hx with hxf | ⟨s, rfl⟩
  · rcases isFinite_or_infinite hy with hyf | ⟨t, rfl⟩
    · rw [h.place hxf, h.place hyf]
      have hfactor := h.pos.le
      exact nearestPlace_mono (mul_le_mul_of_nonneg_left (by exact_mod_cast hxy) hfactor)
    · have hbounds := place_lt_unitsLimit hxf
      rw [h.infinite]
      cases t with
      | false => exact (place_mem (f x)).2
      | true =>
          rw [place_infinite, if_pos rfl] at hxy
          omega
  · rcases isFinite_or_infinite hy with hyf | ⟨t, rfl⟩
    · have hbounds := place_lt_unitsLimit hyf
      rw [h.infinite]
      cases s with
      | true => exact (place_mem (f y)).1
      | false =>
          rw [place_infinite, if_neg Bool.false_ne_true] at hxy
          omega
    · rw [h.infinite, h.infinite]
      exact hxy

theorem place_nonpos (h : Scales f factor) (hx : x ≠ nan) (hnonpos : x.place ≤ 0) :
    (f x).place ≤ 0 := by
  have hzero : (f zero).place = 0 := by
    rw [h.place isFinite_zero, place_zero, Int.cast_zero, mul_zero, nearestPlace_zero]
  exact (h.mono hx (ne_nan_of_isFinite isFinite_zero) (hnonpos.trans place_zero.ge)).trans hzero.le

/-- Where a value is carried to a count or beyond it.  So it is for an infinite value, if the
factor is not too small. -/
theorem succ_mul_le_place_iff {k e : Nat} (h : Scales f factor) (hx : x ≠ nan) (hk : k < 2 ^ 24)
    (hlow : e = 0 ∨ 2 ^ 23 ≤ k) (hodd : k % 2 = 1) (hlimit : (k + 1) * 2 ^ e ≤ unitsLimit)
    (hreach : ((2 * k + 1) * 2 ^ e : ℚ) ≤ 2 * (factor * unitsLimit)) :
    ((k + 1) * 2 ^ e : Int) ≤ (f x).place ↔
      ((2 * k + 1) * 2 ^ e : ℚ) ≤ 2 * (factor * x.place) := by
  rcases isFinite_or_infinite hx with hfinite | ⟨negative, rfl⟩
  · rw [h.place hfinite, succ_mul_le_nearestPlace_iff hk hlow hlimit, and_iff_left hodd,
      le_iff_lt_or_eq]
  · have hcount : (0 : Int) < (k + 1) * 2 ^ e := by
      exact_mod_cast Nat.mul_pos k.succ_pos (Nat.two_pow_pos e)
    have hmiddle : (0 : ℚ) < (2 * k + 1) * 2 ^ e := by
      exact_mod_cast Nat.mul_pos (2 * k).succ_pos (Nat.two_pow_pos e)
    rw [h.infinite]
    cases negative with
    | false =>
        rw [place_infinite, if_neg Bool.false_ne_true]
        exact iff_of_true (by exact_mod_cast hlimit) hreach
    | true =>
        rw [place_infinite, if_pos rfl]
        refine iff_of_false (by omega) ?_
        push_cast
        linarith only [hreach, hmiddle]

end Scales

end Operations


end Binary32

end ThermalGauge
