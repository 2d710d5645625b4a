import ThermalGauge.Proofs.Binary32.Words
import ThermalGauge.Proofs.Load

/-!
# Whole percentages

A percentage in single precision counts for the whole number nearest to it within 0 to 100, a half
going up.  So a load grows with the percentage, and is full from 99 and a half.
-/

namespace ThermalGauge

namespace Binary32

variable {x low high : Binary32}

theorem place_clamp (hx : x ≠ nan) (hlow : low ≠ nan) (hhigh : high ≠ nan)
    (hle : low.place ≤ high.place) :
    (x.clamp low high).place = max low.place (min x.place high.place) := by
  unfold clamp
  split
  · rename_i hless
    rw [less_iff hx hlow] at hless
    omega
  · rename_i hlowest
    rw [less_iff hx hlow] at hlowest
    split
    · rename_i hless
      rw [less_iff hhigh hx] at hless
      omega
    · rename_i hhighest
      rw [less_iff hhigh hx] at hhighest
      omega

theorem isFinite_clamp (hx : x ≠ nan) (hlow : low.isFinite = true) (hhigh : high.isFinite = true) :
    (x.clamp low high).isFinite = true := by
  unfold clamp
  split
  · exact hlow
  · rename_i hlowest
    split
    · exact hhigh
    · rename_i hhighest
      rw [less_iff hx (ne_nan_of_isFinite hlow)] at hlowest
      rw [less_iff (ne_nan_of_isFinite hhigh) hx] at hhighest
      exact isFinite_of_place hx ((place_lt_unitsLimit hlow).1.trans_le (not_lt.mp hlowest))
        ((not_lt.mp hhighest).trans_lt (place_lt_unitsLimit hhigh).2)

theorem nearestWhole_eq (hx : x.isFinite = true) (hnonneg : 0 ≤ x.place) :
    (x.nearestWhole : Int) = ⌊x.exact + 1 / 2⌋ := by
  cases x with
  | nan => cases hx
  | infinite negative => cases hx
  | finite negative m =>
      have hplace : (finite negative m).place = m.units := by
        have := natAbs_signed negative m
        rw [place] at hnonneg ⊢
        omega
      have hone := unitsOfOne_pos
      have hhalf : (finite negative m).exact + 1 / 2 =
          ((2 * m.units + unitsOfOne : Nat) : ℚ) / (2 * unitsOfOne : Nat) := by
        rw [exact, hplace]
        push_cast
        field_simp
      rw [hhalf, Rat.floor_natCast_div_natCast]
      rfl

end Binary32

namespace Load

open Binary32

variable {p q : Binary32}

/-- The percentages between which a load lies. -/
theorem exact_clamp (hp : p ≠ nan) :
    (p.clamp (.ofNat 0) (.ofNat 100)).exact = max 0 (min p.exact 100) := by
  have hone := unitsOfOne_pos
  have hzero : (Binary32.ofNat 0).place = 0 := by decide +kernel
  have hhundred : (Binary32.ofNat 100).place = 100 * unitsOfOne := by decide +kernel
  have hplace : (p.clamp (.ofNat 0) (.ofNat 100)).place =
      max (Binary32.ofNat 0).place (min p.place (Binary32.ofNat 100).place) :=
    place_clamp hp (by decide +kernel) (by decide +kernel) (by decide +kernel)
  rw [exact, hplace, hzero, hhundred, exact]
  push_cast
  rw [← max_div_div_right hone.le, ← min_div_div_right hone.le, zero_div,
    mul_div_cancel_right₀ _ hone.ne']

theorem floor_le_hundred (a : ℚ) : ⌊max 0 (min a 100) + 1 / 2⌋ ≤ 100 := by
  have hmax : max 0 (min a 100) ≤ 100 := max_le (by norm_num) (min_le_right _ _)
  refine Int.lt_add_one_iff.mp (Int.floor_lt.mpr ?_)
  norm_num
  linarith only [hmax]

/-- A percentage counts for the nearest whole one, a half going up. -/
theorem percent_ofPercent (hp : p ≠ nan) :
    ((ofPercent p).percent : Int) = ⌊max 0 (min p.exact 100) + 1 / 2⌋ := by
  have hfinite : (p.clamp (.ofNat 0) (.ofNat 100)).isFinite = true :=
    isFinite_clamp hp (by decide +kernel) (by decide +kernel)
  have hnan : p.isNan = false := by
    cases p with
    | nan => exact absurd rfl hp
    | _ => rfl
  have hexact := exact_clamp hp
  have hnonneg : 0 ≤ (p.clamp (.ofNat 0) (.ofNat 100)).place := by
    rw [← exact_nonneg, hexact]
    exact le_sup_left
  rw [ofPercent, hnan, if_neg Bool.false_ne_true, percent_atMost, Nat.cast_min,
    nearestWhole_eq hfinite hnonneg, hexact]
  exact min_eq_left (floor_le_hundred _)

theorem ofPercent_le_ofPercent (hp : p ≠ nan) (hq : q ≠ nan) (hle : p.exact ≤ q.exact) :
    ofPercent p ≤ ofPercent q := by
  have hfloor : ⌊max 0 (min p.exact 100) + 1 / 2⌋ ≤ ⌊max 0 (min q.exact 100) + 1 / 2⌋ := by
    gcongr
  rw [← percent_ofPercent hp, ← percent_ofPercent hq] at hfloor
  exact_mod_cast hfloor

theorem ofPercent_of_nonpos (hp : p ≠ nan) (hle : p.exact ≤ 0) : ofPercent p = none := by
  have hpercent := percent_ofPercent hp
  rw [max_eq_left ((min_le_left _ _).trans hle)] at hpercent
  norm_num at hpercent
  exact Load.ext hpercent

theorem ofPercent_eq_full_iff (hp : p ≠ nan) : ofPercent p = full ↔ 199 / 2 ≤ p.exact := by
  have hfull : ofPercent p = full ↔ 100 ≤ ⌊max 0 (min p.exact 100) + 1 / 2⌋ := by
    have hle := floor_le_hundred p.exact
    rw [← percent_ofPercent hp] at hle ⊢
    rw [Load.ext_iff]
    show (ofPercent p).percent = 100 ↔ _
    omega
  have hfloor (a : ℚ) : 100 ≤ ⌊a + 1 / 2⌋ ↔ 199 / 2 ≤ a := by
    rw [Int.le_floor]
    push_cast
    constructor <;> intro h <;> linarith only [h]
  rw [hfull, hfloor, le_max_iff, le_min_iff]
  norm_num

section Words

variable {a : Extended}

/-- The limits of the range hold for the infinite numbers too. -/
theorem ofRat_clamp (hp : p.number? = some a) :
    Extended.ofRat (min (max p.exact 0) 100) = min (max a (.ofRat 0)) (.ofRat 100) := by
  cases p with
  | nan => cases hp
  | infinite negative =>
      cases hp
      rw [exact_infinite]
      cases negative with
      | false =>
          rw [max_eq_left (Extended.ofRat_lt_infinite 0).le,
            min_eq_right (Extended.ofRat_lt_infinite 100).le]
          norm_num
      | true =>
          rw [max_eq_right (Extended.infinite_lt_ofRat 0).le,
            ← Extended.ofRat_strictMono.monotone.map_min]
          norm_num
  | finite negative m =>
      cases hp
      rw [← Extended.ofRat_strictMono.monotone.map_max,
        ← Extended.ofRat_strictMono.monotone.map_min]

theorem percent_ofPercent_of_number? (hp : p.number? = some a) :
    ∃ q, Extended.ofRat q = min (max a (.ofRat 0)) (.ofRat 100) ∧
      ((ofPercent p).percent : Int) = ⌊q + 1 / 2⌋ := by
  have hlimits : max 0 (min p.exact 100) = min (max p.exact 0) 100 := by
    rw [max_min_distrib_left, max_eq_right (by norm_num : (0 : ℚ) ≤ 100), max_comm]
  exact ⟨_, ofRat_clamp hp, hlimits ▸ percent_ofPercent (ne_nan_of_number? hp)⟩

theorem number?_ofNat_percent (l : Load) :
    (Binary32.ofNat l.percent).number? = some (.ofRat l.percent) :=
  number?_ofNat (l.percent_le.trans (by decide))

/-- A whole percentage counts for itself. -/
theorem ofPercent_ofNat (l : Load) : ofPercent (.ofNat l.percent) = l := by
  obtain ⟨q, hq, hpercent⟩ := percent_ofPercent_of_number? (number?_ofNat_percent l)
  have hlow : (0 : ℚ) ≤ l.percent := Nat.cast_nonneg _
  have hhigh : (l.percent : ℚ) ≤ 100 := by exact_mod_cast l.percent_le
  have hwhole : q = (l.percent : Int) := by
    apply Extended.ofRat_strictMono.injective
    rw [hq, max_eq_left (Extended.ofRat_strictMono.monotone hlow),
      min_eq_left (Extended.ofRat_strictMono.monotone hhigh), Int.cast_natCast]
  have hfloor : ⌊q + 1 / 2⌋ = l.percent := by
    rw [hwhole, Int.floor_intCast_add]
    norm_num
  exact Load.ext (by exact_mod_cast hpercent.trans hfloor)

/-- A word counts for the whole number nearest to what it stands for within 0 to 100, a half going
up, and for 0 if it is not a number.  The load never falls where the number grows, and a whole
percentage counts for itself. -/
theorem ofPercent_ofBits (w : UInt32) :
    (match Word.number? w with
      | Option.none => ofPercent (.ofBits w) = none
      | some a => ∃ q, Extended.ofRat q = min (max a (.ofRat 0)) (.ofRat 100) ∧
          ((ofPercent (.ofBits w)).percent : Int) = ⌊q + 1 / 2⌋) ∧
    (Word.number? w = Option.none ↔ Word.exponent w = 255 ∧ Word.fraction w ≠ 0) ∧
    (ofPercent (.ofBits w)).percent ≤ 100 ∧
    (∀ w' a a', Word.number? w = some a → Word.number? w' = some a' → a ≤ a' →
      ofPercent (.ofBits w) ≤ ofPercent (.ofBits w')) ∧
    ∀ l : Load, (Binary32.ofNat l.percent).number? = some (.ofRat l.percent) ∧
      ofPercent (.ofNat l.percent) = l := by
  refine ⟨?_, Word.number?_eq_none_iff, (ofPercent _).percent_le, ?_,
    fun l => ⟨number?_ofNat_percent l, ofPercent_ofNat l⟩⟩
  · split
    · rename_i hnone
      have hnan : ofBits w = nan := by rwa [← number?_eq_none_iff, number?_ofBits]
      rw [hnan]
      rfl
    · rename_i a ha
      exact percent_ofPercent_of_number? ((number?_ofBits w).trans ha)
  · intro w' a a' ha ha' hle
    have hnumber : (ofBits w).number? = some a := (number?_ofBits w).trans ha
    have hnumber' : (ofBits w').number? = some a' := (number?_ofBits w').trans ha'
    exact ofPercent_le_ofPercent (ne_nan_of_number? hnumber) (ne_nan_of_number? hnumber')
      (exact_le_exact_of_number? hnumber hnumber' hle)

/-- Just below a half, a half, a negative zero and an infinite number. -/
example : [0x3EFFFFFF, 0x3F000000, 0x80000000, 0x7F800000].map
    (fun w => (ofPercent (.ofBits w)).percent) = [0, 1, 0, 100] := by decide +kernel

end Words

end Load

end ThermalGauge
