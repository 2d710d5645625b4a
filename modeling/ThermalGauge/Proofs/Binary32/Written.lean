import ThermalGauge.Proofs.Binary32.Literal
import ThermalGauge.Proofs.Binary32.Nearest
import Mathlib.Algebra.Order.Field.Power

/-!
# The number that is written

A literal is read as the value in the place nearest to its number, an exponent of 655360 or more
counting by its leading digits.  Such an exponent takes the number out of range, unless there are
tens of thousands of digits to make up for it.  So in a text of at most 65000 characters it makes no
difference that an exponent is cut.
-/

namespace ThermalGauge

namespace Decimal

open Binary32 (nearestPlace InRange)

section Value

variable {d : Decimal} {s : Sign} {n : Nat} {q : ℚ}

def value (d : Decimal) : ℚ := d.digits * 10 ^ d.exponent

theorem value_nonneg (d : Decimal) : 0 ≤ d.value := by
  apply mul_nonneg (Nat.cast_nonneg _)
  positivity

theorem place_round (negative : Bool) (d : Decimal) :
    (d.round negative).place =
      nearestPlace ((if negative then -d.value else d.value) * unitsOfOne) := by
  obtain ⟨digits, exponent⟩ := d
  cases exponent with
  | ofNat e =>
      have hround : (Decimal.mk digits (.ofNat e)).round negative =
          .rounded negative (digits * 10 ^ e * unitsOfOne) 1 := rfl
      rw [hround, Binary32.place_rounded negative Nat.one_pos, value]
      congr 1
      split <;> simp
  | negSucc e =>
      have hround : (Decimal.mk digits (.negSucc e)).round negative =
          .rounded negative (digits * unitsOfOne) (10 ^ (e + 1)) := rfl
      rw [hround, Binary32.place_rounded negative (Nat.pow_pos (by decide)), value]
      congr 1
      split <;> simp [zpow_negSucc] <;> ring

theorem round_ne_nan (negative : Bool) (d : Decimal) : d.round negative ≠ .nan := by
  rw [round]
  split <;> exact Binary32.rounded_ne_nan _ _ _

theorem le_value (h : d.digits ≠ 0) : 10 ^ d.exponent ≤ d.value := by
  have hdigits : (1 : ℚ) ≤ d.digits := by exact_mod_cast Nat.one_le_iff_ne_zero.mpr h
  calc (10 : ℚ) ^ d.exponent = 1 * 10 ^ d.exponent := (one_mul _).symm
    _ ≤ d.digits * 10 ^ d.exponent := by gcongr

theorem value_le (h : d.digits < 10 ^ n) : d.value ≤ 10 ^ (n + d.exponent) := by
  have hdigits : (d.digits : ℚ) ≤ 10 ^ (n : Int) := by exact_mod_cast h.le
  calc d.value ≤ 10 ^ (n : Int) * 10 ^ d.exponent := by rw [value]; gcongr
    _ = 10 ^ (n + d.exponent) := (zpow_add₀ (by norm_num) _ _).symm

theorem not_inRange_of_le (h : q ≤ 10 ^ (-46 : Int)) : ¬ InRange q := by
  rintro ⟨hlow, -⟩
  norm_num at h hlow
  linarith

theorem not_inRange_of_ge (h : 10 ^ (39 : Int) ≤ q) : ¬ InRange q := by
  rintro ⟨-, hhigh⟩
  norm_num at h hhigh
  linarith

/-- A great exponent takes any number with few digits out of range. -/
theorem not_inRange_of_exponent (hdigits : d.digits < 10 ^ n)
    (hexponent : 39 ≤ d.exponent ∨ n + d.exponent ≤ -46) : ¬ InRange d.value := by
  rcases hexponent with hgreat | hsmall
  · by_cases hzero : d.digits = 0
    · intro hrange
      have hpos := hrange.pos
      rw [value, hzero, Nat.cast_zero, zero_mul] at hpos
      exact lt_irrefl 0 hpos
    · apply not_inRange_of_ge
      exact (zpow_le_zpow_right₀ (by norm_num) hgreat).trans (le_value hzero)
  · apply not_inRange_of_le
    exact (value_le hdigits).trans (zpow_le_zpow_right₀ (by norm_num) hsmall)

theorem inRange_of_apply (h : InRange (s.apply d.value)) : InRange d.value := by
  have hpos := h.pos
  have hnonneg := value_nonneg d
  rw [Sign.apply] at h hpos
  split at hpos
  · linarith
  · next hsign => rwa [if_neg hsign] at h

end Value

namespace Literal

variable {l : Literal}

/-- The number that is written. -/
def value (l : Literal) : ℚ := l.sign.apply (l.number.decimal id).value

/-- The number that is written, if an exponent counts by its leading digits. -/
def counted (l : Literal) : ℚ := l.sign.apply (l.number.decimal leading).value

theorem place_rounded (l : Literal) : l.rounded.place = nearestPlace (l.counted * unitsOfOne) :=
  place_round _ _

theorem rounded_ne_nan (l : Literal) : l.rounded ≠ .nan := round_ne_nan _ _

theorem counted_eq_value (h : ∀ e ∈ l.number.exponent, e.magnitude < 655360) :
    l.counted = l.value := by
  have hexponent : Exponent.value leading l.number.exponent =
      Exponent.value id l.number.exponent := by
    cases he : l.number.exponent with
    | none => rfl
    | some e => rw [Exponent.value, Exponent.value, leading_of_lt (h e he), id]
  rw [counted, value, Unsigned.decimal, Unsigned.decimal, hexponent]

/-- In a short text the digits cannot make up for such an exponent. -/
theorem not_inRange_of_exponent {count : Nat → Nat} {e : Exponent} (he : l.number.exponent = some e)
    (hcount : 65536 ≤ count e.magnitude) (hlength : l.text.length ≤ 65000) :
    ¬ InRange (l.sign.apply (l.number.decimal count).value) := by
  have htext : l.number.text.length ≤ l.text.length := by
    rw [text, List.length_append]
    exact Nat.le_add_left _ _
  have hdigits := l.number.length_digits_le
  have hfraction : (l.number.fraction.getD []).length ≤ l.number.digits.length := by
    rw [Unsigned.digits, List.length_append]
    exact Nat.le_add_left _ _
  have hexponent : (l.number.decimal count).exponent =
      e.sign.apply (count e.magnitude : Int) - (l.number.fraction.getD []).length := by
    rw [Unsigned.decimal, he, Exponent.value]
  have hvalue : (l.number.decimal count).digits < 10 ^ l.number.digits.length :=
    ofDigitChars_lt l.number.isDigit
  apply mt inRange_of_apply
  apply Decimal.not_inRange_of_exponent hvalue
  rw [hexponent, Sign.apply]
  split <;> omega

/-- Whether an exponent is cut makes no difference in a short text. -/
theorem counted_eq_value_or (h : l.text.length ≤ 65000) :
    l.counted = l.value ∨ ¬ InRange l.counted ∧ ¬ InRange l.value := by
  by_cases hsmall : ∀ e ∈ l.number.exponent, e.magnitude < 655360
  · exact .inl (counted_eq_value hsmall)
  · right
    push Not at hsmall
    obtain ⟨e, he, hlarge⟩ := hsmall
    have hgreat : 65536 ≤ id e.magnitude := Nat.le_trans (by decide) hlarge
    exact ⟨not_inRange_of_exponent he (le_leading hgreat) h, not_inRange_of_exponent he hgreat h⟩

end Literal

end Decimal

end ThermalGauge
