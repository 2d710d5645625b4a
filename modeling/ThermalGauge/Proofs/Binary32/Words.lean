import ThermalGauge.Proofs.Binary32.Places
import Mathlib.Algebra.Order.Field.Power
import Mathlib.Order.WithBot

/-!
# Words of 32 bits

A word has a sign bit, eight bits of exponent and 23 of fraction.  It stands for a rational number,
for one of the two infinite ones, or for none.  A value that is read off a word stands for the same,
and the order of the values is that of the numbers.
-/

namespace ThermalGauge

namespace Binary32

/-- The rational numbers with an infinite one at either end. -/
abbrev Extended := WithBot (WithTop ℚ)

def Extended.ofRat (q : ℚ) : Extended := ((q : WithTop ℚ) : WithBot (WithTop ℚ))

def Extended.infinite (negative : Bool) : Extended := if negative then ⊥ else ⊤

namespace Word

def isNegative (w : UInt32) : Bool := decide (2 ^ 31 ≤ w.toNat)

def exponent (w : UInt32) : Nat := w.toNat / 2 ^ 23 % 2 ^ 8

def fraction (w : UInt32) : Nat := w.toNat % 2 ^ 23

/-- The absolute value that a finite word has.  With the least exponent there is no hidden bit. -/
def magnitude (exponent fraction : Nat) : ℚ :=
  if exponent = 0 then fraction / 2 ^ 23 * (2 : ℚ) ^ (-126 : Int)
  else (1 + fraction / 2 ^ 23) * (2 : ℚ) ^ ((exponent : Int) - 127)

def exact (w : UInt32) : ℚ :=
  let m := magnitude (exponent w) (fraction w)
  if isNegative w then -m else m

/-- What a word stands for.  One with the greatest exponent is infinite, or no number. -/
def number? (w : UInt32) : Option Extended :=
  if exponent w < 255 then some (.ofRat (exact w))
  else if fraction w = 0 then some (.infinite (isNegative w))
  else none

end Word

/-- What a value stands for. -/
def number? : Binary32 → Option Extended
  | nan => none
  | infinite negative => some (.infinite negative)
  | finite negative m => some (.ofRat (finite negative m).exact)

namespace Extended

theorem ofRat_strictMono : StrictMono ofRat := by
  intro q r h
  rwa [ofRat, ofRat, WithBot.coe_lt_coe, WithTop.coe_lt_coe]

theorem ofRat_lt_infinite (q : ℚ) : ofRat q < infinite false :=
  WithBot.coe_lt_coe.mpr (WithTop.coe_lt_top q)

theorem infinite_lt_ofRat (q : ℚ) : infinite true < ofRat q := WithBot.bot_lt_coe _

end Extended

section Fields

theorem hiddenBit_eq : hiddenBit = 2 ^ 23 := by decide

theorem magnitudeOfFields_div (e f : Nat) :
    (magnitudeOfFields e f : ℚ) / unitsOfOne = Word.magnitude e f := by
  rw [unitsOfOne_eq, magnitudeOfFields, Word.magnitude]
  split
  · rw [zpow_neg]
    norm_num
    ring
  · rename_i he
    obtain ⟨k, rfl⟩ := Nat.exists_eq_succ_of_ne_zero he
    have hexponent : ((k.succ : Nat) : Int) - 127 = k - (126 : Nat) := by
      push_cast
      ring
    rw [hexponent, zpow_sub₀ two_ne_zero, zpow_natCast, zpow_natCast, Nat.succ_sub_one,
      Nat.shiftLeft_eq, hiddenBit_eq]
    push_cast
    field_simp
    ring

theorem exact_finite (negative : Bool) (m : Magnitude) :
    (finite negative m).exact =
      if negative then -((m.units : ℚ) / unitsOfOne) else (m.units : ℚ) / unitsOfOne := by
  rw [exact, place, signed]
  split
  · push_cast
    rw [neg_div]
  · rfl

/-- What is read off a word stands for the same as the word. -/
theorem number?_ofBits (w : UInt32) : (ofBits w).number? = Word.number? w := by
  have hexponent : w.toNat / hiddenBit % 256 = Word.exponent w := by
    rw [hiddenBit_eq, Word.exponent, show 256 = 2 ^ 8 from rfl]
  have hfraction : w.toNat % hiddenBit = Word.fraction w := by
    rw [hiddenBit_eq, Word.fraction]
  have hnegative : decide (1 <<< 31 ≤ w.toNat) = Word.isNegative w := rfl
  simp only [ofBits, hnegative, Word.number?]
  split
  · rename_i he
    rw [hexponent] at he
    rw [if_pos he, number?, exact_finite, magnitudeOfFields_div, hexponent, hfraction]
    rfl
  · rename_i he
    rw [hexponent] at he
    rw [if_neg he, hfraction]
    split <;> rfl

theorem number?_eq_none_iff {x : Binary32} : x.number? = none ↔ x = nan := by
  cases x <;> simp [number?]

theorem ne_nan_of_number? {x : Binary32} {a : Extended} (h : x.number? = some a) : x ≠ nan := by
  rintro rfl
  cases h

theorem Word.number?_eq_none_iff {w : UInt32} :
    Word.number? w = none ↔ Word.exponent w = 255 ∧ Word.fraction w ≠ 0 := by
  have hexponent : Word.exponent w < 2 ^ 8 := Nat.mod_lt _ (by decide)
  by_cases hsmall : Word.exponent w < 255
  · simp [Word.number?, hsmall, hsmall.ne]
  · have hgreatest : Word.exponent w = 255 := by omega
    simp [Word.number?, hgreatest]

end Fields

section Order

variable {x y : Binary32} {a b : Extended}

theorem exact_infinite (negative : Bool) :
    (infinite negative).exact = if negative then -(2 ^ 128) else 2 ^ 128 := by
  have hlimit : (unitsLimit : ℚ) / unitsOfOne = 2 ^ 128 := by
    have hunits : unitsLimit = 2 ^ 128 * unitsOfOne := by decide +kernel
    rw [hunits, Nat.cast_mul, mul_div_cancel_right₀ _ unitsOfOne_pos.ne']
    norm_num
  rw [exact, place_infinite]
  split
  · push_cast
    rw [neg_div, hlimit]
  · exact hlimit

theorem exact_le_exact_of_number? (hx : x.number? = some a) (hy : y.number? = some b)
    (hle : a ≤ b) : x.exact ≤ y.exact := by
  cases x with
  | nan => cases hx
  | infinite s =>
      cases hx
      cases y with
      | nan => cases hy
      | infinite t =>
          cases hy
          cases s <;> cases t
          · exact le_rfl
          · exact absurd ((Extended.infinite_lt_ofRat 0).trans (Extended.ofRat_lt_infinite 0))
              hle.not_gt
          · exact exact_le_exact.mpr (place_mem _).1
          · exact le_rfl
      | finite t n =>
          cases hy
          cases s with
          | true => exact exact_le_exact.mpr (place_mem _).1
          | false => exact absurd (Extended.ofRat_lt_infinite _) hle.not_gt
  | finite s m =>
      cases hx
      cases y with
      | nan => cases hy
      | infinite t =>
          cases hy
          cases t with
          | true => exact absurd (Extended.infinite_lt_ofRat _) hle.not_gt
          | false => exact exact_le_exact.mpr (place_mem _).2
      | finite t n =>
          cases hy
          exact Extended.ofRat_strictMono.le_iff_le.mp hle

end Order

section Whole

variable {n : Nat}

/-- A whole number of 24 bits at most needs no rounding. -/
theorem exists_ofNat_eq (h : n ≤ significandLimit) :
    ∃ m : Magnitude, m.units = n * unitsOfOne ∧ ofNat n = finite false m := by
  have hshift : n <<< 149 = n * unitsOfOne := by
    simp only [unitsOfOne, Nat.shiftLeft_eq, Nat.one_mul]
  have hlimit : n * unitsOfOne < unitsLimit := by
    calc n * unitsOfOne ≤ significandLimit * unitsOfOne := Nat.mul_le_mul_right _ h
      _ < unitsLimit := by decide +kernel
  have hrepresentable : Representable (n * unitsOfOne) := by
    rw [← hshift] at hlimit ⊢
    exact representable_shiftLeft h hlimit
  have hround : roundUnits (n * unitsOfOne) 1 = n * unitsOfOne :=
    roundUnits_of_spacing_dvd hrepresentable.2
  refine ⟨⟨n * unitsOfOne, hrepresentable⟩, rfl, ?_⟩
  simp only [ofNat, rounded, hround, hlimit, dif_pos]

theorem number?_ofNat (h : n ≤ significandLimit) : (ofNat n).number? = some (.ofRat n) := by
  obtain ⟨m, hunits, hm⟩ := exists_ofNat_eq h
  have hexact : (finite false m).exact = n := by
    simp [exact_finite, hunits, unitsOfOne_pos.ne']
  rw [hm, number?, hexact]

end Whole

end Binary32

end ThermalGauge
