/-!
# Single precision

A finite value is a sign and a magnitude, and a magnitude is counted in units of `2 ^ -149`,
the least positive value.  The counts that occur have at most 24 significant bits and stay
below a limit; this is part of the type.  One function rounds an exact quotient of counts,
to the nearest magnitude and on a tie to the one with an even significand; every operation is
its exact result, rounded once.  A NaN carries nothing.
-/

namespace ThermalGauge

/-- The distance from `n` to the next count above it, where the latter has 24 significant
bits at most. -/
def spacing (n : Nat) : Nat := 1 <<< (n.log2 - 23)

theorem spacing_pos (n : Nat) : 0 < spacing n := by
  rw [spacing, Nat.shiftLeft_eq, Nat.one_mul]
  exact Nat.two_pow_pos _

def unitsOfOne : Nat := 1 <<< 149

/-- The least significand of 25 bits. -/
def significandLimit : Nat := 1 <<< 24

/-- A significand of 25 bits at the greatest exponent: the first count without a finite
value. -/
def unitsLimit : Nat := significandLimit <<< 253

theorem shiftLeft_lt_shiftLeft {a b s t : Nat} (hab : a < b) (hst : s ≤ t) :
    a <<< s < b <<< t := by
  rw [Nat.shiftLeft_eq, Nat.shiftLeft_eq]
  exact Nat.lt_of_lt_of_le (Nat.mul_lt_mul_of_pos_right hab (Nat.two_pow_pos s))
    (Nat.mul_le_mul_left b (Nat.pow_le_pow_right (by decide) hst))

def Representable (n : Nat) : Prop := n < unitsLimit ∧ spacing n ∣ n

instance (n : Nat) : Decidable (Representable n) :=
  inferInstanceAs (Decidable (_ ∧ _))

theorem representable_shiftLeft {k s : Nat} (hk : k ≤ significandLimit)
    (h : k <<< s < unitsLimit) : Representable (k <<< s) := by
  refine ⟨h, ?_⟩
  simp only [significandLimit, spacing, Nat.shiftLeft_eq, Nat.one_mul] at hk ⊢
  rcases Nat.eq_zero_or_pos k with rfl | hpos
  · simp
  rcases Nat.lt_or_eq_of_le hk with hlt | rfl
  · have hne : k * 2 ^ s ≠ 0 := Nat.mul_ne_zero (by omega) (Nat.ne_of_gt (Nat.two_pow_pos s))
    have hlog : (k * 2 ^ s).log2 < 24 + s := by
      rw [Nat.log2_lt hne, Nat.pow_add]
      exact Nat.mul_lt_mul_of_pos_right hlt (Nat.two_pow_pos s)
    exact Nat.dvd_trans (Nat.pow_dvd_pow 2 (by omega)) (Nat.dvd_mul_left _ _)
  · rw [← Nat.pow_add, Nat.log2_two_pow]
    exact Nat.pow_dvd_pow 2 (by omega)

structure Magnitude where
  units : Nat
  representable : Representable units
  deriving DecidableEq

inductive Binary32 where
  | nan
  | infinite (negative : Bool)
  | finite (negative : Bool) (magnitude : Magnitude)
  deriving DecidableEq

/-- The whole number nearest to `num / den`; of two equally near, the even one. -/
def nearestEven (num den : Nat) : Nat :=
  let q := num / den
  let r := num % den
  if 2 * r < den ∨ (2 * r = den ∧ q % 2 = 0) then q else q + 1

theorem nearestEven_le_succ (num den : Nat) : nearestEven num den ≤ num / den + 1 := by
  unfold nearestEven
  dsimp only
  split <;> omega

/-- The count nearest to `num / den` among those with 24 significant bits at most. -/
def roundUnits (num den : Nat) : Nat :=
  nearestEven num (den * spacing (num / den)) * spacing (num / den)

theorem nearestEven_spacing_le (num den : Nat) :
    nearestEven num (den * spacing (num / den)) ≤ significandLimit := by
  refine Nat.le_trans (nearestEven_le_succ _ _) ?_
  rw [← Nat.div_div_eq_div_mul]
  generalize num / den = q
  suffices q / spacing q < significandLimit by omega
  rw [Nat.div_lt_iff_lt_mul (spacing_pos q)]
  simp only [significandLimit, spacing, Nat.shiftLeft_eq, Nat.one_mul, ← Nat.pow_add]
  exact Nat.lt_of_lt_of_le Nat.lt_log2_self (Nat.pow_le_pow_right (by decide) (by omega))

theorem representable_roundUnits {num den : Nat} (h : roundUnits num den < unitsLimit) :
    Representable (roundUnits num den) := by
  have heq : roundUnits num den =
      nearestEven num (den * spacing (num / den)) <<< ((num / den).log2 - 23) := by
    simp [roundUnits, spacing, Nat.shiftLeft_eq]
  rw [heq] at h ⊢
  exact representable_shiftLeft (nearestEven_spacing_le num den) h

namespace Binary32

/-- The value nearest to `num / den` units, with the given sign.  From the limit
on there are no finite values. -/
def rounded (negative : Bool) (num den : Nat) : Binary32 :=
  if h : roundUnits num den < unitsLimit then
    finite negative ⟨roundUnits num den, representable_roundUnits h⟩
  else infinite negative

def zero : Binary32 := rounded false 0 1

def ofNat (n : Nat) : Binary32 := rounded false (n * unitsOfOne) 1

/-- The significand bit that an interchange word does not store. -/
def hiddenBit : Nat := 1 <<< 23

/-- The magnitude with biased exponent `e` and stored fraction `f`. -/
def magnitudeOfFields (e f : Nat) : Nat :=
  if e = 0 then f else (hiddenBit + f) <<< (e - 1)

theorem representable_magnitudeOfFields {e f : Nat} (he : e < 255) (hf : f < hiddenBit) :
    Representable (magnitudeOfFields e f) := by
  have hs : hiddenBit + f < significandLimit := by
    simp only [hiddenBit, significandLimit] at hf ⊢
    omega
  have he : e - 1 ≤ 253 := by omega
  unfold magnitudeOfFields
  split
  · have hl : significandLimit < unitsLimit := by decide
    exact representable_shiftLeft (s := 0) (by omega) (by simp; omega)
  · exact representable_shiftLeft (Nat.le_of_lt hs) (shiftLeft_lt_shiftLeft hs he)

/-- The value of an interchange word: a sign bit, eight bits of exponent, 23 of fraction. -/
def ofBits (w : UInt32) : Binary32 :=
  let negative := decide (1 <<< 31 ≤ w.toNat)
  let e := w.toNat / hiddenBit % 256
  let f := w.toNat % hiddenBit
  if he : e < 255 then
    finite negative
      ⟨magnitudeOfFields e f, representable_magnitudeOfFields he (Nat.mod_lt _ (by decide))⟩
  else if f = 0 then infinite negative
  else nan

def signBit (negative : Bool) : Nat := if negative then 1 <<< 31 else 0

/-- The interchange word of a value; every NaN is written as the quiet one. -/
def toBits : Binary32 → UInt32
  | nan => 0x7FC00000
  | infinite negative => UInt32.ofNat (signBit negative + 255 * hiddenBit)
  | finite negative m =>
    if m.units < hiddenBit then UInt32.ofNat (signBit negative + m.units)
    else UInt32.ofNat (signBit negative + (m.units.log2 - 22) * hiddenBit +
      (m.units / spacing m.units - hiddenBit))

def isNan : Binary32 → Bool
  | nan => true
  | _ => false

def isFinite : Binary32 → Bool
  | finite _ _ => true
  | _ => false

def signed (negative : Bool) (m : Magnitude) : Int :=
  if negative then -(m.units : Int) else m.units

/-- The order of the values; nothing is less than a NaN, nor a NaN less than anything. -/
def less : Binary32 → Binary32 → Bool
  | nan, _ | _, nan => false
  | infinite s, infinite t => s && !t
  | infinite s, finite _ _ => s
  | finite _ _, infinite t => !t
  | finite s a, finite t b => decide (signed s a < signed t b)

def isPositive (x : Binary32) : Bool := zero.less x

def clamp (x low high : Binary32) : Binary32 :=
  if x.less low then low else if high.less x then high else x

/-- The whole number nearest to the absolute value, a half going up; 0 where there is none. -/
def nearestWhole : Binary32 → Nat
  | finite _ m => (2 * m.units + unitsOfOne) / (2 * unitsOfOne)
  | _ => 0

def sub : Binary32 → Binary32 → Binary32
  | nan, _ | _, nan => nan
  | infinite s, infinite t => if s = t then nan else infinite s
  | infinite s, finite _ _ => infinite s
  | finite _ _, infinite t => infinite !t
  | finite s a, finite t b =>
    let d := signed s a - signed t b
    let negative := if d = 0 then s && !t && a.units == 0 else decide (d < 0)
    rounded negative d.natAbs 1

def mul : Binary32 → Binary32 → Binary32
  | nan, _ | _, nan => nan
  | infinite s, infinite t => infinite (s != t)
  | infinite s, finite t b => if b.units = 0 then nan else infinite (s != t)
  | finite s a, infinite t => if a.units = 0 then nan else infinite (s != t)
  | finite s a, finite t b => rounded (s != t) (a.units * b.units) unitsOfOne

def div : Binary32 → Binary32 → Binary32
  | nan, _ | _, nan => nan
  | infinite _, infinite _ => nan
  | infinite s, finite t _ => infinite (s != t)
  | finite s _, infinite t => rounded (s != t) 0 1
  | finite s a, finite t b =>
    if b.units = 0 then if a.units = 0 then nan else infinite (s != t)
    else rounded (s != t) (a.units * unitsOfOne) b.units

instance : Sub Binary32 := ⟨sub⟩
instance : Mul Binary32 := ⟨mul⟩
instance : Div Binary32 := ⟨div⟩

end Binary32

end ThermalGauge
