import ThermalGauge.Binary32.Decimal

/-!
# Shortest digits

The decimal numbers nearer to a magnitude than to its neighbours fill an interval, whose ends
belong to it when the significand is even.  Grids of decimal numbers are tried from the
coarsest on; on each, only the two points around the value can be of use.  The first grid
with a point in the interval wins, of two such points the nearer, and the upper one on a tie.
All is counted in quarters of a unit, where the ends of the interval are whole.

Two written forms share these digits: one that never has an exponent, and one that always
shows that the number may have a fraction.
-/

namespace ThermalGauge

namespace Magnitude

/-- The distance to the next count below: half as much at a power of two, except among the
least magnitudes. -/
def spacingBelow (n : Nat) : Nat :=
  if 23 < n.log2 ∧ n = 1 <<< n.log2 then spacing n / 2 else spacing n

/-- The decimal numbers that are read back as one magnitude, in quarters of a unit. -/
structure Interval where
  low : Nat
  value : Nat
  high : Nat
  closed : Bool
  deriving Repr

def interval (n : Nat) : Interval where
  low := 4 * n - 2 * spacingBelow n
  value := 4 * n
  high := 4 * n + 2 * spacing n
  closed := n / spacing n % 2 = 0

/-- The point of the grid of multiples of `10 ^ g` that stands for the value, if one does. -/
def Interval.gridPoint? (i : Interval) (g : Int) : Option Nat :=
  let scale := Nat.pow 10 (-g).toNat
  let step := 4 * unitsOfOne * Nat.pow 10 g.toNat
  let within (x : Nat) : Bool :=
    if i.closed then i.low * scale ≤ x && x ≤ i.high * scale
    else i.low * scale < x && x < i.high * scale
  let below := i.value * scale / step
  match within (below * step), within ((below + 1) * step) with
  | false, false => none
  | true, false => some below
  | false, true => some (below + 1)
  | true, true =>
    if i.value * scale - below * step < (below + 1) * step - i.value * scale then some below
    else some (below + 1)

/-- Tries `tries` grids, each ten times finer than the one before. -/
def Interval.search (i : Interval) : Nat → Int → Decimal
  | 0, g => ⟨i.value * Nat.pow 10 (-g).toNat / (4 * unitsOfOne * Nat.pow 10 g.toNat), g⟩
  | tries + 1, g =>
    match i.gridPoint? g with
    | some d => ⟨d, g⟩
    | none => i.search tries (g - 1)

/-- The exponent of the leading decimal digit.  The least magnitude is above `10 ^ -60`. -/
def leadingExponent (n : Nat) : Int :=
  ((Nat.toDigits 10 (n * Nat.pow 10 60 / unitsOfOne)).length : Int) - 61

def shortest (m : Magnitude) : Decimal :=
  if m.units = 0 then ⟨0, 0⟩ else (interval m.units).search 9 (leadingExponent m.units)

end Magnitude

namespace Decimal

/-- The digits without the zeros at the end, and the place of the point among them. -/
def layout (d : Decimal) : List Char × Int :=
  let ds := Nat.toDigits 10 d.digits
  ((ds.reverse.dropWhile (· = '0')).reverse, ds.length + d.exponent)

def positional (d : Decimal) : List Char × List Char :=
  let (ds, point) := d.layout
  match point with
  | .ofNat p =>
    let whole := ds.take p ++ List.replicate (p - ds.length) '0'
    (if whole.isEmpty then ['0'] else whole, ds.drop p)
  | .negSucc p => (['0'], List.replicate (p + 1) '0' ++ ds)

/-- The exponent that a number has when one digit stands before the point. -/
def scientificExponent (d : Decimal) : Int := d.layout.2 - 1

/-- One digit before the point, the others after it, and the exponent. -/
def scientific (d : Decimal) : List Char :=
  let (ds, point) := d.layout
  ds.take 1 ++ (if ds.length ≤ 1 then [] else '.' :: ds.drop 1) ++
    ('e' :: (toString (point - 1)).toList)

end Decimal

namespace Binary32

def signText (negative : Bool) : String := if negative then "-" else ""

/-- The digits alone, never an exponent. -/
def text : Binary32 → String
  | nan => "NaN"
  | infinite negative => signText negative ++ "inf"
  | finite negative m =>
    let (whole, fraction) := m.shortest.positional
    signText negative ++
      String.ofList (if fraction.isEmpty then whole else whole ++ '.' :: fraction)

/-- With a point in every number, or with an exponent where the number is below `10 ^ -4`
or not below `10 ^ 16`. -/
def literal : Binary32 → String
  | nan => "NaN"
  | infinite negative => signText negative ++ "inf"
  | finite negative m =>
    let d := m.shortest
    let e := d.scientificExponent
    signText negative ++ String.ofList
      (if m.units ≠ 0 ∧ (e < -4 ∨ 16 ≤ e) then d.scientific
      else
        let (whole, fraction) := d.positional
        whole ++ '.' :: (if fraction.isEmpty then ['0'] else fraction))

end Binary32

end ThermalGauge
