/-!
# Whole numbers

Decimal numerals with an optional sign, read from the left.  A numeral is refused at the
first character that is no digit or that carries the value past the limit, whichever comes
first; the refusal says which.
-/

namespace ThermalGauge.Text

inductive NumeralRefusal where
  | empty
  | badDigit
  | tooLarge
  | tooSmall
  deriving DecidableEq, Repr

def NumeralRefusal.message : NumeralRefusal → String
  | .empty => "cannot parse integer from empty string"
  | .badDigit => "invalid digit found in string"
  | .tooLarge => "number too large to fit in target type"
  | .tooSmall => "number too small to fit in target type"

def digit? (c : Char) : Option Nat :=
  if '0' ≤ c ∧ c ≤ '9' then some (c.toNat - '0'.toNat) else none

/-- Appends the digits of a list to a value that never exceeds `limit`. -/
def readDigits (limit : Nat) (past : NumeralRefusal) :
    Nat → List Char → Except NumeralRefusal Nat
  | value, [] => .ok value
  | value, c :: cs =>
    match digit? c with
    | none => .error .badDigit
    | some d =>
      if value * 10 + d ≤ limit then readDigits limit past (value * 10 + d) cs
      else .error past

/-- A numeral below `bound`; a plus sign may precede the digits. -/
def readBelow (bound : Nat) : List Char → Except NumeralRefusal Nat
  | [] => .error .empty
  | '+' :: c :: cs => readDigits (bound - 1) .tooLarge 0 (c :: cs)
  | cs => readDigits (bound - 1) .tooLarge 0 cs

/-- A numeral of which the absolute value stays below `bound`, or reaches it on the
negative side. -/
def readWithin (bound : Nat) : List Char → Except NumeralRefusal Int
  | '-' :: c :: cs => (readDigits bound .tooSmall 0 (c :: cs)).map fun n => -(n : Int)
  | cs => (readBelow bound cs).map fun n => (n : Int)

def readUInt64 (s : String) : Except NumeralRefusal UInt64 :=
  (readBelow (1 <<< 64) s.toList).map UInt64.ofNat

end ThermalGauge.Text
