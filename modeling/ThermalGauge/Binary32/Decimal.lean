import ThermalGauge.Binary32.Basic
import ThermalGauge.Text.Numeral

/-!
# Decimal literals

A literal is an optional sign before digits with an optional point among them, of which at
least one is there, and an optional exponent; or it is one of the words `inf`, `infinity` and
`nan` in either case.  Its value is the one nearest to what the digits say.  The digits of an
exponent are taken in until it reaches 65536, where further ones make no difference to a
literal of any ordinary length.
-/

namespace ThermalGauge

/-- The number `digits * 10 ^ exponent`. -/
structure Decimal where
  digits : Nat
  exponent : Int
  deriving DecidableEq, Repr

namespace Decimal

def round (negative : Bool) (d : Decimal) : Binary32 :=
  match d.exponent with
  | .ofNat e => .rounded negative (d.digits * Nat.pow 10 e * unitsOfOne) 1
  | .negSucc e => .rounded negative (d.digits * unitsOfOne) (Nat.pow 10 (e + 1))

inductive Refusal where
  | empty
  | malformed
  deriving DecidableEq, Repr

def Refusal.message : Refusal → String
  | .empty => "cannot parse float from empty string"
  | .malformed => "invalid float literal"

def isDigit (c : Char) : Bool := (Text.digit? c).isSome

def digitsValue (cs : List Char) : Nat :=
  cs.foldl (fun value c => value * 10 + (Text.digit? c).getD 0) 0

def exponentValue (cs : List Char) : Nat :=
  cs.foldl (fun value c =>
    if value < 0x10000 then value * 10 + (Text.digit? c).getD 0 else value) 0

/-- What follows the `e` of an exponent: an optional sign and digits, at least one. -/
def readExponent? (cs : List Char) : Option Int :=
  let (negative, digits) := match cs with
    | '-' :: rest => (true, rest)
    | '+' :: rest => (false, rest)
    | rest => (false, rest)
  if digits.isEmpty || !digits.all isDigit then none
  else if negative then some (-(exponentValue digits : Int))
  else some (exponentValue digits)

/-- Digits with an optional point and an optional exponent, up to the end. -/
def read? (cs : List Char) : Option Decimal := do
  let whole := cs.takeWhile isDigit
  let afterWhole := cs.dropWhile isDigit
  let (fraction, rest) := match afterWhole with
    | '.' :: r => (r.takeWhile isDigit, r.dropWhile isDigit)
    | r => ([], r)
  if whole.isEmpty && fraction.isEmpty then none else
  let exponent ← match rest with
    | [] => some 0
    | c :: r => if c = 'e' ∨ c = 'E' then readExponent? r else none
  some ⟨digitsValue (whole ++ fraction), exponent - fraction.length⟩

def readWord? (negative : Bool) (cs : List Char) : Option Binary32 :=
  match String.ofList (cs.map Char.toLower) with
  | "inf" | "infinity" => some (.infinite negative)
  | "nan" => some .nan
  | _ => none

def readUnsigned (negative : Bool) (cs : List Char) : Except Refusal Binary32 :=
  match read? cs with
  | some d => .ok (d.round negative)
  | none => match readWord? negative cs with
    | some x => .ok x
    | none => .error .malformed

end Decimal

namespace Binary32

def read (text : String) : Except Decimal.Refusal Binary32 :=
  match text.toList with
  | [] => .error .empty
  | '-' :: cs => Decimal.readUnsigned true cs
  | '+' :: cs => Decimal.readUnsigned false cs
  | cs => Decimal.readUnsigned false cs

end Binary32

end ThermalGauge
