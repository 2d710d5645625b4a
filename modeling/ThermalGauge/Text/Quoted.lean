import ThermalGauge.Text.Unseen
import ThermalGauge.Text.Utf8

/-!
# Quoted text

A text in a message stands between double quotes, and a reader can tell from it which
characters it holds: quotes, backslashes and characters that cannot be seen are written as
escapes.  Octets are quoted through the characters they encode, those of a stray stretch
in hexadecimal.
-/

namespace ThermalGauge.Text

def hexDigits (n : Nat) : List Char := Nat.toDigits 16 n

def escapeChar (c : Char) : List Char :=
  match c with
  | '\x00' => ['\\', '0']
  | '\t' => ['\\', 't']
  | '\n' => ['\\', 'n']
  | '\r' => ['\\', 'r']
  | '"' => ['\\', '"']
  | '\\' => ['\\', '\\']
  | c => if isUnseen c then ['\\', 'u', '{'] ++ hexDigits c.toNat ++ ['}'] else [c]

/-- A backslash, an `x` and two capital hexadecimal digits. -/
def escapeOctet (b : UInt8) : List Char :=
  let digits := (hexDigits b.toNat).map Char.toUpper
  ['\\', 'x'] ++ List.replicate (2 - digits.length) '0' ++ digits

def escapePiece : Utf8.Piece → List Char
  | .char c => escapeChar c
  | .stray octets => octets.flatMap escapeOctet

def quote (s : String) : String :=
  String.ofList (['"'] ++ s.toList.flatMap escapeChar ++ ['"'])

def quoteOctets (octets : Octets) : String :=
  String.ofList (['"'] ++ (Utf8.pieces octets).flatMap escapePiece ++ ['"'])

end ThermalGauge.Text
