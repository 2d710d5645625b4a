/-!
# UTF-8

Octets are read one at a time by a machine that keeps the character it has begun.  What
comes out is a list of pieces: characters, and the stretches of octets that belong to none.
A stretch is as long as some character begins with it, so every octet sequence has one
reading.  Strict decoding accepts a sequence with no stray stretch; lenient decoding puts
the replacement character in place of each.
-/

namespace ThermalGauge

abbrev Octets := List UInt8

namespace Utf8

/-- The octets of a character: a lead that tells their number, and six bits in each of the
others. -/
def encodeChar (c : Char) : Octets :=
  let n := c.toNat
  if n < 0x80 then [.ofNat n]
  else if n < 0x800 then [.ofNat (0xC0 + n / 64), .ofNat (0x80 + n % 64)]
  else if n < 0x10000 then
    [.ofNat (0xE0 + n / 4096), .ofNat (0x80 + n / 64 % 64), .ofNat (0x80 + n % 64)]
  else
    [.ofNat (0xF0 + n / 262144), .ofNat (0x80 + n / 4096 % 64), .ofNat (0x80 + n / 64 % 64),
      .ofNat (0x80 + n % 64)]

def encode (text : String) : Octets := text.toList.flatMap encodeChar

inductive Piece where
  | char (c : Char)
  | stray (octets : Octets)
  deriving DecidableEq, Repr

/-- A character of which some octets are still owed: those seen (the latest first), the
bits gathered, how many follow the next one, and the range in which the next one lies. -/
structure Begun where
  seen : Octets
  bits : Nat
  owed : Nat
  low : Nat
  high : Nat
  deriving DecidableEq, Repr

/-- An octet where a character may start.  The ranges exclude overlong forms, surrogates
and everything above U+10FFFF. -/
def start (b : UInt8) : List Piece × Option Begun :=
  let n := b.toNat
  if n < 0x80 then ([.char (.ofNat n)], none)
  else if n < 0xC2 then ([.stray [b]], none)
  else if n < 0xE0 then ([], some ⟨[b], n - 0xC0, 0, 0x80, 0xBF⟩)
  else if n < 0xF0 then
    ([], some ⟨[b], n - 0xE0, 1, if n = 0xE0 then 0xA0 else 0x80,
      if n = 0xED then 0x9F else 0xBF⟩)
  else if n < 0xF5 then
    ([], some ⟨[b], n - 0xF0, 2, if n = 0xF0 then 0x90 else 0x80,
      if n = 0xF4 then 0x8F else 0xBF⟩)
  else ([.stray [b]], none)

def step (begun : Option Begun) (b : UInt8) : List Piece × Option Begun :=
  match begun with
  | none => start b
  | some p =>
    if p.low ≤ b.toNat ∧ b.toNat ≤ p.high then
      let bits := p.bits * 64 + (b.toNat - 0x80)
      match p.owed with
      | 0 => ([.char (.ofNat bits)], none)
      | n + 1 => ([], some ⟨b :: p.seen, bits, n, 0x80, 0xBF⟩)
    else (.stray p.seen.reverse :: (start b).1, (start b).2)

def scan (begun : Option Begun) : Octets → List Piece
  | [] => match begun with
    | none => []
    | some p => [.stray p.seen.reverse]
  | b :: rest => (step begun b).1 ++ scan (step begun b).2 rest

/-- The characters and stray stretches of `octets`, in order. -/
def pieces (octets : Octets) : List Piece := scan none octets

def Piece.char? : Piece → Option Char
  | .char c => some c
  | .stray _ => none

/-- The characters of `pieces`, if there is nothing else among them. -/
def chars? (pieces : List Piece) : Option (List Char) := pieces.mapM Piece.char?

/-- Strict decoding: every octet belongs to a character. -/
def decode? (octets : Octets) : Option String := (chars? (pieces octets)).map String.ofList

/-- Lenient decoding: U+FFFD stands for each stray stretch. -/
def decodeLossy (octets : Octets) : String :=
  String.ofList ((pieces octets).map fun p => p.char?.getD '\uFFFD')

end Utf8

end ThermalGauge
