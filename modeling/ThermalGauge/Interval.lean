/-!
# Intervals of time

An interval is a count of nanoseconds.  It is written in the largest unit of which it holds
at least one, with as many decimals as it needs.
-/

namespace ThermalGauge

structure Interval where
  nanoseconds : Nat
  deriving DecidableEq, Repr

namespace Interval

def ofMilliseconds (ms : Nat) : Interval := ⟨ms * 1000000⟩

/-- The digits of a fraction of `places` decimals, without the zeros at the end. -/
def fractionDigits (places n : Nat) : List Char :=
  let ds := Nat.toDigits 10 n
  let padded := List.replicate (places - ds.length) '0' ++ ds
  (padded.reverse.dropWhile (· = '0')).reverse

def inUnit (n places : Nat) (unit : String) : String :=
  let unitSize := Nat.pow 10 places
  let whole := toString (n / unitSize)
  let fraction := if places = 0 then [] else fractionDigits places (n % unitSize)
  if fraction.isEmpty then whole ++ unit
  else whole ++ "." ++ String.ofList fraction ++ unit

def text (t : Interval) : String :=
  let n := t.nanoseconds
  if 1000000000 ≤ n then inUnit n 9 "s"
  else if 1000000 ≤ n then inUnit n 6 "ms"
  else if 1000 ≤ n then inUnit n 3 "µs"
  else inUnit n 0 "ns"

end Interval

end ThermalGauge
