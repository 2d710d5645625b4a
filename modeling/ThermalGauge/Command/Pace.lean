import ThermalGauge.Command.Run

/-!
# The pace of a run

A run takes its samples one interval after the other: what a sample has left of the interval is
rested, but not after the last one.  The samples are counted in words of 32 bits.  A word has no
successor if it is the greatest, and nothing is left of an interval that took longer than it is;
a run that needs one of them has gone out of range.
-/

namespace ThermalGauge

namespace Command

inductive OutOfRange where
  | index
  | rest
  deriving DecidableEq, Repr

/-- What is left of an interval of which some has elapsed. -/
def left (interval elapsed : Interval) : Except OutOfRange Interval :=
  if elapsed.nanoseconds ≤ interval.nanoseconds then
    .ok ⟨interval.nanoseconds - elapsed.nanoseconds⟩
  else .error .rest

def successor (index : UInt32) : Except OutOfRange UInt32 :=
  if index.toNat + 1 < countBound then .ok (index + 1) else .error .index

/-- The rest after the sample with this index, which took the time elapsed. -/
def restAfter (interval elapsed : Interval) (count index : UInt32) :
    Except OutOfRange (Option Interval) :=
  match successor index with
  | .error why => .error why
  | .ok next =>
    if next < count ∧ elapsed.nanoseconds < interval.nanoseconds then
      (left interval elapsed).map some
    else .ok none

/-- Samples, and the rest after each of them. -/
structure Paced where
  samples : Samples
  rests : List (Option Interval)

/-- Samples that were taken before others. -/
def Samples.append (first later : Samples) : Samples :=
  ⟨first.lines ++ later.lines, first.log ++ later.log, later.exit, later.surroundings⟩

theorem toNat_add_one {index count : UInt32} (h : index < count) :
    (index + 1).toNat = index.toNat + 1 := by
  have hlt : index.toNat < count.toNat := UInt32.lt_iff_toNat_lt.mp h
  have hcount := count.toNat_lt
  rw [UInt32.toNat_add, Nat.mod_eq_of_lt]
  · rfl
  · show index.toNat + 1 < _
    omega

/-- The samples from an index on; `elapsed` tells how long each of them takes. -/
def takePaced (g : Gauge) (interval : Interval) (elapsed : Nat → Interval)
    (count index : UInt32) (exit : Exit) (s : Surroundings) : Except OutOfRange Paced :=
  if index < count then
    let first := takeSamples g 1 exit s
    match (g.read s).outcome with
    | .breakdown => .ok ⟨first, []⟩
    | _ =>
      match restAfter interval (elapsed index.toNat) count index with
      | .error why => .error why
      | .ok rest =>
        (takePaced g interval elapsed count (index + 1) first.exit first.surroundings).map
          fun later => ⟨first.append later.samples, rest :: later.rests⟩
  else .ok ⟨⟨[], [], exit, s⟩, []⟩
termination_by count.toNat - index.toNat
decreasing_by
  have hlt : index.toNat < count.toNat := UInt32.lt_iff_toNat_lt.mp ‹index < count›
  rw [toNat_add_one ‹index < count›]
  omega

end Command

end ThermalGauge
