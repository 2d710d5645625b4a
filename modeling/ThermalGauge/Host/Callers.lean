import ThermalGauge.Host

/-!
# Callers side by side

Several callers ask a host for the load at the same time.  A caller gets the gauge, which the
first of them sets up, and then asks one probe after the other; between any two of its steps
others can make theirs.  A schedule says who makes the next step.
-/

namespace ThermalGauge

namespace Host

inductive Stage where
  | arriving
  /-- The probes that are still to be asked, and the fault that stands. -/
  | asking (probes : List Probe) (last : Fault)
  | served (load : Load)
  | broken
  deriving DecidableEq

structure Callers where
  host : Host
  stages : List Stage
  log : Log

namespace Callers

def arrive (h : Host) (n : Nat) : Callers := ⟨h, List.replicate n .arriving, []⟩

/-- One step of a caller, and what it tells the log. -/
def stepStage (h : Host) : Stage → Host × Stage × Log
  | .arriving =>
    let (h, gauge, log) := h.ensure
    (h, .asking gauge.probes Source.noSources, log)
  | .asking [] last => (h, .served .sentinel, [.noReading last])
  | .asking (probe :: probes) _ =>
    let r := probe.source.read h.surroundings
    let h := { h with surroundings := r.state }
    match r.outcome with
    | .load load => (h, .served load, r.log ++ [.sourceRead probe.name load])
    | .fault why => (h, .asking probes why, r.log ++ [.sourceFailed probe.name why])
    | .breakdown => (h, .broken, r.log)
  | stage => (h, stage, [])

/-- A step of the caller with this number; there may be no such caller. -/
def step (s : Callers) (caller : Nat) : Callers :=
  match s.stages[caller]? with
  | none => s
  | some stage =>
    let (host, stage, log) := stepStage s.host stage
    ⟨host, s.stages.set caller stage, s.log ++ log⟩

def run (s : Callers) (schedule : List Nat) : Callers := schedule.foldl step s

/-- Every caller makes its steps before the next one makes any. -/
def inTurn (callers rounds : Nat) : List Nat :=
  (List.range callers).flatMap fun caller => List.replicate rounds caller

/-- All callers make their first step, then all their second one, and so on. -/
def abreast (callers rounds : Nat) : List Nat :=
  (List.replicate rounds (List.range callers)).flatten

def load? : Stage → Option Load
  | .served load => some load
  | _ => none

def loads (s : Callers) : List Load := s.stages.filterMap load?

def isBroken (s : Callers) : Bool := s.stages.any (· == .broken)

/-- The number of steps within which every caller is served: to get the gauge, to ask each
of its probes, and to find out that there are no more. -/
def roundsOf (h : Host) : Nat := h.ensure.2.1.probes.length + 2

end Callers

/-- What `n` callers get who call at the same time, or nothing if the sensors broke down under
one of them, and what they tell the log. -/
def callTogether (h : Host) (n : Nat) : Host × Option (List Load) × Log :=
  let s := (Callers.arrive h n).run (Callers.abreast n (Callers.roundsOf h))
  (s.host, if s.isBroken then none else some s.loads, s.log)

end Host

end ThermalGauge
