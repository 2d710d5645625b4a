import ThermalGauge.Notice

/-!
# Sources

A source can be asked for the load.  It may change the state it works on, and it tells the
log what it met.  Several sources are asked in order until one has a load; where none has,
the last fault stands.  A breakdown is no fault: it ends the whole reading.
-/

namespace ThermalGauge

inductive Outcome where
  | load (load : Load)
  | fault (why : Fault)
  | breakdown
  deriving DecidableEq

def Outcome.ofExcept : Except Fault Load → Outcome
  | .ok l => .load l
  | .error why => .fault why

structure Reading (σ : Type) where
  outcome : Outcome
  state : σ
  log : Log

structure Source (σ : Type) where
  name : String
  read : σ → Reading σ

namespace Source

variable {σ : Type}

/-- Asks the sources in order; `last` is the fault that stands if there is none to ask. -/
def readFrom (last : Fault) : List (Source σ) → σ → Reading σ
  | [], s => ⟨.fault last, s, []⟩
  | source :: sources, s =>
    let r := source.read s
    match r.outcome with
    | .load load => ⟨.load load, r.state, r.log ++ [.sourceRead source.name load]⟩
    | .fault why =>
      let later := readFrom why sources r.state
      ⟨later.outcome, later.state, r.log ++ .sourceFailed source.name why :: later.log⟩
    | .breakdown => r

@[simp] theorem readFrom_nil (last : Fault) (s : σ) :
    readFrom last [] s = ⟨.fault last, s, []⟩ := rfl

theorem readFrom_cons_of_load {source : Source σ} {s : σ} {load : Load}
    (h : (source.read s).outcome = .load load) (last : Fault) (sources : List (Source σ)) :
    readFrom last (source :: sources) s =
      ⟨.load load, (source.read s).state,
        (source.read s).log ++ [.sourceRead source.name load]⟩ := by
  simp [readFrom, h]

theorem readFrom_cons_of_fault {source : Source σ} {s : σ} {why : Fault}
    (h : (source.read s).outcome = .fault why) (last : Fault) (sources : List (Source σ)) :
    readFrom last (source :: sources) s =
      let later := readFrom why sources (source.read s).state
      ⟨later.outcome, later.state,
        (source.read s).log ++ .sourceFailed source.name why :: later.log⟩ := by
  simp [readFrom, h]

theorem readFrom_cons_of_breakdown {source : Source σ} {s : σ}
    (h : (source.read s).outcome = .breakdown) (last : Fault) (sources : List (Source σ)) :
    readFrom last (source :: sources) s = source.read s := by
  simp [readFrom, h]

/-- The fault where there are no sources at all. -/
def noSources : Fault := .noSensors "sampler"

def readFirst (sources : List (Source σ)) (s : σ) : Reading σ := readFrom noSources sources s

@[simp] theorem readFirst_nil (s : σ) : readFirst [] s = ⟨.fault noSources, s, []⟩ := rfl

end Source

/-- A reading in which the sentinel stands for a fault. -/
def Reading.orSentinel {σ : Type} (r : Reading σ) : Reading σ :=
  match r.outcome with
  | .fault why => ⟨.load .sentinel, r.state, r.log ++ [.noReading why]⟩
  | _ => r

end ThermalGauge
