import ThermalGauge.Component
import ThermalGauge.Cooling
import ThermalGauge.Source

/-!
# Gauges

A gauge is a selection and a list of probes, each of which says where a reading comes from:
the cooling devices below a root, the temperature sensors, or a script of prepared answers.
Probes are data, and a probe is read as a source on the surroundings: the file tree, the
sensors and the scripts as far as they have not been played.
-/

namespace ThermalGauge

inductive Answer where
  | percent (value : Binary32)
  | ratio (current max : UInt64)
  | fault (why : Fault)
  deriving DecidableEq

namespace Answer

/-- What a source of this name makes of the answer. -/
def outcome (name : String) : Answer → Outcome
  | percent value => .load (.ofPercent value)
  | ratio current max => match Load.ofRatio current max with
    | some load => .load load
    | none => .fault (.noSensors name)
  | fault why => .fault why

end Answer

/-- Prepared answers in order, of which the last repeats. -/
abbrev Script := List Answer

namespace Script

def outcome (name : String) : Script → Outcome
  | [] => .fault (.noSensors name)
  | answer :: _ => answer.outcome name

def rest : Script → Script
  | _ :: answer :: answers => answer :: answers
  | script => script

end Script

structure Surroundings where
  tree : FileTree
  feed : Component.Feed
  scripts : List Script

namespace Surroundings

def edit (s : Surroundings) (e : Edit) : Surroundings := { s with tree := s.tree.apply e }

def withFrames (s : Surroundings) (frames : List Component.Frame) : Surroundings :=
  { s with feed := .ofFrames frames }

end Surroundings

inductive Probe where
  | cooling (root : Path)
  | components (ramp : Ramp)
  /-- The script with this number. -/
  | scripted (name : String) (number : Nat)
  deriving DecidableEq

namespace Probe

def name : Probe → String
  | cooling _ => Cooling.sourceName
  | components _ => Component.sourceName
  | scripted name _ => name

def readCooling (root : Path) (s : Surroundings) : Reading Surroundings :=
  ⟨.ofExcept (Cooling.sample s.tree root), s, Cooling.log s.tree root⟩

/-- Reading the sensors takes a frame, also where they break down. -/
def readComponents (ramp : Ramp) (s : Surroundings) : Reading Surroundings :=
  let after := { s with feed := s.feed.advance }
  match s.feed.next with
  | none => ⟨.breakdown, after, []⟩
  | some found =>
    ⟨.ofExcept (Component.sample ramp found), after, found.map Component.notice⟩

def readScript (name : String) (number : Nat) (s : Surroundings) : Reading Surroundings :=
  let script := s.scripts.getD number []
  ⟨script.outcome name, { s with scripts := s.scripts.set number script.rest }, []⟩

def source (p : Probe) : Source Surroundings where
  name := p.name
  read := match p with
    | cooling root => readCooling root
    | components ramp => readComponents ramp
    | scripted name number => readScript name number

end Probe

structure Gauge where
  selection : Selection
  probes : List Probe
  deriving DecidableEq

namespace Gauge

def sources (g : Gauge) : List (Source Surroundings) := g.probes.map Probe.source

def sourceNames (g : Gauge) : List String := g.probes.map Probe.name

def read (g : Gauge) (s : Surroundings) : Reading Surroundings := Source.readFirst g.sources s

def readOrSentinel (g : Gauge) (s : Surroundings) : Reading Surroundings :=
  (g.read s).orSentinel

/-- A gauge that never has a reading. -/
def unavailable (selection : Selection) : Gauge := ⟨selection, []⟩

def description (g : Gauge) : String :=
  "Sampler \x7b kind: " ++ g.selection.description ++ ", sources: [" ++
    ", ".intercalate (g.sourceNames.map Text.quote) ++ "] \x7d"

/-- A source to be put into a gauge; what is left out has its default. -/
inductive Part where
  | scripted (name : String) (script : Script)
  | cooling (root : Option Path)
  | components (margin : Option Binary32)

/-- The probe that a part becomes, and its script if it has one; `number` is that of the next
script. -/
def Part.probe (number : Nat) : Part → Except Misconfiguration (Probe × List Script)
  | scripted name script => .ok (.scripted name number, [script])
  | cooling root => .ok (.cooling (root.getD Cooling.defaultRoot), [])
  | components none => .ok (.components default, [])
  | components (some margin) => (Ramp.ofMargin margin).map fun ramp => (.components ramp, [])

def assembleFrom (number : Nat) :
    List Part → Except Misconfiguration (List Probe × List Script)
  | [] => .ok ([], [])
  | part :: parts =>
    match part.probe number with
    | .error why => .error why
    | .ok (probe, scripts) =>
      match assembleFrom (number + scripts.length) parts with
      | .error why => .error why
      | .ok (probes, more) => .ok (probe :: probes, scripts ++ more)

/-- A gauge over any sources, with the scripts that its scripted sources play. -/
def assemble (parts : List Part) : Except Fault (Gauge × List Script) :=
  match assembleFrom 0 parts with
  | .ok (probes, scripts) => .ok (⟨.auto, probes⟩, scripts)
  | .error why => .error (.misconfigured why)

end Gauge

end ThermalGauge
