import ThermalGauge.Gauge

/-!
# Settings

What a gauge is built from: a selection, the root of the cooling devices and the onset
margin.  The margin is checked where temperature sensors are read, and nowhere else.
Variables can change settings; a value that is no good changes nothing and is reported.
-/

namespace ThermalGauge

structure Settings where
  selection : Selection
  sysfsRoot : Path
  onsetMargin : Binary32
  deriving DecidableEq

namespace Settings

instance : Inhabited Settings := ⟨.auto, Cooling.defaultRoot, Ramp.defaultMargin⟩

def description (s : Settings) : String :=
  "SamplerBuilder \x7b source: " ++ s.selection.description ++ ", sysfs_root: " ++
    s.sysfsRoot.quoted ++ ", onset_margin: " ++ s.onsetMargin.literal ++ " \x7d"

def ramp (s : Settings) : Except Fault Ramp :=
  (Ramp.ofMargin s.onsetMargin).mapError Fault.misconfigured

def build (s : Settings) : Except Fault Gauge :=
  let probes : Except Fault (List Probe) := match s.selection with
    | .auto => s.ramp.map fun ramp => [.cooling s.sysfsRoot, .components ramp]
    | .cooling => .ok [.cooling s.sysfsRoot]
    | .components => s.ramp.map fun ramp => [.components ramp]
  probes.map fun probes => ⟨s.selection, probes⟩

/-- The selection with this name. -/
def readSelection (text : String) : Except Misconfiguration Selection :=
  match Selection.ofName? text with
  | some selection => .ok selection
  | none => .error (.unknownSource (Selection.fold text))

/-- A positive finite number with blanks around it. -/
def readMargin (text : String) : Except Misconfiguration Binary32 :=
  match Binary32.read (Text.trim text) with
  | .ok margin =>
    if margin.isFinite && margin.isPositive then .ok margin else .error (.marginText text)
  | .error _ => .error (.marginText text)

abbrev Lookup := Variable → Option String

def applySource (s : Settings) : Option String → Settings × Log
  | none => (s, [])
  | some text => match readSelection text with
    | .ok selection => ({ s with selection }, [])
    | .error why => (s, [.ignored .source why])

def applyRoot (s : Settings) : Option String → Settings × Log
  | none => (s, [])
  | some text =>
    let value := Text.trim text
    if value.isEmpty then (s, [.ignoredEmpty .sysfsRoot])
    else ({ s with sysfsRoot := .ofText value }, [])

def applyMargin (s : Settings) : Option String → Settings × Log
  | none => (s, [])
  | some text => match readMargin text with
    | .ok onsetMargin => ({ s with onsetMargin }, [])
    | .error why => (s, [.ignored .onsetMargin why])

def applyLookup (s : Settings) (lookup : Lookup) : Settings × Log :=
  let (s, first) := s.applySource (lookup .source)
  let (s, second) := s.applyRoot (lookup .sysfsRoot)
  let (s, third) := s.applyMargin (lookup .onsetMargin)
  (s, first ++ second ++ third)

/-- The variables of a process, of which the values need not be texts. -/
abbrev Environment := Variable → Option Octets

/-- A value that is no text counts as not set. -/
def Environment.lookup (e : Environment) : Lookup := fun v => (e v).bind Utf8.decode?

def applyEnvironment (s : Settings) (e : Environment) : Settings × Log :=
  s.applyLookup e.lookup

end Settings

end ThermalGauge
