import ThermalGauge.Notice

/-!
# Temperature sensors

A component has a temperature and a critical temperature, as far as its sensor tells them.
Its load is 0 up to a margin below the critical temperature and grows with the temperature
from there, to 100 at the critical one.  The host's sensors are refreshed for every reading;
a refresh brings a frame with all components, or the sensors break down.
-/

namespace ThermalGauge

/-- How far below the critical temperature the load begins to grow, in degrees. -/
structure Ramp where
  margin : Binary32
  finite : margin.isFinite = true
  positive : margin.isPositive = true
  deriving DecidableEq

namespace Ramp

def defaultMargin : Binary32 := .ofNat 20

def ofMargin (margin : Binary32) : Except Misconfiguration Ramp :=
  if h : margin.isFinite = true ∧ margin.isPositive = true then .ok ⟨margin, h.1, h.2⟩
  else .error (.margin margin)

instance : Inhabited Ramp := ⟨⟨defaultMargin, by decide +kernel, by decide +kernel⟩⟩

/-- The load of a component; there is none without finite temperatures and a critical one
above zero. -/
def load (r : Ramp) (temperature critical : Binary32) : Option Load :=
  if temperature.isFinite && critical.isFinite && critical.isPositive then
    let onset := critical - r.margin
    some (.ofPercent ((temperature - onset) / r.margin * .ofNat 100))
  else none

end Ramp

structure Component where
  label : String
  temperature : Option Binary32
  critical : Option Binary32
  deriving DecidableEq

namespace Component

def sourceName : String := "components"

def load? (r : Ramp) (c : Component) : Option Load :=
  match c.temperature, c.critical with
  | some temperature, some critical => r.load temperature critical
  | _, _ => none

def greatestLoad (r : Ramp) (cs : List Component) : Option Load :=
  Load.greatest (cs.filterMap (load? r))

def notice (c : Component) : Notice := .component c.label c.temperature c.critical

def sample (r : Ramp) (cs : List Component) : Except Fault Load :=
  match greatestLoad r cs with
  | some load => .ok load
  | none => .error (.noSensors sourceName)

/-- What a refresh of the sensors brings; nothing, if they break down. -/
abbrev Frame := Option (List Component)

/-- The frames that refreshes bring one after the other, the last of them again and again,
and how many refreshes there were. -/
structure Feed where
  frames : List Frame
  taken : Nat
  deriving DecidableEq

namespace Feed

def ofFrames (frames : List Frame) : Feed := ⟨frames, 0⟩

/-- The frame of the next refresh; without any, there are no sensors. -/
def next (f : Feed) : Frame :=
  match f.frames[f.taken]? with
  | some frame => frame
  | none => f.frames.getLast?.getD (some [])

def advance (f : Feed) : Feed := { f with taken := f.taken + 1 }

/-- No refresh brings a frame that was not taken before. -/
def exhausted (f : Feed) : Bool := 0 < f.taken && f.frames.length ≤ f.taken

end Feed

end Component

end ThermalGauge
