import ThermalGauge.Settings

/-!
# Hosts

A host process has one gauge.  Whatever needs it first sets it up, from the variables as
they are then; later calls use the same one.  Loads that are asked for in a host are never
faults: the sentinel stands for those.  A breakdown of the sensors passes through, except at
the boundary to a caller that has no way to hear of it, where the sentinel stands for it too.
-/

namespace ThermalGauge

structure Host where
  gauge? : Option Gauge
  environment : Settings.Environment
  surroundings : Surroundings

namespace Host

/-- The gauge for settings; one that never has a reading where they are no good. -/
def buildOrUnavailable (settings : Settings) : Gauge × Log :=
  match settings.build with
  | .ok gauge => (gauge, [])
  | .error why => (.unavailable settings.selection, [.setupFailed why])

def setUp (environment : Settings.Environment) : Gauge × Log :=
  let (settings, first) := (default : Settings).applyEnvironment environment
  let (gauge, second) := buildOrUnavailable settings
  (gauge, first ++ second)

/-- The gauge of the host, set up if it was not there. -/
def ensure (h : Host) : Host × Gauge × Log :=
  match h.gauge? with
  | some gauge => (h, gauge, [])
  | none =>
    let (gauge, log) := setUp h.environment
    ({ h with gauge? := some gauge }, gauge, log)

theorem ensure_of_some {h : Host} {gauge : Gauge} (hg : h.gauge? = some gauge) :
    h.ensure = (h, gauge, []) := by
  simp [ensure, hg]

theorem ensure_of_none {h : Host} (hg : h.gauge? = none) :
    h.ensure = ({ h with gauge? := some (setUp h.environment).1 },
      (setUp h.environment).1, (setUp h.environment).2) := by
  simp [ensure, hg]

@[simp] theorem gauge?_ensure (h : Host) : h.ensure.1.gauge? = some h.ensure.2.1 := by
  cases hg : h.gauge? with
  | some gauge => simp [ensure_of_some hg, hg]
  | none => simp [ensure_of_none hg]

inductive Call where
  | register
  | isRegistered
  | selection
  | load
  /-- Registration by a caller that does not hear of the result. -/
  | registerQuietly
  /-- A load for a caller that a breakdown must not reach. -/
  | query
  | setEnvironment (environment : Settings.Environment)
  | edit (edit : Edit)
  | setFrames (frames : List Component.Frame)

inductive Reply where
  | flag (value : Bool)
  | selection (value : Option Selection)
  | load (load : Load)
  | broke
  | done
  deriving DecidableEq

def register (h : Host) : Host × Bool × Log :=
  let first := h.gauge?.isNone
  let (h, gauge, log) := h.ensure
  (h, first, log ++ [if first then .registered gauge.description else .alreadyRegistered])

/-- The load, or nothing in a breakdown. -/
def load (h : Host) : Host × Option Load × Log :=
  let (h, gauge, log) := h.ensure
  let r := gauge.readOrSentinel h.surroundings
  let h := { h with surroundings := r.state }
  match r.outcome with
  | .load load => (h, some load, log ++ r.log)
  | _ => (h, none, log ++ r.log)

def query (h : Host) : Host × Load × Log :=
  match h.load with
  | (h, some load, log) => (h, load, log)
  | (h, none, log) => (h, .sentinel, log ++ [.queryBroke])

def call (h : Host) : Call → Host × Reply × Log
  | .register => let (h, first, log) := h.register; (h, .flag first, log)
  | .isRegistered => (h, .flag h.gauge?.isSome, [])
  | .selection => (h, .selection (h.gauge?.map Gauge.selection), [])
  | .load => match h.load with
    | (h, some load, log) => (h, .load load, log)
    | (h, none, log) => (h, .broke, log)
  | .registerQuietly => let (h, _, log) := h.register; (h, .done, log)
  | .query => let (h, load, log) := h.query; (h, .load load, log)
  | .setEnvironment environment => ({ h with environment }, .done, [])
  | .edit edit => ({ h with surroundings := h.surroundings.edit edit }, .done, [])
  | .setFrames frames => ({ h with surroundings := h.surroundings.withFrames frames }, .done, [])

/-- The replies to some calls, one after the other, each with what it told the log. -/
def run (h : Host) : List Call → Host × List (Reply × Log)
  | [] => (h, [])
  | c :: calls =>
    let (h, reply, log) := h.call c
    let (h, later) := h.run calls
    (h, (reply, log) :: later)

end Host

end ThermalGauge
