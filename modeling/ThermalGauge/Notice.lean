import ThermalGauge.Fault
import ThermalGauge.Interval
import ThermalGauge.Load
import ThermalGauge.Selection

/-!
# Notices

What is told to the log, as a record of what happened; level and wording follow from it.
-/

namespace ThermalGauge

inductive Level where
  | trace
  | debug
  | info
  | warn
  | error
  deriving DecidableEq, Repr

def Level.name : Level → String
  | trace => "TRACE"
  | debug => "DEBUG"
  | info => "INFO"
  | warn => "WARN"
  | error => "ERROR"

/-- The variables from which settings are read. -/
inductive Variable where
  | source
  | sysfsRoot
  | onsetMargin
  deriving DecidableEq, Repr

def Variable.name : Variable → String
  | source => "THERMAL_LOAD_SOURCE"
  | sysfsRoot => "THERMAL_LOAD_SYSFS_ROOT"
  | onsetMargin => "THERMAL_LOAD_ONSET_MARGIN"

inductive Notice where
  /-- A directory could not be listed. -/
  | entrySkipped (directory : Path) (why : SystemError)
  /-- A cooling device gave no numbers. -/
  | deviceSkipped (device : Path) (why : Fault)
  | component (label : String) (temperature critical : Option Binary32)
  | sourceRead (source : String) (load : Load)
  | sourceFailed (source : String) (why : Fault)
  /-- The sentinel stands for a reading that failed. -/
  | noReading (why : Fault)
  /-- A variable has a value that is no good. -/
  | ignored (name : Variable) (why : Misconfiguration)
  | ignoredEmpty (name : Variable)
  | setupFailed (why : Fault)
  | registered (gauge : String)
  | alreadyRegistered
  | queryBroke
  | monitorStarted (interval : Interval)
  | samplingFailed (why : Fault)
  | sinkRefused (load : Load)
  | sinkGone
  | monitorLeft
  | monitorBroke
  /-- A run of the command begins with these arguments, by their names. -/
  | argumentsTaken (fields : List (String × String))
  /-- Interrupts cannot be handled. -/
  | handlerRefused (why : String)
  | interrupted
  /-- A run of the command has something to complain of. -/
  | complaint (why : Fault)
  deriving DecidableEq

/-- A value that may be missing. -/
def optionText (value : Option Binary32) : String :=
  match value with
  | none => "None"
  | some x => "Some(" ++ x.literal ++ ")"

namespace Notice

def level : Notice → Level
  | component .. | sourceRead .. => .trace
  | entrySkipped .. | deviceSkipped .. | sourceFailed .. | alreadyRegistered
  | sinkRefused .. | argumentsTaken .. => .debug
  | registered .. | monitorStarted .. | sinkGone | monitorLeft | interrupted => .info
  | noReading .. | ignored .. | ignoredEmpty .. | setupFailed .. | samplingFailed .. => .warn
  | queryBroke | monitorBroke | handlerRefused .. | complaint .. => .error

def message : Notice → String
  | entrySkipped directory why =>
    "[THM] Skipping unreadable entry: attempting to read `" ++ directory.text ++
      "` resulted in an error: " ++ why.text
  | deviceSkipped device why => "[THM] " ++ device.text ++ "> " ++ why.message
  | component label temperature critical =>
    "[THM] Component: " ++ label ++ ", temperature: " ++ optionText temperature ++
      ", critical: " ++ optionText critical
  | sourceRead source load => "[THM] " ++ source ++ "> " ++ load.text
  | sourceFailed source why => "[THM] " ++ source ++ "> " ++ why.message
  | noReading why => "[THM] No thermal reading available: " ++ why.message
  | ignored name why =>
    "[THM] Ignoring " ++ name.name ++ ": " ++ (Fault.misconfigured why).message
  | ignoredEmpty name => "[THM] Ignoring empty " ++ name.name
  | setupFailed why =>
    "[THM] Sampler setup failed, readings will report the sentinel: " ++ why.message
  | registered gauge => "[THM] Registered " ++ gauge
  | alreadyRegistered => "[THM] Already registered"
  | queryBroke => "[JNI] Thermal sampling panicked"
  | monitorStarted interval => "[MON] Monitor started, interval " ++ interval.text
  | samplingFailed why => "[MON] Sampling failed: " ++ why.message
  | sinkRefused load => "[MON] Sink not ready, dropping " ++ load.text
  | sinkGone => "[MON] Sink disconnected"
  | monitorLeft => "[MON] Exiting thread"
  | monitorBroke => "[MON] Monitor thread panicked"
  | argumentsTaken fields =>
    let line (field : String × String) := "    " ++ field.1 ++ ": " ++ field.2 ++ ",\n"
    "Arguments: Args \x7b\n" ++ String.join (fields.map line) ++ "\x7d"
  | handlerRefused why => "Error setting Ctrl-C handler: " ++ why
  | interrupted => "Received Ctrl+C, stopping..."
  | complaint why => "[THM] " ++ why.message

def text (n : Notice) : String := n.level.name ++ " " ++ n.message

end Notice

abbrev Log := List Notice

end ThermalGauge
