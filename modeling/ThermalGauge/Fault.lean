import ThermalGauge.Binary32.Shortest
import ThermalGauge.FileTree.Path
import ThermalGauge.FileTree.SystemError

/-!
# Faults

Why there is no reading, or no gauge to take one with.  Each fault names its cause, and one
function puts causes into words.
-/

namespace ThermalGauge

/-- Why a file gave no text. -/
inductive ReadFailure where
  | system (error : SystemError)
  | notText
  | other (message : String)
  deriving DecidableEq, Repr

def ReadFailure.text : ReadFailure → String
  | system error => error.text
  | notText => "stream did not contain valid UTF-8"
  | other message => message

/-- Why a setting was turned down. -/
inductive Misconfiguration where
  /-- No selection has this folded name. -/
  | unknownSource (folded : String)
  /-- This text, quoted as it was given, is not a positive finite number. -/
  | marginText (text : String)
  /-- This margin is not positive or not finite. -/
  | margin (value : Binary32)
  | other (message : String)
  deriving DecidableEq

def Misconfiguration.text : Misconfiguration → String
  | unknownSource folded =>
    "unknown thermal source " ++ Text.quote folded ++
      " (expected auto, cooling or components)"
  | marginText text =>
    "onset margin must be a positive number of degrees, got " ++ Text.quote text
  | margin value => "onset margin must be a positive number of degrees, got " ++ value.text
  | other message => message

inductive Fault where
  | unreadable (path : Path) (why : ReadFailure)
  /-- The file holds this, blanks at both ends taken away, instead of a number. -/
  | unexpected (path : Path) (value : String)
  | noSensors (finder : String)
  | misconfigured (why : Misconfiguration)
  deriving DecidableEq

def Fault.message : Fault → String
  | unreadable path why => "failed to read " ++ path.text ++ ": " ++ why.text
  | unexpected path value => "unexpected value " ++ Text.quote value ++ " in " ++ path.text
  | noSensors finder => "no usable sensors found by " ++ finder
  | misconfigured why => "invalid configuration: " ++ why.text

end ThermalGauge
