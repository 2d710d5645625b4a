import ThermalGauge.Text.Blank

/-!
# Selections

Which kinds of source a gauge consults.  A selection has a name in settings, which is read
without regard to case or surrounding blanks, and another in descriptions.
-/

namespace ThermalGauge

inductive Selection where
  /-- Cooling devices, and temperature sensors where those give no reading. -/
  | auto
  | cooling
  | components
  deriving DecidableEq, Repr

namespace Selection

def name : Selection → String
  | auto => "auto"
  | cooling => "cooling"
  | components => "components"

def description : Selection → String
  | auto => "Auto"
  | cooling => "CoolingDevices"
  | components => "Components"

/-- A text with blanks at both ends taken away and capital letters of ASCII made small. -/
def fold (s : String) : String :=
  String.ofList ((Text.trimChars s.toList).map Char.toLower)

/-- The selection with the folded name `s`. -/
def ofFolded? (s : String) : Option Selection :=
  match s with
  | "auto" => some auto
  | "cooling" | "cooling-devices" => some cooling
  | "components" => some components
  | _ => none

def ofName? (s : String) : Option Selection := ofFolded? (fold s)

end Selection

end ThermalGauge
