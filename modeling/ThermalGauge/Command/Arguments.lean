import ThermalGauge.Settings
import ThermalGauge.Text.Terminal

/-!
# Arguments of the command

The options of the command with their spellings and defaults, the values that they take, and
what can be wrong with a list of arguments.  A wrong list is answered with one line.
-/

namespace ThermalGauge

namespace Command

inductive Opt where
  | source
  | sysfsRoot
  | onsetMargin
  | intervalMs
  | count
  | watch
  | help
  | version
  deriving DecidableEq, Repr

namespace Opt

def all : List Opt :=
  [source, sysfsRoot, onsetMargin, intervalMs, count, watch, help, version]

def long : Opt → String
  | source => "source"
  | sysfsRoot => "sysfs-root"
  | onsetMargin => "onset-margin"
  | intervalMs => "interval-ms"
  | count => "count"
  | watch => "watch"
  | help => "help"
  | version => "version"

def short? : Opt → Option Char
  | source => some 's'
  | intervalMs => some 'i'
  | count => some 'c'
  | watch => some 'w'
  | help => some 'h'
  | version => some 'V'
  | sysfsRoot | onsetMargin => none

/-- What stands for the value of an option that takes one. -/
def placeholder? : Opt → Option String
  | source => some "SOURCE"
  | sysfsRoot => some "SYSFS_ROOT"
  | onsetMargin => some "ONSET_MARGIN"
  | intervalMs => some "INTERVAL_MS"
  | count => some "COUNT"
  | watch | help | version => none

def takesValue (o : Opt) : Bool := o.placeholder?.isSome

def shown (o : Opt) : String :=
  match o.placeholder? with
  | some placeholder => "--" ++ o.long ++ " <" ++ placeholder ++ ">"
  | none => "--" ++ o.long

def ofLong? (name : String) : Option Opt := all.find? fun o => o.long = name

def ofShort? (c : Char) : Option Opt := all.find? fun o => o.short? = some c

end Opt

structure Arguments where
  selection : Selection
  sysfsRoot : Path
  onsetMargin : Binary32
  intervalMs : UInt64
  count : UInt32
  watch : Bool
  deriving DecidableEq

namespace Arguments

instance : Inhabited Arguments :=
  ⟨.auto, Cooling.defaultRoot, Ramp.defaultMargin, 1000, 1, false⟩

def settings (a : Arguments) : Settings := ⟨a.selection, a.sysfsRoot, a.onsetMargin⟩

def interval (a : Arguments) : Interval := .ofMilliseconds a.intervalMs.toNat

/-- The names of the arguments, each with what is shown of its value. -/
def fields (a : Arguments) : List (String × String) :=
  [("source", a.selection.description), ("sysfs_root", a.sysfsRoot.quoted),
    ("onset_margin", a.onsetMargin.literal), ("interval_ms", toString a.intervalMs),
    ("count", toString a.count), ("watch", toString a.watch)]

end Arguments

inductive ValueRefusal where
  | misconfigured (why : Misconfiguration)
  | decimal (why : Decimal.Refusal)
  | numeral (why : Text.NumeralRefusal)
  | outOfRange (value : Int)
  deriving DecidableEq

/-- The number of samples is below this. -/
def countBound : Nat := 1 <<< 32

def ValueRefusal.message : ValueRefusal → String
  | misconfigured why => (Fault.misconfigured why).message
  | decimal why => why.message
  | numeral why => why.message
  | outOfRange value =>
    toString value ++ " is not in 0..=" ++ toString (countBound - 1)

inductive Misuse where
  | unexpected (argument : String)
  | valueMissing (option : Opt)
  | valueInvalid (option : Opt) (value : String) (why : ValueRefusal)
  | repeated (option : Opt)
  | valueUnneeded (option : Opt) (value : String)
  /-- An argument is not UTF-8 where a text is needed. -/
  | notText
  deriving DecidableEq

namespace Misuse

/-- A text from the arguments as messages show it. -/
def quoteArgument (outlet : Text.Outlet) (s : String) : String :=
  "'" ++ String.ofList (Text.harmless outlet s.toList) ++ "'"

def message (outlet : Text.Outlet) : Misuse → String
  | unexpected argument => "unexpected argument " ++ quoteArgument outlet argument ++ " found"
  | valueMissing option =>
    "a value is required for '" ++ option.shown ++ "' but none was supplied"
  | valueInvalid option value why =>
    "invalid value " ++ quoteArgument outlet value ++ " for '" ++ option.shown ++ "': " ++
      why.message
  | repeated option => "the argument '" ++ option.shown ++ "' cannot be used multiple times"
  | valueUnneeded option value =>
    "unexpected value " ++ quoteArgument outlet value ++ " for '" ++ option.shown ++
      "' found; no more were expected"
  | notText => "invalid UTF-8 was detected in one or more arguments"

/-- The first line of the answer; a line break in a value ends it early. -/
def line (outlet : Text.Outlet) (m : Misuse) : String :=
  String.ofList (Text.firstLine ("error: " ++ m.message outlet).toList)

end Misuse

/-- Why a list of arguments gives no values. -/
inductive Stop where
  | misuse (why : Misuse)
  | help
  | version
  deriving DecidableEq

end Command

end ThermalGauge
