import ThermalGauge.Gauge
import ThermalGauge.Monitor

/-!
# Watching

A watch is a monitor and a printer side by side.  The printer waits for changes and prints a
line for each, until it finds the flag cleared or the channel without a sender; then it clears
the flag itself and waits for the monitor to end.  An interrupt clears the flag.  Any of them
may make the next step.  Nothing starts if interrupts cannot be handled.
-/

namespace ThermalGauge

namespace Command

namespace Watch

/-- Where the printer stands: before a test of the flag, at the channel, waiting for the
monitor to end, or done. -/
inductive Printer where
  | testing
  | receiving
  | joining
  | done (failed : Bool)
  deriving DecidableEq, Repr

/-- The log is that of the monitor; all actors tell it what they do. -/
structure State where
  monitor : Monitor.State Surroundings
  printer : Printer
  lines : List String

def start (interval : Interval) (surroundings : Surroundings) : State :=
  ⟨Monitor.start interval surroundings .fresh true, .testing, []⟩

/-- The start, given what comes of setting up a handler for interrupts: a text if that fails. -/
def setUp (handler : Except String Unit) (interval : Interval) (surroundings : Surroundings) :
    Except Notice State :=
  match handler with
  | .ok () => .ok (start interval surroundings)
  | .error why => .error (.handlerRefused why)

inductive Actor where
  | monitor
  | printer
  | interrupt
  deriving DecidableEq, Repr

namespace State

def setRunning (s : State) (running : Bool) : State :=
  { s with monitor := { s.monitor with running } }

def tell (s : State) (n : Notice) : State := { s with monitor := s.monitor.tell [n] }

/-- The printer stops looking for changes. -/
def close (s : State) : State := { s.setRunning false with printer := .joining }

def stepPrinter (s : State) : State :=
  match s.printer with
  | .testing => if s.monitor.running then { s with printer := .receiving } else s.close
  | .receiving =>
    match s.monitor.channel.await with
    | (channel, .ok change) =>
      { s with
        monitor := { s.monitor with channel }
        printer := .testing
        lines := s.lines ++ [change.line] }
    | (_, .error .timeout) => { s with printer := .testing }
    | (_, .error .disconnected) => s.close
  | .joining => match s.monitor.status with
    | .left => { s with printer := .done false }
    | .broken => { s.tell .monitorBroke with printer := .done true }
    | _ => s
  | .done _ => s

def step (g : Gauge) (s : State) : Actor → State
  | .monitor => { s with monitor := s.monitor.step g.sources g.selection }
  | .printer => s.stepPrinter
  | .interrupt => (s.tell .interrupted).setRunning false

def run (g : Gauge) (s : State) (schedule : List Actor) : State := schedule.foldl (step g) s

def edit (s : State) (e : Edit) : State :=
  { s with monitor := { s.monitor with surroundings := s.monitor.surroundings.edit e } }

def isDone (s : State) : Bool := match s.printer with
  | .done _ => true
  | _ => false

/-- A sample of the monitor, and time for the printer to print what comes of it. -/
def round : List Actor := [.monitor, .monitor, .printer, .printer]

/-- Goes on for some rounds, until there are more than `count` lines or the watch is done. -/
def settle (g : Gauge) (count : Nat) : Nat → State → State
  | 0, s => s
  | rounds + 1, s =>
    if s.isDone || count < s.lines.length then s else settle g count rounds (s.run g round)

end State

/-- A change of the file tree during a watch; a quiet one makes no line. -/
structure Event where
  edit : Edit
  quiet : Bool

/-- One edit after the other, each after the line that the one before it made. -/
def follow (g : Gauge) (rounds : Nat) : List Event → State → State
  | [], s => s
  | event :: events, s =>
    let count := s.lines.length
    let s := s.edit event.edit
    follow g rounds events (if event.quiet then s else s.settle g count rounds)

/-- A watch to its end: until its sensors break down, or with some events and an interrupt
after them. -/
def runToEnd (g : Gauge) (rounds : Nat) (events : Option (List Event)) (s : State) : State :=
  match events with
  | none => s.settle g rounds rounds
  | some events =>
    let s := follow g rounds events (s.settle g 0 rounds)
    (s.step g .interrupt).settle g (s.lines.length + rounds) rounds

end Watch

end Command

end ThermalGauge
