import ThermalGauge.Command.Parse
import ThermalGauge.Command.Watch

/-!
# Runs of the command

A run prints the load a number of times, or watches its changes.  Lines go to the output and
complaints to the log; a failed sample makes the run a failure and does not end it, while a watch
whose interrupts cannot be handled ends before it starts.
-/

namespace ThermalGauge

namespace Command

def versionLine : String := "thermo-load 0.1.0"

inductive Exit where
  | success
  | failure
  | misuse
  /-- The sensors broke down, and nothing was there to contain it. -/
  | broken
  deriving DecidableEq, Repr

def Exit.code : Exit → Nat
  | success => 0
  | failure => 1
  | misuse => 2
  | broken => 101

/-- What a run leaves behind. -/
structure Transcript where
  exit : Exit
  lines : List String
  log : Log
  usage : Option String

/-- The notices that reach the log where nothing else is asked for. -/
def Transcript.shownLog (t : Transcript) : Log := t.log.filter fun n => n.level = .error

/-- Samples taken one after the other: the lines, the log, and where they ended. -/
structure Samples where
  lines : List String
  log : Log
  exit : Exit
  surroundings : Surroundings

/-- `exit` is what the run amounts to so far. -/
def takeSamples (g : Gauge) : Nat → Exit → Surroundings → Samples
  | 0, exit, s => ⟨[], [], exit, s⟩
  | n + 1, exit, s =>
    let r := g.read s
    match r.outcome with
    | .load load =>
      let later := takeSamples g n exit r.state
      { later with lines := toString load.percent :: later.lines, log := r.log ++ later.log }
    | .fault why =>
      let later := takeSamples g n .failure r.state
      { later with log := r.log ++ .complaint why :: later.log }
    | .breakdown => ⟨[], r.log, .broken, r.state⟩

/-- What a watch amounts to; only its end can make it a failure. -/
def Watch.State.exit (w : Watch.State) : Exit :=
  match w.printer with
  | .done true => .failure
  | _ => .success

/-- The rounds in which every frame of the surroundings is taken, and some more. -/
def roundsFor (s : Surroundings) : Nat := s.feed.frames.length + 8

def runWatch (g : Gauge) (interval : Interval) (events : Option (List Watch.Event))
    (s : Surroundings) (handler : Except String Unit) : Transcript :=
  match Watch.setUp handler interval s with
  | .error n => ⟨.failure, [], [n], none⟩
  | .ok w =>
    let w := Watch.runToEnd g (roundsFor s) events w
    ⟨w.exit, w.lines, w.monitor.log, none⟩

def runGauge (a : Arguments) (g : Gauge) (events : Option (List Watch.Event))
    (s : Surroundings) (handler : Except String Unit) : Transcript :=
  if a.watch then runWatch g a.interval events s handler
  else
    let samples := takeSamples g a.count.toNat .success s
    ⟨samples.exit, samples.lines, samples.log, none⟩

/-- The log is told of the arguments before anything else. -/
def runArguments (a : Arguments) (events : Option (List Watch.Event)) (s : Surroundings)
    (handler : Except String Unit) : Transcript :=
  let t : Transcript := match a.settings.build with
    | .ok g => runGauge a g events s handler
    | .error why => ⟨.failure, [], [.complaint why], none⟩
  { t with log := .argumentsTaken a.fields :: t.log }

/-- Only a watch has to do with `events` and with the handler for interrupts. -/
def run (arguments : List Octets) (events : Option (List Watch.Event)) (s : Surroundings)
    (handler : Except String Unit := .ok ()) : Transcript :=
  match parse arguments with
  | .ok a => runArguments a events s handler
  | .error .help => ⟨.success, [], [], none⟩
  | .error .version => ⟨.success, [versionLine], [], none⟩
  | .error (.misuse why) => ⟨.misuse, [], [], some (why.line .stream)⟩

end Command

end ThermalGauge
