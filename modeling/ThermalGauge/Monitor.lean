import ThermalGauge.Change
import ThermalGauge.Channel
import ThermalGauge.Source

/-!
# Monitors

A monitor samples over and over while a flag is set, and sends the changes of the load down a
channel.  A failed sample counts as the sentinel.  A change that the receiver refuses is
lost.  The monitor leaves when it finds the flag cleared, or when it finds the receiver gone,
which only an attempt to send shows it; leaving drops its sender.  A breakdown ends it at
once, without a word.

The flag and the receiver belong to others, who act between the monitor's steps.
-/

namespace ThermalGauge

namespace Monitor

/-- Where a monitor stands: before a test of the flag, between the test and the sample, or
at one of its two ends. -/
inductive Status where
  | testing
  | sampling
  | left
  | broken
  deriving DecidableEq, Repr

structure State (σ : Type) where
  surroundings : σ
  channel : Channel Change
  running : Bool
  tracker : Tracker
  status : Status
  log : Log

variable {σ : Type}

def start (interval : Interval) (surroundings : σ) (channel : Channel Change) (running : Bool) :
    State σ :=
  ⟨surroundings, channel, running, .fresh, .testing, [.monitorStarted interval]⟩

namespace State

def tell (s : State σ) (notices : Log) : State σ := { s with log := s.log ++ notices }

def leave (s : State σ) : State σ :=
  { s.tell [.monitorLeft] with status := .left, channel := s.channel.dropSender 0 }

/-- Sends a change; the monitor leaves if there is nobody to receive it. -/
def deliver (s : State σ) (change : Change) : State σ :=
  let (channel, sent) := s.channel.send change
  let s := { s with channel }
  match sent with
  | .delivered => s
  | .refused .notReady _ => s.tell [.sinkRefused change.load]
  | .refused .disconnected _ => (s.tell [.sinkGone]).leave

/-- Records a load and sends the change that it makes, if it makes one. -/
def record (s : State σ) (selection : Selection) (load : Load) : State σ :=
  let (tracker, change) := s.tracker.observe load selection
  let s := { s with tracker }
  match change with
  | none => s
  | some change => s.deliver change

/-- From the sample on, until the flag is to be tested again. -/
def turn (sources : List (Source σ)) (selection : Selection) (s : State σ) : State σ :=
  let r := Source.readFirst sources s.surroundings
  let s := { s.tell r.log with surroundings := r.state, status := .testing }
  match r.outcome with
  | .load load => s.record selection load
  | .fault why => (s.tell [.samplingFailed why]).record selection .sentinel
  | .breakdown => { s with status := .broken, channel := s.channel.dropSender 0 }

def test (s : State σ) : State σ := if s.running then { s with status := .sampling } else s.leave

def step (sources : List (Source σ)) (selection : Selection) (s : State σ) : State σ :=
  match s.status with
  | .testing => s.test
  | .sampling => s.turn sources selection
  | .left | .broken => s

def isLooping (s : State σ) : Bool := s.status == .testing || s.status == .sampling

end State

/-- What others may do while a sample is taken. -/
inductive Act where
  | ready
  | notReady
  | receive
  | dropReceiver
  | stop
  deriving DecidableEq, Repr

/-- A monitor, and what the receiver got out of the channel each time it looked. -/
structure Session (σ : Type) where
  monitor : State σ
  received : List (Option Change)

namespace Session

def withChannel (s : Session σ) (channel : Channel Change) : Session σ :=
  { s with monitor := { s.monitor with channel } }

/-- A receiver that is gone does nothing any more. -/
def act (s : Session σ) (a : Act) : Session σ :=
  let c := s.monitor.channel
  match a with
  | .ready => if c.receiver then s.withChannel (c.setReady true) else s
  | .notReady => if c.receiver then s.withChannel (c.setReady false) else s
  | .receive =>
    if c.receiver then
      let (c, change) := c.take
      { s.withChannel c with received := s.received ++ [change] }
    else s
  | .dropReceiver => if c.receiver then s.withChannel c.dropReceiver else s
  | .stop => { s with monitor := { s.monitor with running := false } }

end Session

/-- One sample of a rehearsal: what others do before it is answered, and the answer. -/
structure Cue where
  acts : List Act
  outcome : Outcome

def Cue.source (name : String) (cue : Cue) : Source Unit where
  name := name
  read := fun s => ⟨cue.outcome, s, []⟩

/-- A turn in which others act before the sample is answered. -/
def perform (name : String) (selection : Selection) (cue : Cue) (s : Session Unit) :
    Session Unit :=
  let s := cue.acts.foldl Session.act s
  { s with monitor := s.monitor.turn [cue.source name] selection }

/-- The monitor with one cue after another, as long as it loops.  After the last of them it
tests the flag once more. -/
def rehearse (name : String) (selection : Selection) :
    List Cue → Session Unit → Session Unit
  | cues, s =>
    if s.monitor.status = .testing then
      let s := { s with monitor := s.monitor.test }
      match cues with
      | [] => s
      | cue :: cues =>
        if s.monitor.status = .sampling then
          rehearse name selection cues (perform name selection cue s)
        else s
    else s

/-- The same cues, of which the last one also stops the monitor. -/
def closing : List Cue → List Cue
  | [] => []
  | [cue] => [{ cue with acts := cue.acts ++ [.stop] }]
  | cue :: cues => cue :: closing cues

/-- At most so many steps, with what others do after each. -/
def run (sources : List (Source σ)) (selection : Selection) (after : State σ → State σ) :
    Nat → State σ → State σ
  | 0, s => s
  | n + 1, s =>
    if s.isLooping then run sources selection after n (after (s.step sources selection)) else s

end Monitor

end ThermalGauge
