import ThermalGauge.Command.Observation

/-!
# The command

The thin layer between the command and the host it runs on: it reads files, prints, takes the time
and sleeps.  Which files are asked for, what is printed and how long there is a rest is decided
elsewhere.  An interrupt ends the program without a word.
-/

namespace ThermalGauge

namespace Command

def readIfThere (p : Path) : IO (Option (Path × Octets)) := do
  try
    let content ← IO.FS.readBinFile p.text
    return some (p, content.toList)
  catch _ => return none

def observe (root : Path) : IO Surroundings :=
  return observed (← (stateFiles root).filterMapM readIfThere)

def printAll (lines : List String) (log : Log) : IO Unit := do
  for line in lines do IO.println line
  (← IO.getStdout).flush
  for notice in log do
    if notice.level = .error then IO.eprintln notice.text

/-- Rests are cut to whole milliseconds. -/
def pause (rest : Interval) : IO Unit :=
  IO.sleep (.ofNat (min (rest.nanoseconds / 1000000) (countBound - 1)))

def sampleTimes (a : Arguments) (g : Gauge) : IO Exit := do
  let mut exit := Exit.success
  for index in [0:a.count.toNat] do
    let start ← IO.monoNanosNow
    let samples := takeSamples g 1 exit (← observe a.sysfsRoot)
    printAll samples.lines samples.log
    exit := samples.exit
    let elapsed : Interval := ⟨(← IO.monoNanosNow) - start⟩
    if let .ok (some rest) := restAfter a.interval elapsed a.count (.ofNat index) then
      pause rest
  return exit

partial def watchOn (a : Arguments) (g : Gauge) (w : Watch.State) : IO Exit := do
  let later := w.observe g (← observe a.sysfsRoot)
  printAll (later.lines.drop w.lines.length) (later.monitor.log.drop w.monitor.log.length)
  if later.isDone then return later.exit
  pause a.interval
  watchOn a g later

def printTranscript (t : Transcript) : IO Exit := do
  printAll t.lines t.log
  if let some line := t.usage then IO.eprintln line
  return t.exit

def runHere (arguments : List Octets) : IO Exit := do
  let nothing := observed []
  match built? arguments with
  | none => printTranscript (run arguments none nothing)
  | some (a, g) =>
    if a.watch then watchOn a g (Watch.start a.interval nothing) else sampleTimes a g

end Command

end ThermalGauge

def main (arguments : List String) : IO UInt32 := do
  return .ofNat (← ThermalGauge.Command.runHere (arguments.map ThermalGauge.Utf8.encode)).code
