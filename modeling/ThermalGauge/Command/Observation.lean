import ThermalGauge.Command.Pace

/-!
# Observations

What is known of a host that is asked for files by their paths, and for nothing else.  It cannot
be asked for the names in a directory, so devices are looked for by their numbers; nor can it be
asked for its sensors, so it counts as a host that has none.
-/

namespace ThermalGauge

namespace Command

/-- Devices are numbered from 0 on; numbers from here on are not looked for. -/
def deviceLimit : Nat := 256

def numberedDevice (root : Path) (n : Nat) : Path :=
  Cooling.entryPath (Cooling.scannedPath root)
    (Cooling.deviceStem ++ Utf8.encode (toString n))

/-- The files that a sample of the devices below a root may need. -/
def stateFiles (root : Path) : List Path :=
  (List.range deviceLimit).flatMap fun n =>
    [Cooling.currentState (numberedDevice root n), Cooling.maxState (numberedDevice root n)]

/-- The host as far as the contents of some files tell. -/
def observed (files : List (Path × Octets)) : Surroundings :=
  ⟨.ofEdits (files.map fun file => .file file.1 file.2), .ofFrames [], []⟩

/-- The arguments and the gauge of a run that gets as far as a sample. -/
def built? (arguments : List Octets) : Option (Arguments × Gauge) :=
  match parse arguments with
  | .error _ => none
  | .ok a => match a.settings.build with
    | .error _ => none
    | .ok g => some (a, g)

/-- A run that does not get that far has nothing to do with the host. -/
theorem run_eq_of_not_built {arguments : List Octets} (h : built? arguments = none)
    (events events' : Option (List Watch.Event)) (s s' : Surroundings)
    (handler handler' : Except String Unit) :
    run arguments events s handler = run arguments events' s' handler' := by
  unfold built? at h
  unfold run
  cases hparse : parse arguments with
  | error stop => cases stop <;> rfl
  | ok a =>
      simp only [hparse] at h
      cases hbuild : a.settings.build with
      | error why => simp only [runArguments, hbuild]
      | ok g =>
          rw [hbuild] at h
          cases h

/-- A watch that goes on with the host as it is now, for one round. -/
def Watch.State.observe (g : Gauge) (w : Watch.State) (now : Surroundings) : Watch.State :=
  { w with monitor := { w.monitor with surroundings := now } }.run g round

end Command

end ThermalGauge
