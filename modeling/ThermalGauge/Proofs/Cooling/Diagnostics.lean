import ThermalGauge.Gauge
import ThermalGauge.Proofs.Cooling.Shown
import ThermalGauge.Proofs.FileTree.Distinct

/-!
# What the log is told of cooling devices

A directory that cannot be listed is recorded, and there are no devices then.  Otherwise devices are
met in the order of their names, each of them once.  A device of which a file gives no number is
recorded with what is wrong with that file; the file with the current state is looked at first, and
what is wrong with the other one is not told where it fails.  Nothing else is recorded, so every
device adds to the sample, has no steps or has one record.
-/

namespace ThermalGauge

namespace Path

end Path

namespace Cooling

open FileTree

variable {t : FileTree} {root device : Path} {name : Name} {names : List Name}

section Names

end Names

section Records

/-- Why a device gives no numbers. -/
def failure? (t : FileTree) (device : Path) : Option Fault :=
  match readNumber t (currentState device), readNumber t (maxState device) with
  | .error why, _ => some why
  | .ok _, .error why => some why
  | .ok _, .ok _ => none

theorem level_of_mem_log {n : Notice} (h : n ∈ log t root) : n.level = .debug := by
  rcases cases_of_mem_log h with ⟨p, why, rfl⟩ | ⟨other, why, rfl⟩ <;> rfl

end Records

end Cooling

end ThermalGauge
