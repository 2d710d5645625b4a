import ThermalGauge.Load
import ThermalGauge.Selection

/-!
# Changes of the load

A tracker remembers the last load it was shown.  Showing it another one makes a change.
-/

namespace ThermalGauge

structure Change where
  load : Load
  previous : Option Load
  selection : Selection
  deriving DecidableEq

namespace Change

/-- The load alone at first, then the two loads with an arrow. -/
def line (c : Change) : String :=
  match c.previous with
  | none => toString c.load.percent
  | some previous => toString previous.percent ++ " -> " ++ toString c.load.percent

end Change

structure Tracker where
  last : Option Load
  deriving DecidableEq

namespace Tracker

def fresh : Tracker := ⟨none⟩

def observe (t : Tracker) (load : Load) (selection : Selection) : Tracker × Option Change :=
  (⟨some load⟩, if t.last = some load then none else some ⟨load, t.last, selection⟩)

theorem observe_of_last {t : Tracker} {load : Load} (h : t.last = some load)
    (selection : Selection) : (t.observe load selection).2 = none := by
  simp [observe, h]

theorem observe_of_ne {t : Tracker} {load : Load} (h : t.last ≠ some load)
    (selection : Selection) :
    (t.observe load selection).2 = some ⟨load, t.last, selection⟩ := by
  simp [observe, h]

/-- What comes of a stream of observations, one after the other. -/
def observeAll (t : Tracker) : List (Load × Selection) → List (Option Change)
  | [] => []
  | (load, selection) :: rest =>
    let (t, change) := t.observe load selection
    change :: t.observeAll rest

end Tracker

end ThermalGauge
