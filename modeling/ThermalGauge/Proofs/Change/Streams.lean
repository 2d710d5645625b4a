import ThermalGauge.Proofs.Change
import Mathlib.Data.List.Destutter

/-!
# Changes of whole streams

A stream of observations is told by its changes: their loads are the observed ones with runs of
equal loads collapsed, and each goes on from the change before it.  So the loads of the changes and
those they go on from depend on the collapsed loads alone, however often a load was observed and
with which selection.
-/

namespace ThermalGauge

/-- A load and the selection with which it was measured. -/
abbrev Observation := Load × Selection

namespace Tracker

/-- The load that is remembered when the observation of this number comes. -/
def before (last : Option Load) (observations : List Observation) : Nat → Option Load
  | 0 => last
  | i + 1 => observations[i]?.map Prod.fst

theorem length_observeAll (t : Tracker) (observations : List Observation) :
    (t.observeAll observations).length = observations.length := by
  induction observations generalizing t with
  | nil => rfl
  | cons o observations ih => rw [observeAll_cons, List.length_cons, List.length_cons, ih]

theorem getElem?_observeAll (t : Tracker) (observations : List Observation) (i : Nat) :
    (t.observeAll observations)[i]? = observations[i]?.map fun o =>
      ((⟨before t.last observations i⟩ : Tracker).observe o.1 o.2).2 := by
  induction observations generalizing t i with
  | nil => rfl
  | cons o observations ih =>
      cases i with
      | zero => rfl
      | succ i =>
          -- from the second observation on, `t` is forgotten
          have hbefore : before (some o.1) observations i =
              before t.last (o :: observations) (i + 1) := by
            cases i <;> rfl
          rw [observeAll_cons, List.getElem?_cons_succ, List.getElem?_cons_succ, ih, ← hbefore]

/-- A load that is remembered and the loads of the changes after it are the collapsed loads. -/
theorem cons_map_load_observeAll (first : Load) (observations : List Observation) :
    first :: (((⟨some first⟩ : Tracker).observeAll observations).filterMap id).map Change.load =
      (observations.map Prod.fst).destutter' (· ≠ ·) first := by
  induction observations generalizing first with
  | nil => rfl
  | cons o observations ih =>
      rw [List.map_cons, observeAll_cons]
      by_cases hsame : first = o.1
      · subst hsame
        rw [observe_of_last rfl, List.destutter'_cons_neg _ (not_not.mpr rfl), ← ih o.1]
        rfl
      · rw [observe_of_ne (fun h => hsame (Option.some.inj h)), List.destutter'_cons_pos _ hsame,
          ← ih o.1]
        rfl

theorem map_load_observeAll (observations : List Observation) :
    ((fresh.observeAll observations).filterMap id).map Change.load =
      (observations.map Prod.fst).destutter (· ≠ ·) := by
  cases observations with
  | nil => rfl
  | cons o observations =>
      rw [List.map_cons, List.destutter_cons', ← cons_map_load_observeAll]
      rfl

end Tracker

/-- Collapsing runs of equal elements keeps the last element. -/
theorem getLast?_destutter' {α : Type*} [DecidableEq α] (a : α) (l : List α) :
    (l.destutter' (· ≠ ·) a).getLast? = (a :: l).getLast? := by
  induction l generalizing a with
  | nil => rfl
  | cons b l ih =>
      rw [List.getLast?_cons_cons, ← ih b]
      by_cases hab : a = b
      · rw [List.destutter'_cons_neg _ (not_not.mpr hab), hab]
      · rw [List.destutter'_cons_pos _ hab, List.getLast?_cons, ih b]
        rfl

namespace Change

theorem Linked.map_previous {last : Option Load} {cs : List Change} (h : Linked last cs) :
    cs.map previous = (last :: cs.map fun c => some c.load).dropLast := by
  induction cs generalizing last with
  | nil => rfl
  | cons c cs ih =>
      obtain ⟨hprevious, -, hrest⟩ := h
      rw [List.map_cons, List.map_cons, List.dropLast_cons_cons, hprevious, ih hrest]

end Change

namespace Tracker

variable {observations : List Observation}

theorem getElem?_observeAll_of_getElem? {i : Nat} {load : Load} {selection : Selection}
    (h : observations[i]? = some (load, selection)) :
    (fresh.observeAll observations)[i]? = some
      (if before none observations i = some load then none
        else some ⟨load, before none observations i, selection⟩) := by
  rw [getElem?_observeAll, h]
  rfl

theorem map_previous_observeAll (observations : List Observation) :
    ((fresh.observeAll observations).filterMap id).map Change.previous =
      (none :: ((observations.map Prod.fst).destutter (· ≠ ·)).map some).dropLast := by
  have hlinked := Change.linked_observeAll fresh observations
  rw [hlinked.map_previous, ← map_load_observeAll, List.map_map]
  rfl

theorem getLast?_map_load_observeAll (observations : List Observation) :
    (((fresh.observeAll observations).filterMap id).map Change.load).getLast? =
      (observations.map Prod.fst).getLast? := by
  rw [map_load_observeAll]
  cases observations with
  | nil => rfl
  | cons o observations => exact getLast?_destutter' _ _

/-- The collapsed loads decide which loads are told, and from which they are told to come. -/
theorem map_load_previous_congr {other : List Observation}
    (h : (observations.map Prod.fst).destutter (· ≠ ·) =
      (other.map Prod.fst).destutter (· ≠ ·)) :
    ((fresh.observeAll observations).filterMap id).map (fun c => (c.load, c.previous)) =
      ((fresh.observeAll other).filterMap id).map fun c => (c.load, c.previous) := by
  rw [← List.zip_map', ← List.zip_map', map_load_observeAll, map_load_observeAll,
    map_previous_observeAll, map_previous_observeAll, h]

/-- Of a stream, exactly the first observation and those of another load than the one before make
a change, which names that load, the one before it and its own selection.  The loads of the changes
are those of the stream with runs collapsed, each change goes on from the load of the change before
it, the last one comes to the load observed last, and another selection alone makes none.  Streams
that collapse to the same loads are told alike but for the selections. -/
theorem observeAll_fresh_tells (observations : List Observation) :
    let found := fresh.observeAll observations
    let changes := found.filterMap id
    found.length = observations.length ∧
    (∀ i load selection, observations[i]? = some (load, selection) →
      found[i]? = some (if before none observations i = some load then none
        else some ⟨load, before none observations i, selection⟩)) ∧
    changes.map Change.load = (observations.map Prod.fst).destutter (· ≠ ·) ∧
    changes.map Change.previous = (none :: changes.map fun c => some c.load).dropLast ∧
    changes.getLast?.map Change.load = observations.getLast?.map Prod.fst ∧
    (∀ i load selection selection', observations[i]? = some (load, selection) →
      observations[i + 1]? = some (load, selection') → found[i + 1]? = some none) ∧
    ∀ other : List Observation,
      (observations.map Prod.fst).destutter (· ≠ ·) = (other.map Prod.fst).destutter (· ≠ ·) →
      changes.map (fun c => (c.load, c.previous)) =
        ((fresh.observeAll other).filterMap id).map fun c => (c.load, c.previous) := by
  intro found changes
  refine ⟨length_observeAll _ _, fun i load selection => getElem?_observeAll_of_getElem?,
    map_load_observeAll _, (Change.linked_observeAll fresh observations).map_previous, ?_, ?_,
    fun other => map_load_previous_congr⟩
  · rw [← List.getLast?_map, ← List.getLast?_map]
    exact getLast?_map_load_observeAll observations
  · intro i load selection selection' hfirst hsecond
    have hbefore : before none observations (i + 1) = some load := by
      rw [before, hfirst]
      rfl
    rw [getElem?_observeAll_of_getElem? hsecond, hbefore, if_pos rfl]

end Tracker

end ThermalGauge
