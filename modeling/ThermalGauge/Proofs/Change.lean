import ThermalGauge.Change
import Mathlib.Data.List.Chain

/-!
# What makes a change

A tracker makes a change of a load exactly when it remembers another one, or none.  The changes of
a stream of loads are therefore linked: each goes on from the load to which the one before it
came.
-/

namespace ThermalGauge

namespace Tracker

variable {t : Tracker} {load : Load} {selection : Selection}

theorem observe_eq_none_iff : (t.observe load selection).2 = none ↔ t.last = some load := by
  by_cases h : t.last = some load
  · simp [observe_of_last h, h]
  · simp [observe_of_ne h, h]

theorem observe_eq_some_iff {change : Change} :
    (t.observe load selection).2 = some change ↔
      t.last ≠ some load ∧ change = ⟨load, t.last, selection⟩ := by
  by_cases h : t.last = some load
  · simp [observe_of_last h, h]
  · simp [observe_of_ne h, h, eq_comm]

theorem observeAll_cons (t : Tracker) (o : Load × Selection)
    (observations : List (Load × Selection)) :
    t.observeAll (o :: observations) =
      (t.observe o.1 o.2).2 :: (⟨some o.1⟩ : Tracker).observeAll observations := rfl

/-- The changes that come of some loads. -/
def changes (t : Tracker) (selection : Selection) (loads : List Load) : List Change :=
  (t.observeAll (loads.map fun load => (load, selection))).filterMap id

theorem changes_cons (t : Tracker) (selection : Selection) (load : Load) (loads : List Load) :
    t.changes selection (load :: loads) =
      (t.observe load selection).2.toList ++ (⟨some load⟩ : Tracker).changes selection loads := by
  simp only [changes, List.map_cons, observeAll_cons]
  cases (t.observe load selection).2 <;> rfl

theorem changes_concat (t : Tracker) (selection : Selection) (loads : List Load) (load : Load) :
    t.changes selection (loads ++ [load]) = t.changes selection loads ++
      ((⟨loads.getLast?.or t.last⟩ : Tracker).observe load selection).2.toList := by
  induction loads generalizing t with
  | nil =>
      rw [List.nil_append, changes_cons]
      exact List.append_nil _
  | cons first loads ih =>
      have hlast : loads.getLast?.or (some first) = (first :: loads).getLast?.or t.last := by
        rw [List.getLast?_cons]
        cases loads.getLast? <;> rfl
      rw [List.cons_append, changes_cons, changes_cons, ih, hlast, List.append_assoc]

end Tracker

namespace Change

/-- Each change goes on from the load of the one before it, the first from `last`. -/
def Linked : Option Load → List Change → Prop
  | _, [] => True
  | last, c :: cs => c.previous = last ∧ last ≠ some c.load ∧ Linked (some c.load) cs

/-- The lines in which loads are told one after the other. -/
def linesFrom : Option Load → List Load → List String
  | _, [] => []
  | none, load :: loads => toString load.percent :: linesFrom (some load) loads
  | some last, load :: loads =>
    (toString last.percent ++ " -> " ++ toString load.percent) :: linesFrom (some load) loads

variable {last : Option Load} {cs cs' : List Change}

theorem linked_observeAll (t : Tracker) (observations : List (Load × Selection)) :
    Linked t.last ((t.observeAll observations).filterMap id) := by
  induction observations generalizing t with
  | nil => trivial
  | cons o observations ih =>
      have hrest := ih ⟨some o.1⟩
      rw [Tracker.observeAll_cons]
      by_cases hsame : t.last = some o.1
      · rw [Tracker.observe_of_last hsame, hsame]
        exact hrest
      · rw [Tracker.observe_of_ne hsame]
        exact ⟨rfl, hsame, hrest⟩

theorem linked_changes (t : Tracker) (selection : Selection) (loads : List Load) :
    Linked t.last (t.changes selection loads) :=
  linked_observeAll t _

theorem Linked.of_initial (h : Linked last cs) (hinitial : cs' <+: cs) : Linked last cs' := by
  induction cs' generalizing last cs with
  | nil => trivial
  | cons c rest ih =>
      obtain ⟨tail, rfl⟩ := hinitial
      exact ⟨h.1, h.2.1, ih h.2.2 (List.prefix_append _ _)⟩

theorem Linked.map_line (h : Linked last cs) : cs.map line = linesFrom last (cs.map load) := by
  induction cs generalizing last with
  | nil => cases last <;> rfl
  | cons c cs ih =>
      obtain ⟨hprevious, -, hrest⟩ := h
      rw [List.map_cons, List.map_cons, ih hrest]
      cases last <;> simp only [line, hprevious, linesFrom]

/-- No load is told twice in a row. -/
theorem Linked.isChain (h : Linked last cs) : (cs.map load).IsChain (· ≠ ·) := by
  induction cs generalizing last with
  | nil => exact .nil
  | cons c cs ih =>
      cases cs with
      | nil => exact .singleton _
      | cons next cs =>
          refine .cons_cons ?_ (ih h.2.2)
          intro heq
          exact h.2.2.2.1 (congrArg some heq)

end Change

end ThermalGauge
