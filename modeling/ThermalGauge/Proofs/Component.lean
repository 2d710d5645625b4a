import ThermalGauge.Gauge
import ThermalGauge.Proofs.Load
import ThermalGauge.Proofs.Ramp

/-!
# The load of several components

The load of some components is the greatest that one of them has, and missing where none has one.
So it depends on what the sensors of usable components tell, and not on the order, on the labels or
on how often something is told.  Every component is told to the log, whether it can be used or not.
-/

namespace ThermalGauge

namespace Component

/-- What the sensor of a component tells. -/
def reading (c : Component) : Option Binary32 × Option Binary32 := (c.temperature, c.critical)

/-- Both temperatures are there, and they are such that there is a load. -/
def IsUsable (c : Component) : Prop :=
  ∃ temperature critical, c.reading = (some temperature, some critical) ∧
    Ramp.IsReading temperature critical

variable {r : Ramp} {c c' : Component} {cs as bs : List Component} {load : Load}

section OneComponent

theorem load?_congr (h : c.reading = c'.reading) : load? r c = load? r c' := by
  obtain ⟨htemperature, hcritical⟩ := Prod.mk.inj h
  simp only [load?, htemperature, hcritical]

theorem isUsable_congr (h : c.reading = c'.reading) : c.IsUsable ↔ c'.IsUsable := by
  simp only [IsUsable, h]

theorem load?_of_reading {temperature critical : Binary32}
    (h : c.reading = (some temperature, some critical)) :
    load? r c = r.load temperature critical := by
  obtain ⟨htemperature, hcritical⟩ := Prod.mk.inj h
  simp only [load?, htemperature, hcritical]

theorem isUsable_iff : c.IsUsable ↔ ∃ load, load? r c = some load := by
  constructor
  · rintro ⟨temperature, critical, hreading, husable⟩
    rw [load?_of_reading hreading]
    exact ⟨_, Ramp.load_eq_some_iff.mpr ⟨husable, rfl⟩⟩
  · rintro ⟨load, hload⟩
    obtain ⟨label, temperature, critical⟩ := c
    cases temperature with
    | none => cases hload
    | some temperature =>
        cases critical with
        | none => cases hload
        | some critical => exact ⟨temperature, critical, rfl, (Ramp.load_eq_some_iff.mp hload).1⟩

theorem load?_eq_none_iff : load? r c = none ↔ ¬ c.IsUsable := by
  rw [isUsable_iff (r := r), ← Option.ne_none_iff_exists', not_not]

end OneComponent

section Greatest

theorem mem_loads_iff :
    load ∈ cs.filterMap (load? r) ↔ ∃ c ∈ cs, c.IsUsable ∧ load? r c = some load := by
  simp only [List.mem_filterMap]
  constructor
  · rintro ⟨c, hc, hload⟩
    exact ⟨c, hc, isUsable_iff.mpr ⟨load, hload⟩, hload⟩
  · rintro ⟨c, hc, -, hload⟩
    exact ⟨c, hc, hload⟩

theorem greatestLoad_append (r : Ramp) (as bs : List Component) :
    greatestLoad r (as ++ bs) = (greatestLoad r as).merge max (greatestLoad r bs) := by
  rw [greatestLoad, List.filterMap_append, Load.greatest_append]
  rfl

theorem greatestLoad_singleton (r : Ramp) (c : Component) : greatestLoad r [c] = load? r c := by
  cases h : load? r c <;> simp [greatestLoad, h, Load.greatest]

theorem greatestLoad_eq_none_iff : greatestLoad r cs = none ↔ ∀ c ∈ cs, ¬ c.IsUsable := by
  simp only [greatestLoad, Load.greatest_eq_none_iff, List.filterMap_eq_nil_iff, load?_eq_none_iff]

/-- The same is told of usable components. -/
def SameReadings (as bs : List Component) : Prop :=
  ∀ reading, (∃ c ∈ as, c.IsUsable ∧ c.reading = reading) ↔
    ∃ c ∈ bs, c.IsUsable ∧ c.reading = reading

theorem SameReadings.symm (h : SameReadings as bs) : SameReadings bs as := fun reading =>
  (h reading).symm

theorem SameReadings.mem_loads (h : SameReadings as bs) (hload : load ∈ as.filterMap (load? r)) :
    load ∈ bs.filterMap (load? r) := by
  rw [mem_loads_iff] at hload ⊢
  obtain ⟨c, hc, husable, hload⟩ := hload
  obtain ⟨c', hc', husable', hreading⟩ := (h c.reading).mp ⟨c, hc, husable, rfl⟩
  exact ⟨c', hc', husable', (load?_congr hreading).trans hload⟩

theorem SameReadings.greatestLoad_eq (h : SameReadings as bs) :
    greatestLoad r as = greatestLoad r bs :=
  Load.greatest_congr fun _ => ⟨h.mem_loads, h.symm.mem_loads⟩

theorem sameReadings_of_perm (h : as.Perm bs) : SameReadings as bs := fun _ => by
  simp only [h.mem_iff]

theorem sameReadings_of_subset (h : as ⊆ bs) : SameReadings (as ++ bs) bs := by
  intro reading
  constructor
  · rintro ⟨c, hc, hreading⟩
    exact ⟨c, (List.mem_append.mp hc).elim (h ·) id, hreading⟩
  · rintro ⟨c, hc, hreading⟩
    exact ⟨c, List.mem_append_right _ hc, hreading⟩

theorem sameReadings_of_not_isUsable (h : ¬ c.IsUsable) :
    SameReadings (as ++ c :: bs) (as ++ bs) := by
  intro reading
  constructor
  · rintro ⟨other, hother, husable, hreading⟩
    have hne : other ≠ c := by
      rintro rfl
      exact h husable
    have hmem : other ∈ as ++ bs := by simpa [hne] using hother
    exact ⟨other, hmem, husable, hreading⟩
  · rintro ⟨other, hother, hreading⟩
    have hmem : other ∈ as ++ c :: bs := by
      rw [List.mem_append] at hother ⊢
      exact hother.imp_right (List.mem_cons_of_mem c)
    exact ⟨other, hmem, hreading⟩

/-- Another label makes no difference. -/
theorem sameReadings_of_map_eq (h : as.map reading = bs.map reading) : SameReadings as bs := by
  have hmem : ∀ {as bs : List Component}, as.map reading = bs.map reading →
      ∀ c ∈ as, c.IsUsable → ∃ c' ∈ bs, c'.IsUsable ∧ c'.reading = c.reading := by
    intro as bs h c hc husable
    have hreading : c.reading ∈ bs.map reading := h ▸ List.mem_map_of_mem hc
    obtain ⟨c', hc', heq⟩ := List.mem_map.mp hreading
    exact ⟨c', hc', (isUsable_congr heq).mpr husable, heq⟩
  intro reading
  constructor
  · rintro ⟨c, hc, husable, rfl⟩
    exact hmem h c hc husable
  · rintro ⟨c, hc, husable, rfl⟩
    exact hmem h.symm c hc husable

end Greatest

end Component

namespace Probe

open Component

section Sensors

variable {r : Ramp} {s : Surroundings} {found : List Component}

theorem read_components (h : s.feed.next = some found) :
    (components r).source.read s =
      ⟨.ofExcept (Component.sample r found), { s with feed := s.feed.advance },
        found.map Component.notice⟩ := by
  simp only [source, readComponents, h]

theorem outcome_ofExcept_sample (r : Ramp) (found : List Component) :
    Outcome.ofExcept (Component.sample r found) =
      match greatestLoad r found with
      | some load => .load load
      | none => .fault (.noSensors sourceName) := by
  simp only [Component.sample]
  cases greatestLoad r found <;> rfl

theorem level_of_mem_notices {n : Notice} (h : n ∈ found.map Component.notice) :
    n.level = .trace := by
  obtain ⟨c, -, rfl⟩ := List.mem_map.mp h
  rfl

end Sensors

/-- The greatest load joins like a maximum that may be missing, so that order, repetitions and
components without use make no difference.  A reading of the sensors has it for an outcome, whatever
the labels are, and tells the log of each component in the order of the frame. -/
theorem read_components_joins (r : Ramp) :
    (greatestLoad r [] = none ∧ ∀ c, greatestLoad r [c] = load? r c) ∧
      (∀ as bs, greatestLoad r (as ++ bs) = (greatestLoad r as).merge max (greatestLoad r bs)) ∧
      (∀ cs, greatestLoad r cs = none ↔ ∀ c ∈ cs, ¬ c.IsUsable) ∧
      (∀ as bs, as.Perm bs → greatestLoad r as = greatestLoad r bs) ∧
      (∀ as bs, as ⊆ bs → greatestLoad r (as ++ bs) = greatestLoad r bs) ∧
      (∀ as c bs, ¬ c.IsUsable → greatestLoad r (as ++ c :: bs) = greatestLoad r (as ++ bs)) ∧
      ∀ s found, s.feed.next = some found →
        (components r).source.read s =
          ⟨match greatestLoad r found with
            | some load => .load load
            | none => .fault (.noSensors "components"),
            { s with feed := s.feed.advance },
            found.map fun c => .component c.label c.temperature c.critical⟩ ∧
        (∀ n ∈ ((components r).source.read s).log, n.level = .trace) ∧
        ∀ s' found', s'.feed.next = some found' → found'.map reading = found.map reading →
          ((components r).source.read s').outcome = ((components r).source.read s).outcome := by
  refine ⟨⟨rfl, greatestLoad_singleton r⟩, greatestLoad_append r,
    fun _ => greatestLoad_eq_none_iff,
    fun _ _ hperm => (sameReadings_of_perm hperm).greatestLoad_eq,
    fun _ _ hsubset => (sameReadings_of_subset hsubset).greatestLoad_eq,
    fun _ _ _ huseless => (sameReadings_of_not_isUsable huseless).greatestLoad_eq, ?_⟩
  intro s found hfound
  refine ⟨?_, ?_, ?_⟩
  · rw [read_components hfound, outcome_ofExcept_sample]
    rfl
  · intro n hn
    rw [read_components hfound] at hn
    exact level_of_mem_notices hn
  · intro s' found' hfound' hreadings
    have hload : greatestLoad r found' = greatestLoad r found :=
      (sameReadings_of_map_eq hreadings).greatestLoad_eq
    simp only [read_components hfound, read_components hfound', outcome_ofExcept_sample, hload]

end Probe

end ThermalGauge
