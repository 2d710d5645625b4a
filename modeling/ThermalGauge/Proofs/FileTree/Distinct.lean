import Mathlib.Data.List.Nodup
import ThermalGauge.Proofs.FileTree.Moved

/-!
# One entry at a location

An entry is put at a location after what was there has been taken away, and what gets a new name
comes to a location that has been cleared.  So no edit puts two entries at one location, and the
names in a directory are told apart.
-/

namespace ThermalGauge

namespace FileTree

variable {t : FileTree} {name : Name} {l source target : Location}

/-- No two entries of the tree are at the same location. -/
def Distinct (t : FileTree) : Prop := (t.entries.map Prod.fst).Nodup

section Edits

theorem not_suffix_of_mem_removeAt {k : Location}
    (hk : k ∈ (t.removeAt l).entries.map Prod.fst) : ¬ l <:+ k := by
  obtain ⟨e, he, rfl⟩ := List.mem_map.mp hk
  have hkept := (List.mem_filter.mp he).2
  intro hsuffix
  rw [List.isSuffixOf_iff_suffix.mpr hsuffix] at hkept
  cases hkept

theorem Distinct.removeAt (h : t.Distinct) (l : Location) : (t.removeAt l).Distinct :=
  h.sublist (List.filter_sublist.map Prod.fst)

theorem Distinct.putAt (h : t.Distinct) (l : Location) (e : Entry) : (t.putAt l e).Distinct := by
  have hfree : l ∉ (t.removeAt l).entries.map Prod.fst := fun hmem =>
    not_suffix_of_mem_removeAt hmem List.suffix_rfl
  have hkeys := List.Nodup.concat hfree (h.removeAt l)
  rw [List.concat_eq_append] at hkeys
  simpa only [FileTree.putAt, Distinct, List.map_append, List.map_singleton] using hkeys

theorem Distinct.ensureDirectory (h : t.Distinct) (l : Location) (names : List Name) :
    (t.ensureDirectory l names).1.Distinct := by
  induction names generalizing t l with
  | nil => exact h
  | cons name rest ih =>
      rw [FileTree.ensureDirectory]
      split
      · exact ih h _
      · exact ih (h.putAt (name :: l) _) _

theorem Distinct.write (h : t.Distinct) (p : Path) (e : Entry) : (t.write p e).Distinct :=
  (h.ensureDirectory (t.startOf p) (wayTo p).1).putAt _ e

theorem Distinct.remove (h : t.Distinct) (p : Path) : (t.remove p).Distinct := by
  unfold FileTree.remove
  split
  · exact h.removeAt _
  · exact h

/-- Locations that are not below the target stay apart when it takes in the source. -/
theorem moved_injOn {k k' : Location} (hk : ¬ target <:+ k) (hk' : ¬ target <:+ k')
    (h : moved source target k = moved source target k') : k = k' := by
  by_cases hsource : source <:+ k
  · obtain ⟨above, rfl⟩ := hsource
    rw [moved_append] at h
    by_cases hsource' : source <:+ k'
    · obtain ⟨above', rfl⟩ := hsource'
      rw [moved_append] at h
      rw [List.append_cancel_right h]
    · rw [moved_of_not_suffix hsource'] at h
      exact absurd ⟨above, h⟩ hk'
  · rw [moved_of_not_suffix hsource] at h
    by_cases hsource' : source <:+ k'
    · obtain ⟨above', rfl⟩ := hsource'
      rw [moved_append] at h
      exact absurd ⟨above', h.symm⟩ hk
    · rwa [moved_of_not_suffix hsource'] at h

theorem Distinct.relocate (h : t.Distinct) (source target : Location) :
    ((t.removeAt target).relocate (moved source target)).Distinct := by
  have hkeys : (((t.removeAt target).entries.map Prod.fst).map (moved source target)).Nodup := by
    apply List.Nodup.map_on _ (h.removeAt target)
    intro k hk k' hk'
    exact moved_injOn (not_suffix_of_mem_removeAt hk) (not_suffix_of_mem_removeAt hk')
  simpa only [Distinct, FileTree.relocate, List.map_map, Function.comp_def] using hkeys

theorem Distinct.rename (h : t.Distinct) (source target : Path) :
    (t.rename source target).Distinct := by
  have hmade := h.ensureDirectory (t.startOf target) (wayTo target).1
  simp only [FileTree.rename]
  split
  · exact h
  · split
    · exact hmade
    · exact hmade.relocate _ _

theorem Distinct.putFile (h : t.Distinct) (l : Location) (name : Name) (content : Option Octets) :
    (t.putFile l name content).Distinct := by
  cases content with
  | none => exact h
  | some content => exact h.putAt (name :: l) _

theorem Distinct.apply (h : t.Distinct) (edit : Edit) : (t.apply edit).Distinct := by
  cases edit with
  | device path current max =>
      have hmade := h.ensureDirectory (t.startOf path) (Path.split path.octets)
      exact (hmade.putFile _ maxStateName max).putFile _ currentStateName current
  | file path content => exact h.write path _
  | directory path => exact h.ensureDirectory (t.startOf path) (Path.split path.octets)
  | link path target => exact h.write path _
  | remove path => exact h.remove path
  | rename source target => exact h.rename source target

end Edits

end FileTree

end ThermalGauge
