import Mathlib.Data.List.Find
import ThermalGauge.Proofs.FileTree.Lookups

/-!
# A new name in the same directory

What stands at a location, and all below it, can go to another one where nothing stands.  Where
the two differ in the last name, a walk that meets the old name once comes, with the new name in
its place, to the spot that corresponds.
-/

namespace ThermalGauge

namespace FileTree

/-- In `t'` there is at `target`, where nothing was in `t`, what was at `source`. -/
structure Moved (t t' : FileTree) (source target : Location) : Prop where
  workingDirectory : t'.workingDirectory = moved source target t.workingDirectory
  away : ¬ target <:+ t.workingDirectory
  free : ∀ k, target <:+ k → t.entryAt? k = none
  entries : ∀ k, ¬ target <:+ k → t'.entryAt? (moved source target k) = t.entryAt? k
  gone : ∀ k, source <:+ k → t'.entryAt? k = none

theorem moved_append (source target above : Location) :
    moved source target (above ++ source) = above ++ target := by
  have hsuffix : source.isSuffixOf (above ++ source) = true :=
    List.isSuffixOf_iff_suffix.mpr (List.suffix_append above source)
  rw [moved, if_pos hsuffix, List.length_append, Nat.add_sub_cancel, List.take_left]

theorem moved_of_not_suffix {source target k : Location} (h : ¬ source <:+ k) :
    moved source target k = k := by
  rw [moved, if_neg (fun hsuffix => h (List.isSuffixOf_iff_suffix.mp hsuffix))]

section Siblings

variable {name name' : Name} {l : Location}

theorem not_suffix_of_ne (hne : name ≠ name') (above : Location) :
    ¬ (name' :: l) <:+ above ++ name :: l := by
  intro h
  have hsame : name' :: l = name :: l :=
    (List.suffix_of_suffix_length_le h (List.suffix_append _ _) (by simp)).eq_of_length (by simp)
  exact hne (List.cons.inj hsame).1.symm

/-- Nothing comes to the old name. -/
theorem not_suffix_moved (hne : name ≠ name') (k : Location) :
    ¬ (name :: l) <:+ moved (name :: l) (name' :: l) k := by
  intro h
  by_cases hsource : (name :: l) <:+ k
  · obtain ⟨above, rfl⟩ := hsource
    rw [moved_append] at h
    exact not_suffix_of_ne (Ne.symm hne) above h
  · rw [moved_of_not_suffix hsource] at h
    exact hsource h

/-- Going back undoes going there. -/
theorem moved_moved {k : Location} (hk : ¬ (name' :: l) <:+ k) :
    moved (name' :: l) (name :: l) (moved (name :: l) (name' :: l) k) = k := by
  by_cases hsource : (name :: l) <:+ k
  · obtain ⟨above, rfl⟩ := hsource
    rw [moved_append, moved_append]
  · rw [moved_of_not_suffix hsource, moved_of_not_suffix hk]

theorem moved_self : moved (name :: l) (name' :: l) (name :: l) = name' :: l :=
  moved_append (name :: l) (name' :: l) []

/-- The directory in which the names stand is where it was. -/
theorem moved_parent : moved (name :: l) (name' :: l) l = l := by
  apply moved_of_not_suffix
  intro h
  exact absurd h.length_le (by simp)

theorem moved_cons {n : Name} {up : Location} (h : n :: up ≠ name :: l) :
    moved (name :: l) (name' :: l) (n :: up) = n :: moved (name :: l) (name' :: l) up := by
  by_cases hup : (name :: l) <:+ up
  · obtain ⟨above, rfl⟩ := hup
    rw [← List.cons_append, moved_append, moved_append, List.cons_append]
  · rw [moved_of_not_suffix hup]
    apply moved_of_not_suffix
    intro hsuffix
    rcases List.suffix_cons_iff.mp hsuffix with heq | hup'
    · exact h heq.symm
    · exact hup hup'

theorem keepsParents_moved : KeepsParents (moved (name :: l) (name' :: l)) := by
  intro k
  cases k with
  | nil =>
      have hnil : moved (name :: l) (name' :: l) [] = [] := moved_of_not_suffix (by simp)
      rw [List.tail_nil, hnil, List.tail_nil]
  | cons n up =>
      by_cases h : n :: up = name :: l
      · cases h
        rw [moved_self]
        exact moved_parent.symm
      · rw [moved_cons h]
        rfl

end Siblings

namespace Moved

variable {t t' : FileTree} {name name' : Name} {l : Location}

theorem symm (hne : name ≠ name') (h : Moved t t' (name :: l) (name' :: l)) :
    Moved t' t (name' :: l) (name :: l) where
  workingDirectory := by rw [h.workingDirectory, moved_moved h.away]
  away := h.workingDirectory ▸ not_suffix_moved hne _
  free := h.gone
  entries := by
    intro k hk
    by_cases htarget : (name' :: l) <:+ k
    · obtain ⟨above, rfl⟩ := htarget
      rw [moved_append, ← h.entries _ (not_suffix_of_ne hne above), moved_append]
    · rw [moved_of_not_suffix htarget, ← h.entries k htarget, moved_of_not_suffix hk]
  gone := h.free

theorem carries (h : Moved t t' (name :: l) (name' :: l)) {k : Location} (hk : k ≠ name :: l) :
    Carries t t' (moved (name :: l) (name' :: l)) k := by
  rintro n up e rfl he
  have hstays : ¬ (name' :: l) <:+ n :: up := by
    intro htarget
    rw [h.free _ htarget] at he
    cases he
  have hentry := h.entries _ hstays
  rw [moved_cons hk] at hentry
  exact ⟨hentry.trans he, fun _ _ => moved_cons hk⟩

theorem entry_target (hne : name ≠ name') (h : Moved t t' (name :: l) (name' :: l)) :
    t'.entryAt? (name' :: l) = t.entryAt? (name :: l) := by
  rw [← h.entries (name :: l) (not_suffix_of_ne hne []), moved_self]

/-- A walk from the directory in which a name is new, if it does not meet the name again. -/
theorem walk_from_parent (hne : name ≠ name') (h : Moved t t' (name :: l) (name' :: l))
    (hproper : IsProper name) (hproper' : IsProper name') {links : Nat} {names : List Name}
    {spot : Spot}
    (hlookups : (t.walkLookups links l (name :: names)).count (name :: l) = 1)
    (hwalk : t.walk links l (name :: names) = .ok spot) :
    t'.walk links l (name' :: names) = .ok (spot.map (moved (name :: l) (name' :: l))) := by
  rw [walkLookups_cons hproper] at hlookups
  rw [walk_cons hproper] at hwalk
  rw [walk_cons hproper', h.entry_target hne]
  -- nothing after the first lookup is at the old name
  have hcarries : ∀ ks : List Location, ((name :: l) :: ks).count (name :: l) = 1 →
      ∀ k ∈ ks, Carries t t' (moved (name :: l) (name' :: l)) k := by
    intro ks hks k hk
    apply h.carries
    rintro rfl
    have hnone : ks.count (name :: l) = 0 := by simpa using hks
    exact List.count_eq_zero.mp hnone hk
  cases he : t.entryAt? (name :: l) with
  | none => simp [he] at hwalk
  | some e =>
      rw [he] at hlookups hwalk
      cases e with
      | file content =>
          by_cases hnames : names = []
          · simp only [hnames, if_true, Except.ok.injEq] at hwalk ⊢
            rw [← hwalk]
            rfl
          · simp [hnames] at hwalk
      | directory refusal =>
          have hon := walk_carried keepsParents_moved (hcarries _ hlookups) hwalk
          rw [moved_self] at hon
          exact hon
      | link target =>
          cases links with
          | zero => cases hwalk
          | succ links =>
              have hon := walk_carried keepsParents_moved (hcarries _ hlookups) hwalk
              rw [← keepsParents_moved.startFrom, moved_parent] at hon
              exact hon

/-- A walk that comes to the directory in which a name is new and meets the old name there, and
only there. -/
theorem walk (hne : name ≠ name') (h : Moved t t' (name :: l) (name' :: l))
    (hproper : IsProper name) (hproper' : IsProper name') {links : Nat} {start : Location}
    {way names : List Name} (hway : t.walk links start way = .ok (.directory l))
    (hunseen : name :: l ∉ t.walkLookups links start way)
    (hlookups : (t.walkLookups links start (way ++ name :: names)).count (name :: l) = 1)
    {spot : Spot} (hwalk : t.walk links start (way ++ name :: names) = .ok spot) :
    t'.walk links (moved (name :: l) (name' :: l) start) (way ++ name' :: names) =
      .ok (spot.map (moved (name :: l) (name' :: l))) := by
  have hcarries : ∀ k ∈ t.walkLookups links start way,
      Carries t t' (moved (name :: l) (name' :: l)) k := by
    intro k hk
    exact h.carries (ne_of_mem_of_not_mem hk hunseen)
  obtain ⟨left, hleft⟩ := walk_append_carried keepsParents_moved hcarries hway
  obtain ⟨hon, hseen, -⟩ := hleft (name :: names)
  have hon' := (hleft (name' :: names)).2.2
  rw [moved_parent] at hon'
  rw [hseen, List.count_append, List.count_eq_zero.mpr hunseen, Nat.zero_add] at hlookups
  rw [hon] at hwalk
  rw [hon']
  exact h.walk_from_parent hne hproper hproper' hlookups hwalk

theorem startOf (h : Moved t t' (name :: l) (name' :: l)) (path : Path) :
    t'.startOf path = moved (name :: l) (name' :: l) (t.startOf path) := by
  rw [FileTree.startOf, h.workingDirectory, keepsParents_moved.startFrom]
  rfl

/-- Paths that differ in the name lead to corresponding spots. -/
theorem resolve (hne : name ≠ name') (h : Moved t t' (name :: l) (name' :: l))
    (hproper : IsProper name) (hproper' : IsProper name') {path path' : Path}
    {way names : List Name} (hsplit : Path.split path.octets = way ++ name :: names)
    (hsplit' : Path.split path'.octets = way ++ name' :: names)
    (hstart : t.startOf path' = t.startOf path) (hlimit : path'.octets.length ≤ pathLimit)
    (hway : t.walk linkLimit (t.startOf path) way = .ok (.directory l))
    (hunseen : name :: l ∉ t.walkLookups linkLimit (t.startOf path) way)
    (hlookups : (t.lookups path).count (name :: l) = 1) {spot : Spot}
    (hspot : t.resolve path = .ok spot) :
    t'.resolve path' = .ok (spot.map (moved (name :: l) (name' :: l))) := by
  have hpath' : path'.octets ≠ [] := by
    intro hempty
    have hname' : name' ∈ Path.split path'.octets := by simp [hsplit']
    rw [hempty] at hname'
    exact hproper'.1 (.inl (List.mem_singleton.mp hname'))
  rw [lookups, hsplit] at hlookups
  rw [FileTree.resolve, if_neg hpath', if_neg (Nat.not_lt.mpr hlimit), hsplit', h.startOf,
    hstart]
  rw [FileTree.resolve] at hspot
  split at hspot
  · cases hspot
  · split at hspot
    · cases hspot
    · rw [hsplit] at hspot
      exact h.walk hne hproper hproper' hway hunseen hlookups hspot

end Moved

section Rename

theorem entryAt?_relocate {t : FileTree} {f : Location → Location} {k : Location}
    (h : ∀ e ∈ t.entries, f e.1 = f k → e.1 = k) :
    (t.relocate f).entryAt? (f k) = t.entryAt? k := by
  have hfind : t.entries.find? (fun e => f e.1 == f k) = t.entries.find? (fun e => e.1 == k) := by
    apply List.find?_congr
    intro e he
    by_cases hk : e.1 = k
    · simp [hk]
    · have hf : f e.1 ≠ f k := fun hf => hk (h e he hf)
      simp [hk, hf]
  simp only [entryAt?, relocate, List.find?_map, Function.comp_def, hfind, Option.map_map]

theorem not_suffix_of_mem {t : FileTree} {target : Location}
    (hfree : ∀ k, target <:+ k → t.entryAt? k = none) {e : Location × Entry}
    (he : e ∈ t.entries) : ¬ target <:+ e.1 := by
  intro hsuffix
  have hnone := List.find?_eq_none.mp (Option.map_eq_none_iff.mp (hfree e.1 hsuffix))
  exact hnone e he (by simp)

theorem removeAt_of_free {t : FileTree} {target : Location}
    (hfree : ∀ k, target <:+ k → t.entryAt? k = none) : t.removeAt target = t := by
  have hall : ∀ e ∈ t.entries, (!target.isSuffixOf e.1) = true := by
    intro e he
    rw [Bool.not_eq_true', Bool.eq_false_iff]
    exact mt List.isSuffixOf_iff_suffix.mp (not_suffix_of_mem hfree he)
  rw [removeAt, List.filter_eq_self.mpr hall]

/-- An entry gets a new name in its directory, if there is nothing of that name. -/
theorem moved_rename {t : FileTree} {source target : Path} {name name' : Name} {l : Location}
    (hne : name ≠ name') (hsource : t.locate? source = some (name :: l))
    (hway : t.ensureDirectory (t.startOf target) (wayTo target).1 = (t, l))
    (hname : (wayTo target).2 = name') (haway : ¬ (name' :: l) <:+ t.workingDirectory)
    (hfree : ∀ k, (name' :: l) <:+ k → t.entryAt? k = none) :
    Moved t (t.apply (.rename source target)) (name :: l) (name' :: l) := by
  have hrename : t.apply (.rename source target) =
      t.relocate (moved (name :: l) (name' :: l)) := by
    have hdestination : name' :: l ≠ name :: l := fun h => hne (List.cons.inj h).1.symm
    simp only [apply, rename, hsource, hway, hname, if_neg hdestination, removeAt_of_free hfree]
  rw [hrename]
  refine ⟨rfl, haway, hfree, ?_, ?_⟩
  · intro k hk
    apply entryAt?_relocate
    intro e he hmoved
    have hback : moved (name' :: l) (name :: l) (moved (name :: l) (name' :: l) e.1) = e.1 :=
      moved_moved (not_suffix_of_mem hfree he)
    rw [← hback, hmoved, moved_moved hk]
  · intro k hk
    rw [entryAt?, Option.map_eq_none_iff, List.find?_eq_none]
    intro e' he' heq
    obtain ⟨e, he, rfl⟩ := List.mem_map.mp he'
    have hmoved : moved (name :: l) (name' :: l) e.1 = k := by simpa using heq
    exact not_suffix_moved hne e.1 (hmoved ▸ hk)

end Rename

end FileTree

end ThermalGauge
