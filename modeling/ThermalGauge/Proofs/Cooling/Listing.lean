import ThermalGauge.Proofs.Cooling.Scan

/-!
# How devices are listed

The devices of a root are the directories among the entries of its directory that are named as
devices are.  The path of a device leads through the directory and from there by its name.
-/

namespace ThermalGauge

namespace FileTree

theorem mem_names_iff {t : FileTree} {l : Location} {name : Name} :
    name ∈ t.names l ↔ (t.entryAt? (name :: l)).isSome := by
  simp only [names, List.mem_filterMap, entryAt?, Option.isSome_map, List.find?_isSome,
    beq_iff_eq]
  constructor
  · rintro ⟨e, he, hname⟩
    refine ⟨e, he, ?_⟩
    split at hname
    · split at hname
      · simp_all
      · cases hname
    · cases hname
  · rintro ⟨e, he, hkey⟩
    exact ⟨e, he, by simp [hkey]⟩

end FileTree

namespace Cooling

open FileTree

def devicePath (root : Path) (name : Name) : Path := entryPath (scannedPath root) name

variable {t : FileTree} {p root device : Path} {name : Name} {l : Location}

theorem ne_nil_of_stem (h : deviceStem <+: name) : name ≠ [] := by
  rintro rfl
  revert h
  decide

theorem isProper_of_stem (h : deviceStem <+: name) (hname : name.length ≤ nameLimit) :
    IsProper name := by
  refine ⟨?_, ?_, hname⟩
  · rintro (rfl | rfl) <;> revert h <;> decide
  · rintro rfl
    revert h
    decide

theorem mem_candidates_iff :
    name ∈ candidates t root ↔ (∃ l, t.resolve (scannedPath root) = .ok (.directory l) ∧
      (t.entryAt? (name :: l)).isSome ∧ isDeviceName name = true) ∧ Listable t root := by
  have hscan : (∃ l, t.resolve (scannedPath root) = .ok (.directory l) ∧
      (t.entryAt? (name :: l)).isSome ∧ isDeviceName name = true) ∧ Listable t root ↔
      ∃ l, scan t root = .ok l ∧ (t.entryAt? (name :: l)).isSome ∧ isDeviceName name = true := by
    simp only [scan_eq_ok_iff]
    constructor
    · rintro ⟨⟨l, hl, hname⟩, hlistable⟩
      exact ⟨l, ⟨hl, hlistable⟩, hname⟩
    · rintro ⟨l, ⟨hl, hlistable⟩, hname⟩
      exact ⟨⟨l, hl, hname⟩, hlistable⟩
  rw [hscan, candidates]
  cases scan t root with
  | error miss => simp
  | ok l => simp [sortNames, List.mem_mergeSort, List.mem_filter, mem_names_iff]

theorem mem_devices_iff :
    device ∈ devices t root ↔ ∃ name ∈ candidates t root,
      devicePath root name = device ∧ t.isDirectory device = true := by
  simp only [devices, List.mem_filter, List.mem_map, devicePath]
  constructor
  · rintro ⟨⟨name, hname, hdevice⟩, hdirectory⟩
    exact ⟨name, hname, hdevice, hdirectory⟩
  · rintro ⟨name, hname, hdevice, hdirectory⟩
    exact ⟨⟨name, hname, hdevice⟩, hdirectory⟩

/-- The devices of a root in the order in which the tree has them. -/
def found (t : FileTree) (root : Path) : List Path :=
  match scan t root with
  | .ok l => (((t.names l).filter isDeviceName).map (devicePath root)).filter t.isDirectory
  | .error _ => []

theorem found_perm (t : FileTree) (root : Path) : (found t root).Perm (devices t root) := by
  simp only [found, devices, candidates]
  cases scan t root with
  | error miss => exact List.Perm.refl []
  | ok l =>
      apply List.Perm.filter
      apply List.Perm.map
      exact (List.mergeSort_perm _ _).symm

theorem devices_eq_nil_of_error {miss : Miss} (h : scan t root = .error miss) :
    devices t root = [] := by
  simp [devices, candidates, h]

theorem devices_of_no_directory (h : ∀ l, t.resolve (scannedPath root) ≠ .ok (.directory l)) :
    devices t root = [] := by
  cases hscan : scan t root with
  | ok l => exact absurd (scan_eq_ok_iff.mp hscan).1 (h l)
  | error miss => exact devices_eq_nil_of_error hscan

/-- The names that lead to a directory lead, with one more behind them, to its entries. -/
theorem exists_way (h : t.resolve p = .ok (.directory l)) :
    ∃ way, t.walk linkLimit (t.startOf p) way = .ok (.directory l) ∧
      (∀ k ∈ t.walkLookups linkLimit (t.startOf p) way, k ∈ t.lookups p) ∧
      ∀ name, Path.slash ∉ name → name ≠ [] →
        Path.split (entryPath p name).octets = way ++ [name] ∧
          t.startOf (entryPath p name) = t.startOf p ∧
          ∃ c, (entryPath p name).octets.getLast? = some c ∧ c ≠ Path.slash := by
  obtain ⟨way, hway⟩ := exists_isWay (ne_nil_of_resolve h)
  have hwalk := hway.walk_iff.mp (walk_of_resolve h)
  refine ⟨way, hwalk, fun k hk => hway.lookups_subset hwalk hk, ?_⟩
  intro name hslash hne
  refine ⟨hway.split_entry hslash, hway.startOf_entry hslash t, ?_⟩
  cases hhere : isHere p with
  | true =>
      rw [eq_here hhere]
      exact Path.getLast?_ne_slash hslash hne
  | false =>
      rw [entryPath_eq_join (ne_nil_of_resolve h) hhere, Path.getLast?_join hne]
      exact Path.getLast?_ne_slash hslash hne

end Cooling

end ThermalGauge
