import ThermalGauge.Proofs.Cooling.Listing
import ThermalGauge.Proofs.Cooling.Shown
import ThermalGauge.Proofs.FileTree.Moved

/-!
# Samples before and after an edit

A device is listed and used through a number of lookups.  It shows the same as long as the tree
is the same at those locations, and under a new name if the old one was looked up for nothing
else.  Links can lead from one device into another, so an edit of one device can be an edit of
others too.
-/

namespace ThermalGauge

namespace Cooling

open FileTree

/-- What is resolved of a device: its directory and the two files. -/
inductive Part where
  | directory
  | currentState
  | maxState

namespace Part

def path (device : Path) : Part → Path
  | directory => device
  | currentState => Cooling.currentState device
  | maxState => Cooling.maxState device

def names : Part → List Name
  | directory => []
  | currentState => [currentStateName]
  | maxState => [maxStateName]

variable {device : Path} {c : UInt8}

theorem split_path (hlast : device.octets.getLast? = some c) (hc : c ≠ Path.slash) (part : Part) :
    Path.split (part.path device).octets = Path.split device.octets ++ part.names := by
  cases part with
  | directory => exact (List.append_nil _).symm
  | currentState => exact Path.split_join hlast hc currentStateName
  | maxState => exact Path.split_join hlast hc maxStateName

theorem startOf_path (hlast : device.octets.getLast? = some c) (t : FileTree) (part : Part) :
    t.startOf (part.path device) = t.startOf device := by
  have hdevice : device.octets ≠ [] := by
    intro hnil
    rw [hnil] at hlast
    cases hlast
  have hjoin : ∀ name, t.startOf (device.join name) = t.startOf device := by
    intro name
    rw [startOf, startFrom, Path.isAbsolute_join hdevice]
    rfl
  cases part with
  | directory => rfl
  | currentState => exact hjoin currentStateName
  | maxState => exact hjoin maxStateName

theorem length_path_le (device : Path) (part : Part) :
    (part.path device).octets.length ≤ (Cooling.maxState device).octets.length := by
  have hsame : currentStateName.length = maxStateName.length := by decide
  cases part with
  | directory => exact length_le_join device maxStateName
  | currentState =>
      simp only [path, Cooling.currentState, Cooling.maxState, Path.join]
      split
      · simp [hsame]
      · split <;> simp [hsame]
  | maxState => exact Nat.le_refl _

end Part

/-- A device that can be used, and what it shows. -/
structure IsUsable (t : FileTree) (root : Path) (name : Name) (s : Steps) : Prop where
  listed : name ∈ candidates t root
  isDirectory : t.isDirectory (devicePath root name) = true
  shows : steps? t (devicePath root name) = some s

/-- Where the tree is looked at to list the devices of a root: on the way to each directory that
is listed, and at the directory itself. -/
def scanLookups (t : FileTree) (root : Path) : List Location :=
  (listedPaths root).flatMap fun p => t.lookups p ++ (t.openDirectory p).toOption.toList

/-- Where the tree is looked at to list a device and to use it. -/
inductive LooksAt (t : FileTree) (root : Path) (name : Name) : Location → Prop where
  | root {k : Location} (h : k ∈ scanLookups t root) : LooksAt t root name k
  | entry {l : Location} (h : t.resolve (scannedPath root) = .ok (.directory l)) :
      LooksAt t root name (name :: l)
  | part (part : Part) {k : Location} (h : k ∈ t.lookups (part.path (devicePath root name))) :
      LooksAt t root name k

section Usable

variable {t t' : FileTree} {root root' p p' : Path} {name name' : Name} {s : Steps}
  {f : Location → Location}

theorem shows_iff : Shows t root s ↔ ∃ name, IsUsable t root name s := by
  constructor
  · rintro ⟨device, hdevice, hs⟩
    obtain ⟨name, hname, rfl, hdirectory⟩ := mem_devices_iff.mp hdevice
    exact ⟨name, hname, hdirectory, hs⟩
  · rintro ⟨name, hname, hdirectory, hs⟩
    exact ⟨devicePath root name, mem_devices_iff.mpr ⟨name, hname, rfl, hdirectory⟩, hs⟩

theorem numberIn_eq_ok {content : Octets} {n : UInt64} (h : numberIn p content = .ok n)
    (p' : Path) : numberIn p' content = .ok n := by
  unfold numberIn at h ⊢
  cases htext : Utf8.decode? content with
  | none => simp [htext] at h
  | some text =>
      simp only [htext] at h ⊢
      cases hvalue : Text.readUInt64 (Text.trim text) with
      | error refusal => simp [hvalue] at h
      | ok n' => simpa [hvalue] using h

theorem readNumber_carried {n : UInt64}
    (h : ∀ spot, t.resolve p = .ok spot → t'.resolve p' = .ok (spot.map f))
    (hn : readNumber t p = .ok n) : readNumber t' p' = .ok n := by
  unfold readNumber at hn ⊢
  cases hcontent : t.content p with
  | error error => simp [hcontent] at hn
  | ok content =>
      rw [hcontent] at hn
      have hresolve := h _ (content_eq_ok_iff.mp hcontent)
      rw [content_eq_ok_iff.mpr hresolve]
      exact numberIn_eq_ok hn p'

theorem IsUsable.of_resolve (h : IsUsable t root name s)
    (hlisted : name' ∈ candidates t' root')
    (hresolve : ∀ (part : Part) (spot : Spot),
      t.resolve (part.path (devicePath root name)) = .ok spot →
        t'.resolve (part.path (devicePath root' name')) = .ok (spot.map f)) :
    IsUsable t' root' name' s := by
  obtain ⟨hcurrent, hmax⟩ := steps?_eq_some_iff.mp h.shows
  obtain ⟨place, hplace⟩ := isDirectory_iff.mp h.isDirectory
  refine ⟨hlisted, ?_, ?_⟩
  · exact isDirectory_iff.mpr ⟨_, hresolve .directory _ hplace⟩
  · rw [steps?_eq_some_iff]
    exact ⟨readNumber_carried (hresolve .currentState) hcurrent,
      readNumber_carried (hresolve .maxState) hmax⟩

theorem Listable.carried (hf : KeepsParents f) (hhere : t'.workingDirectory = f t.workingDirectory)
    (h : Listable t root) (hcarries : ∀ k ∈ scanLookups t root, Carries t t' f k) :
    Listable t' root := by
  intro p hp
  obtain ⟨l, hl⟩ := h p hp
  have hlooks : ∀ k, k ∈ t.lookups p ∨ k = l → k ∈ scanLookups t root := by
    intro k hk
    refine List.mem_flatMap.mpr ⟨p, hp, ?_⟩
    simpa [hl, Except.toOption] using hk
  exact ⟨f l, openDirectory_carried hf hhere (fun k hk => hcarries k (hlooks k (.inl hk)))
    (hcarries l (hlooks l (.inr rfl))) hl⟩

theorem mem_scanLookups_of_lookups {k : Location} (h : k ∈ t.lookups (scannedPath root)) :
    k ∈ scanLookups t root :=
  List.mem_flatMap.mpr ⟨scannedPath root, List.mem_append_right _ (List.mem_singleton_self _),
    List.mem_append_left _ h⟩

theorem IsUsable.carried (hf : KeepsParents f) (hhere : t'.workingDirectory = f t.workingDirectory)
    (h : IsUsable t root name s) (hcarries : ∀ k, LooksAt t root name k → Carries t t' f k) :
    IsUsable t' root name s := by
  refine h.of_resolve (f := f) ?_ ?_
  · obtain ⟨⟨l, hplace, hentry, hname⟩, hlistable⟩ := mem_candidates_iff.mp h.listed
    obtain ⟨e, he⟩ := Option.isSome_iff_exists.mp hentry
    have hplace' := resolve_carried hf hhere
      (fun k hk => hcarries k (.root (mem_scanLookups_of_lookups hk))) hplace
    have hentry' := (hcarries _ (.entry hplace) name l e rfl he).1
    exact mem_candidates_iff.mpr ⟨⟨f l, hplace', Option.isSome_iff_exists.mpr ⟨e, hentry'⟩, hname⟩,
      hlistable.carried hf hhere fun k hk => hcarries k (.root hk)⟩
  · intro part spot hspot
    exact resolve_carried hf hhere (fun k hk => hcarries k (.part part hk)) hspot

end Usable

/-- The tree is the same where it is looked at for a device. -/
structure Untouched (t t' : FileTree) (root : Path) (name : Name) : Prop where
  workingDirectory : t'.workingDirectory = t.workingDirectory
  entries : ∀ k, LooksAt t root name k → t'.entryAt? k = t.entryAt? k

section Edits

variable {t t' : FileTree} {root : Path} {name : Name} {s : Steps}

theorem IsUsable.of_untouched (h : IsUsable t root name s) (hsame : Untouched t t' root name) :
    IsUsable t' root name s := by
  refine h.carried keepsParents_id hsame.workingDirectory ?_
  rintro k hk n l e rfl he
  exact ⟨(hsame.entries _ hk).trans he, fun _ _ => rfl⟩

theorem sample_of_untouched
    (h : ∀ name s, IsUsable t root name s → Untouched t t' root name)
    (h' : ∀ name s, IsUsable t' root name s → Untouched t' t root name) :
    sample t' root = sample t root := by
  apply sample_congr
  intro s
  rw [shows_iff, shows_iff]
  constructor
  · rintro ⟨name, hname⟩
    exact ⟨name, hname.of_untouched (h name s hname)⟩
  · rintro ⟨name, hname⟩
    exact ⟨name, hname.of_untouched (h' name s hname)⟩

theorem sample_notLowered_of_raised
    (h : ∀ name s, IsUsable t root name s →
      Untouched t t' root name ∨ ∃ s', IsUsable t' root name s' ∧ s.Raised s') :
    NotLowered (sample t root) (sample t' root) := by
  apply sample_notLowered
  intro s hs
  obtain ⟨name, hname⟩ := shows_iff.mp hs
  rcases h name s hname with hsame | ⟨s', hname', hraised⟩
  · exact ⟨s, shows_iff.mpr ⟨name, hname.of_untouched hsame⟩, s.raised_refl⟩
  · exact ⟨s', shows_iff.mpr ⟨name, hname'⟩, hraised⟩

theorem sample_notLowered_of_added (hhere : t'.workingDirectory = t.workingDirectory)
    (h : ∀ k e, t.entryAt? k = some e → t'.entryAt? k = some e) :
    NotLowered (sample t root) (sample t' root) := by
  apply sample_notLowered
  intro s hs
  obtain ⟨name, hname⟩ := shows_iff.mp hs
  have hname' : IsUsable t' root name s := by
    refine hname.carried keepsParents_id hhere ?_
    rintro k - n l e rfl he
    exact ⟨h _ _ he, fun _ _ => rfl⟩
  exact ⟨s, shows_iff.mpr ⟨name, hname'⟩, s.raised_refl⟩

end Edits

section Rename

/-- The name of a device of which the files have paths that are not too long. -/
structure Fits (root : Path) (name : Name) : Prop where
  isDeviceName : isDeviceName name = true
  slash_not_mem : Path.slash ∉ name
  name_le : name.length ≤ nameLimit
  path_le : (maxState (devicePath root name)).octets.length ≤ pathLimit

/-- The entry of a name in the directory `l` is looked up for this device alone, and once for
each part of it. -/
structure Apart (t : FileTree) (root : Path) (name : Name) (l : Location) : Prop where
  scanned : name :: l ∉ scanLookups t root
  own : ∀ s, IsUsable t root name s → ∀ part : Part,
    (t.lookups (part.path (devicePath root name))).count (name :: l) = 1
  others : ∀ other s, other ≠ name → IsUsable t root other s → ¬ LooksAt t root other (name :: l)

variable {t t' : FileTree} {root : Path} {name name' : Name} {l : Location} {s : Steps}

theorem Fits.stem_isPrefix (h : Fits root name) : deviceStem <+: name :=
  List.isPrefixOf_iff_prefix.mp (Bool.and_eq_true_iff.mp h.isDeviceName).1

theorem Fits.isProper (h : Fits root name) : IsProper name :=
  isProper_of_stem h.stem_isPrefix h.name_le

theorem Fits.ne_nil (h : Fits root name) : name ≠ [] := ne_nil_of_stem h.stem_isPrefix

theorem Fits.length_path_le (h : Fits root name) (part : Part) :
    (part.path (devicePath root name)).octets.length ≤ pathLimit :=
  Nat.le_trans (part.length_path_le _) h.path_le

/-- An entry is apart if no other entry of the directory leads to it. -/
theorem Apart.of_names (hplace : t.resolve (scannedPath root) = .ok (.directory l))
    (hscanned : name :: l ∉ scanLookups t root)
    (hown : ∀ part : Part, (t.lookups (part.path (devicePath root name))).count (name :: l) = 1)
    (hothers : ∀ (part : Part), ∀ other ∈ t.names l, other ≠ name →
      name :: l ∉ t.lookups (part.path (devicePath root other))) : Apart t root name l := by
  refine ⟨hscanned, fun _ _ => hown, ?_⟩
  intro other s hne hother hlooks
  obtain ⟨⟨l', hl', hentry, -⟩, -⟩ := mem_candidates_iff.mp hother.listed
  rw [hplace] at hl'
  cases hl'
  generalize hk : name :: l = k at hlooks
  cases hlooks with
  | root h => exact hscanned (hk ▸ h)
  | entry h => exact hne (List.cons.inj hk).1.symm
  | part part h => exact hothers part other (mem_names_iff.mpr hentry) hne (hk ▸ h)

theorem Apart.carries_scanned (hapart : Apart t root name l)
    (hmoved : Moved t t' (name :: l) (name' :: l)) {k : Location} (hk : k ∈ scanLookups t root) :
    Carries t t' (moved (name :: l) (name' :: l)) k :=
  hmoved.carries (ne_of_mem_of_not_mem hk hapart.scanned)

theorem Apart.resolve_scanned (hapart : Apart t root name l)
    (hmoved : Moved t t' (name :: l) (name' :: l))
    (hplace : t.resolve (scannedPath root) = .ok (.directory l)) :
    t'.resolve (scannedPath root) = .ok (.directory l) := by
  have hplace' := resolve_carried keepsParents_moved hmoved.workingDirectory
    (fun k hk => hapart.carries_scanned hmoved (mem_scanLookups_of_lookups hk)) hplace
  rw [Spot.map, moved_parent] at hplace'
  exact hplace'

theorem exists_way_parts (hplace : t.resolve (scannedPath root) = .ok (.directory l)) :
    ∃ way, t.walk linkLimit (t.startOf (scannedPath root)) way = .ok (.directory l) ∧
      (∀ k ∈ t.walkLookups linkLimit (t.startOf (scannedPath root)) way,
        k ∈ t.lookups (scannedPath root)) ∧
      ∀ name, Path.slash ∉ name → name ≠ [] → ∀ part : Part,
        Path.split (part.path (devicePath root name)).octets = way ++ name :: part.names ∧
          t.startOf (part.path (devicePath root name)) = t.startOf (scannedPath root) := by
  obtain ⟨way, hway, hseen, hjoin⟩ := exists_way hplace
  refine ⟨way, hway, hseen, ?_⟩
  intro name hslash hname part
  obtain ⟨hsplit, hstart, c, hlast, hc⟩ := hjoin name hslash hname
  refine ⟨?_, (part.startOf_path hlast t).trans hstart⟩
  rw [devicePath, part.split_path hlast hc, hsplit, List.append_assoc, List.singleton_append]

theorem IsUsable.renamed (hplace : t.resolve (scannedPath root) = .ok (.directory l))
    (hne : name ≠ name') (hmoved : Moved t t' (name :: l) (name' :: l)) (hfits : Fits root name)
    (hfits' : Fits root name') (hapart : Apart t root name l) (h : IsUsable t root name s) :
    IsUsable t' root name' s := by
  -- the directory is where it was, and has the same entry under the new name
  refine h.of_resolve (f := moved (name :: l) (name' :: l)) ?_ ?_
  · obtain ⟨⟨l', hl', hentry, -⟩, hlistable⟩ := mem_candidates_iff.mp h.listed
    rw [hplace] at hl'
    cases hl'
    rw [← hmoved.entry_target hne] at hentry
    have hlistable' := hlistable.carried keepsParents_moved hmoved.workingDirectory
      fun k hk => hapart.carries_scanned hmoved hk
    exact mem_candidates_iff.mpr
      ⟨⟨l, hapart.resolve_scanned hmoved hplace, hentry, hfits'.isDeviceName⟩, hlistable'⟩
  · obtain ⟨way, hway, hseen, hparts⟩ := exists_way_parts hplace
    intro part spot hspot
    obtain ⟨hsplit, hstart⟩ := hparts name hfits.slash_not_mem hfits.ne_nil part
    obtain ⟨hsplit', hstart'⟩ := hparts name' hfits'.slash_not_mem hfits'.ne_nil part
    rw [← hstart] at hway hseen
    exact hmoved.resolve hne hfits.isProper hfits'.isProper hsplit hsplit'
      (hstart'.trans hstart.symm) (hfits'.length_path_le part) hway
      (fun hk => hapart.scanned (mem_scanLookups_of_lookups (hseen _ hk))) (hapart.own s h part)
      hspot

theorem shows_of_renamed (hplace : t.resolve (scannedPath root) = .ok (.directory l))
    (hne : name ≠ name') (hmoved : Moved t t' (name :: l) (name' :: l)) (hfits : Fits root name)
    (hfits' : Fits root name') (hapart : Apart t root name l) (h : Shows t root s) :
    Shows t' root s := by
  rw [shows_iff] at h ⊢
  obtain ⟨other, hother⟩ := h
  -- the device itself is found under its new name, any other one where it was
  by_cases hsame : other = name
  · subst hsame
    exact ⟨name', hother.renamed hplace hne hmoved hfits hfits' hapart⟩
  · have hcarries : ∀ k, LooksAt t root other k →
        Carries t t' (moved (name :: l) (name' :: l)) k := by
      intro k hk
      apply hmoved.carries
      rintro rfl
      exact hapart.others other s hsame hother hk
    exact ⟨other, hother.carried keepsParents_moved hmoved.workingDirectory hcarries⟩

theorem sample_of_renamed (hplace : t.resolve (scannedPath root) = .ok (.directory l))
    (hne : name ≠ name') (hmoved : Moved t t' (name :: l) (name' :: l)) (hfits : Fits root name)
    (hfits' : Fits root name') (hapart : Apart t root name l) (hapart' : Apart t' root name' l) :
    sample t' root = sample t root := by
  have hplace' := hapart.resolve_scanned hmoved hplace
  apply sample_congr
  intro s
  constructor
  · exact shows_of_renamed hplace hne hmoved hfits hfits' hapart
  · exact shows_of_renamed hplace' (Ne.symm hne) (hmoved.symm hne) hfits' hfits hapart'

end Rename

end Cooling

end ThermalGauge
