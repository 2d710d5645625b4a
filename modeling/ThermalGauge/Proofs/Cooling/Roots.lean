import ThermalGauge.Proofs.Cooling.Edits
import ThermalGauge.Text.Utf8.Lemmas

/-!
# The root that is read

A root is taken apart into names and put together again before it is read.  In most cases this
only leaves out dots and slashes that make no difference.  It does not if the root is not text,
or if it begins with dots and goes on with an empty name: the one is read as another text, the
other makes an empty path.
-/

namespace ThermalGauge

namespace Path

/-- The octets in which `names` follow a slash each. -/
def spread (names : List Name) : Octets := names.flatMap (slash :: ·)

theorem append_spread_of_split {o : Octets} {name : Name} {names : List Name}
    (h : split o = name :: names) : name ++ spread names = o := by
  induction o generalizing name names with
  | nil =>
      cases h
      rfl
  | cons c rest ih =>
      obtain ⟨part, parts, hparts⟩ := List.exists_cons_of_ne_nil (split_ne_nil rest)
      have hrest := ih hparts
      simp only [split, hparts] at h
      split at h
      · rename_i hc
        cases h
        rw [hc, ← hrest]
        rfl
      · cases h
        rw [← hrest]
        rfl

end Path

namespace Cooling

open FileTree

section Scanned

variable {p root : Path} {name : Name} {names : List Name}

theorem join_cases (hp : p.octets ≠ []) (name : Name) :
    (∃ o, p.octets = o ++ [Path.slash] ∧ p.join name = ⟨o ++ Path.slash :: name⟩) ∨
      p.join name = ⟨p.octets ++ Path.slash :: name⟩ := by
  have hlast : p.octets.getLast? = some (p.octets.getLast hp) := List.getLast?_eq_some_getLast hp
  by_cases hc : p.octets.getLast hp = Path.slash
  · obtain ⟨o, ho⟩ := List.getLast?_eq_some_iff.mp (hc ▸ hlast)
    refine .inl ⟨o, ho, ?_⟩
    simp [Path.join, ho]
  · exact .inr (by simp [Path.join, hlast, hc])

theorem join_ne_nil (hp : p.octets ≠ []) (name : Name) : (p.join name).octets ≠ [] := by
  rcases join_cases hp name with ⟨o, -, hjoin⟩ | hjoin <;> simp [hjoin]

/-- The path of an entry is not a dot. -/
theorem isHere_join (hp : p.octets ≠ []) (name : Name) : isHere (p.join name) = false := by
  have hslash : Path.slash ∈ (p.join name).octets := by
    rcases join_cases hp name with ⟨o, -, hjoin⟩ | hjoin <;> simp [hjoin]
  rw [isHere, decide_eq_false_iff_not]
  intro hdot
  rw [hdot] at hslash
  revert hslash
  decide

theorem respells_join (hp : p.octets ≠ []) (name : Name) (rest : Octets) :
    Respells ⟨p.octets ++ Path.slash :: (name ++ rest)⟩ ⟨(p.join name).octets ++ rest⟩ := by
  rcases join_cases hp name with ⟨o, ho, hjoin⟩ | hjoin
  · rw [hjoin, ho, List.append_assoc, List.append_assoc]
    exact .of_slash o (name ++ rest)
  · rw [hjoin, List.append_assoc, List.cons_append]
    exact .refl (by simp)

/-- Slashes that follow one another are made one. -/
theorem respells_foldl (hp : p.octets ≠ []) (hhere : isHere p = false) (names : List Name) :
    Respells ⟨p.octets ++ Path.spread names⟩ (names.foldl entryPath p) := by
  induction names generalizing p with
  | nil =>
      rw [Path.spread, List.flatMap_nil, List.append_nil]
      exact .refl hp
  | cons name names ih =>
      rw [List.foldl_cons, entryPath_eq_join hp hhere]
      exact (respells_join hp name (Path.spread names)).trans
        (ih (join_ne_nil hp name) (isHere_join hp name))

/-- After dots at the front there is an empty name. -/
def DropsOut (names : List Name) : Prop := (names.dropWhile (· = Path.dot)).head? = some []

theorem dropsOut_dot_cons : DropsOut (Path.dot :: names) ↔ DropsOut names := by
  rw [DropsOut, List.dropWhile_cons_of_pos (by simp), DropsOut]

theorem entryPath_here (name : Name) : entryPath ⟨Path.dot⟩ name = ⟨name⟩ := rfl

theorem respells_foldl_of_ne_dot (hdot : name ≠ Path.dot) (h : ¬ DropsOut (name :: names)) :
    Respells ⟨name ++ Path.spread names⟩ ((name :: names).foldl entryPath ⟨Path.dot⟩) := by
  have hne : name ≠ [] := by
    rintro rfl
    exact h rfl
  have hhere : isHere ⟨name⟩ = false := by simpa [isHere] using hdot
  rw [List.foldl_cons, entryPath_here]
  exact respells_foldl hne hhere names

/-- Dots in front are dropped. -/
theorem respells_foldl_here (hnames : Plain (name :: names)) (h : ¬ DropsOut (name :: names)) :
    Respells ⟨name ++ Path.spread names⟩ ((name :: names).foldl entryPath ⟨Path.dot⟩) := by
  induction names generalizing name with
  | nil =>
      by_cases hdot : name = Path.dot
      · subst hdot
        exact .refl (by decide)
      · exact respells_foldl_of_ne_dot hdot h
  | cons next names ih =>
      by_cases hdot : name = Path.dot
      · subst hdot
        have hlater := (List.forall_mem_cons.mp hnames).2
        have hstays : ¬ DropsOut (next :: names) := mt dropsOut_dot_cons.mpr h
        rw [List.foldl_cons, entryPath_here]
        have hnext : next ≠ [] := by
          rintro rfl
          exact hstays rfl
        have hrelative : Path.isAbsolute ⟨next ++ Path.spread names⟩ = false := by
          rw [Path.isAbsolute_append hnext]
          exact Path.isAbsolute_eq_false (List.forall_mem_cons.mp hlater).1
        have hdropped := Respells.of_dot (List.append_ne_nil_of_left_ne_nil hnext _) hrelative
        exact hdropped.trans (ih hlater hstays)
      · exact respells_foldl_of_ne_dot hdot h

theorem foldl_nowhere (names : List Name) : names.foldl entryPath ⟨[]⟩ = ⟨[]⟩ := by
  induction names with
  | nil => rfl
  | cons name names ih => exact ih

theorem foldl_of_dropsOut (h : DropsOut names) : names.foldl entryPath ⟨Path.dot⟩ = ⟨[]⟩ := by
  induction names with
  | nil => cases h
  | cons name names ih =>
      rw [List.foldl_cons, entryPath_here]
      by_cases hdot : name = Path.dot
      · subst hdot
        exact ih (dropsOut_dot_cons.mp h)
      · rw [DropsOut, List.dropWhile_cons_of_neg (by simpa using hdot)] at h
        cases h
        exact foldl_nowhere names

/-- A relative root in which an empty name follows dots, such as a dot with a slash behind it.
The empty root is one too. -/
def Vanishes (root : Path) : Prop :=
  root.isAbsolute = false ∧ DropsOut (Path.split root.octets)

instance (root : Path) : Decidable (Vanishes root) :=
  inferInstanceAs (Decidable (_ ∧ List.head? _ = _))

/-- A root that is read as it is written: a text that does not vanish and is not too long. -/
structure ReadAsWritten (root : Path) : Prop where
  isText : Path.ofText root.text = root
  stays : ¬ Vanishes root
  length_le : root.octets.length ≤ pathLimit

theorem scannedPath_eq_of_text (h : Path.ofText root.text = root) :
    scannedPath root = (rootParts root.octets).2.foldl entryPath (rootParts root.octets).1 := by
  have hoctets : Utf8.encode root.text = root.octets := congrArg Path.octets h
  rw [scannedPath, hoctets]

theorem respells_scannedPath (htext : Path.ofText root.text = root) (hstays : ¬ Vanishes root) :
    Respells root (scannedPath root) := by
  rw [scannedPath_eq_of_text htext]
  obtain ⟨octets⟩ := root
  cases octets with
  | nil => exact absurd ⟨rfl, rfl⟩ hstays
  | cons c rest =>
      by_cases hc : c = Path.slash
      · subst hc
        obtain ⟨name, names, hsplit⟩ := List.exists_cons_of_ne_nil (Path.split_ne_nil rest)
        have hspread := Path.append_spread_of_split hsplit
        have hfirst : entryPath ⟨[Path.slash]⟩ name = ⟨Path.slash :: name⟩ := rfl
        have hhere : isHere ⟨Path.slash :: name⟩ = false := by
          rw [isHere, decide_eq_false_iff_not]
          rintro ⟨⟩
        simp only [rootParts, if_true, hsplit, List.foldl_cons, hfirst]
        rw [← hspread]
        exact respells_foldl (List.cons_ne_nil _ _) hhere names
      · obtain ⟨name, names, hsplit⟩ := List.exists_cons_of_ne_nil (Path.split_ne_nil (c :: rest))
        have hspread := Path.append_spread_of_split hsplit
        have hrelative : Path.isAbsolute ⟨c :: rest⟩ = false := by simpa [Path.isAbsolute] using hc
        have hnames : ¬ DropsOut (name :: names) := fun h => hstays ⟨hrelative, hsplit ▸ h⟩
        simp only [rootParts, if_neg hc, hsplit]
        rw [← hspread]
        exact respells_foldl_here (hsplit ▸ plain_split _) hnames

theorem scannedPath_of_vanishes (htext : Path.ofText root.text = root) (h : Vanishes root)
    (hne : root.octets ≠ []) : scannedPath root = ⟨[]⟩ := by
  rw [scannedPath_eq_of_text htext]
  obtain ⟨octets⟩ := root
  cases octets with
  | nil => exact absurd rfl hne
  | cons c rest =>
      have hc : c ≠ Path.slash := by simpa [Path.isAbsolute] using h.1
      simp only [rootParts, if_neg hc]
      exact foldl_of_dropsOut h.2

/-- A root that is read as it is written leads to the same directory. -/
theorem ReadAsWritten.resolve_eq (h : ReadAsWritten root) (t : FileTree) :
    t.resolve (scannedPath root) = t.resolve root :=
  (respells_scannedPath h.isText h.stays).resolve_eq h.length_le

end Scanned

section Entries

variable {t : FileTree} {root root' device : Path} {name : Name} {l : Location} {s : Steps}

theorem isDeviceName_iff :
    isDeviceName name = true ↔ deviceStem <+: name ∧ ∃ text, name = Utf8.encode text := by
  rw [isDeviceName, Bool.and_eq_true, List.isPrefixOf_iff_prefix, Option.isSome_iff_exists]
  simp only [Utf8.decode?_eq_some_iff]

theorem exists_way_part (hplace : t.resolve (scannedPath root) = .ok (.directory l))
    (hslash : Path.slash ∉ name) (hname : name ≠ []) (part : Part) :
    (part.path (devicePath root name)).octets ≠ [] ∧
      ∃ way, Path.split (part.path (devicePath root name)).octets = way ++ name :: part.names ∧
        t.walk linkLimit (t.startOf (part.path (devicePath root name))) way =
          .ok (.directory l) := by
  obtain ⟨way, hway, -, hparts⟩ := exists_way_parts hplace
  obtain ⟨hsplit, hstart⟩ := hparts name hslash hname part
  refine ⟨?_, way, hsplit, hstart ▸ hway⟩
  intro hnil
  have hmem : name ∈ Path.split (part.path (devicePath root name)).octets := by simp [hsplit]
  rw [hnil] at hmem
  exact hname (List.mem_singleton.mp hmem)

/-- What is looked at of an entry, through the root and in the directory itself. -/
theorem resolve_part_iff (hplace : t.resolve (scannedPath root) = .ok (.directory l))
    (hslash : Path.slash ∉ name) (hname : name ≠ []) (part : Part) (spot : Spot) :
    t.resolve (part.path (devicePath root name)) = .ok spot ↔
      t.Leads l (name :: part.names) spot ∧
        ¬ t.Refuses (part.path (devicePath root name)) := by
  obtain ⟨hne, way, hsplit, hway⟩ := exists_way_part hplace hslash hname part
  exact resolve_eq_ok_iff hne hsplit hway

theorem isDirectory_devicePath_iff
    (hplace : t.resolve (scannedPath root) = .ok (.directory l))
    (hslash : Path.slash ∉ name) (hstem : deviceStem <+: name) :
    t.isDirectory (devicePath root name) = true ↔
      t.Opens l name ∧ ¬ t.Refuses (devicePath root name) := by
  have hname := ne_nil_of_stem hstem
  have hresolve := resolve_part_iff hplace hslash hname .directory
  simp only [isDirectory_iff]
  rcases Nat.lt_or_ge nameLimit name.length with hlong | hshort
  · obtain ⟨hne, way, hsplit, hway⟩ := exists_way_part hplace hslash hname .directory
    have hrefuses : t.Refuses (devicePath root name) :=
      refuses_of_nameLimit_lt hne hsplit hway hlong
    constructor
    · rintro ⟨l', hl'⟩
      exact absurd hrefuses ((hresolve _).mp hl').2
    · rintro ⟨-, hnot⟩
      exact absurd hrefuses hnot
  · rw [← exists_leads_iff_opens (isProper_of_stem hstem hshort)]
    constructor
    · rintro ⟨l', hl'⟩
      obtain ⟨hleads, hnot⟩ := (hresolve _).mp hl'
      exact ⟨⟨l', hleads⟩, hnot⟩
    · rintro ⟨⟨l', hleads⟩, hnot⟩
      exact ⟨l', (hresolve _).mpr ⟨hleads, hnot⟩⟩

theorem mem_devices_iff_opens (ht : t.Separated)
    (hplace : t.resolve (scannedPath root) = .ok (.directory l)) :
    device ∈ devices t root ↔ Listable t root ∧ ∃ name ∈ t.names l,
      devicePath root name = device ∧ deviceStem <+: name ∧
        (∃ text, name = Utf8.encode text) ∧ t.Opens l name ∧ ¬ t.Refuses device := by
  rw [mem_devices_iff]
  constructor
  · rintro ⟨name, hname, rfl, hdirectory⟩
    obtain ⟨⟨l', hl', hentry, hdevice⟩, hlistable⟩ := mem_candidates_iff.mp hname
    rw [hplace] at hl'
    cases hl'
    obtain ⟨hstem, htext⟩ := isDeviceName_iff.mp hdevice
    have hmem := mem_names_iff.mpr hentry
    have hopens :=
      (isDirectory_devicePath_iff hplace (ht.slash_not_mem hmem) hstem).mp hdirectory
    exact ⟨hlistable, name, hmem, rfl, hstem, htext, hopens⟩
  · rintro ⟨hlistable, name, hmem, rfl, hstem, htext, hopens⟩
    have hname : name ∈ candidates t root := mem_candidates_iff.mpr
      ⟨⟨l, hplace, mem_names_iff.mp hmem, isDeviceName_iff.mpr ⟨hstem, htext⟩⟩, hlistable⟩
    exact ⟨name, hname, rfl,
      (isDirectory_devicePath_iff hplace (ht.slash_not_mem hmem) hstem).mpr hopens⟩

/-- Through another root with the same directory the same devices can be used. -/
theorem IsUsable.of_same_place (ht : t.Separated)
    (hplace : t.resolve (scannedPath root) = .ok (.directory l))
    (hplace' : t.resolve (scannedPath root') = .ok (.directory l)) (hlistable' : Listable t root')
    (hrefuses : ∀ part : Part, ∀ name ∈ t.names l,
      t.Refuses (part.path (devicePath root' name)) →
        t.Refuses (part.path (devicePath root name)))
    (h : IsUsable t root name s) : IsUsable t root' name s := by
  obtain ⟨⟨l', hl', hentry, hdevice⟩, -⟩ := mem_candidates_iff.mp h.listed
  rw [hplace] at hl'
  cases hl'
  have hmem := mem_names_iff.mpr hentry
  have hslash := ht.slash_not_mem hmem
  have hname := ne_nil_of_stem (isDeviceName_iff.mp hdevice).1
  refine h.of_resolve (f := id)
    (mem_candidates_iff.mpr ⟨⟨l, hplace', hentry, hdevice⟩, hlistable'⟩) ?_
  intro part spot hspot
  obtain ⟨hleads, hnot⟩ := (resolve_part_iff hplace hslash hname part spot).mp hspot
  rw [Spot.map_id]
  exact (resolve_part_iff hplace' hslash hname part spot).mpr
    ⟨hleads, mt (hrefuses part name hmem) hnot⟩

theorem IsUsable.listable (h : IsUsable t root name s) : Listable t root :=
  (mem_candidates_iff.mp h.listed).2

theorem sample_eq_of_same_place (ht : t.Separated)
    (hplace : t.resolve (scannedPath root) = .ok (.directory l))
    (hplace' : t.resolve (scannedPath root') = .ok (.directory l))
    (hlistable : Listable t root' ↔ Listable t root)
    (hrefuses : ∀ part : Part, ∀ name ∈ t.names l,
      t.Refuses (part.path (devicePath root' name)) ↔
        t.Refuses (part.path (devicePath root name))) :
    sample t root' = sample t root := by
  apply sample_congr
  intro s
  rw [shows_iff, shows_iff]
  constructor
  · rintro ⟨name, hname⟩
    exact ⟨name, hname.of_same_place ht hplace hplace' (hlistable.mpr hname.listable)
      fun part other hother => (hrefuses part other hother).mp⟩
  · rintro ⟨name, hname⟩
    exact ⟨name, hname.of_same_place ht hplace' hplace (hlistable.mp hname.listable)
      fun part other hother => (hrefuses part other hother).mpr⟩

end Entries

/-- A root that is read as it is written is the directory that is read.  If it can be listed, and
with it the directories on the way to it that have to be, then its devices are the entries that are
directories or links to directories and have the name of a device, in text, and their files are
those of the entries.  So roots with the same directory have the same load, as far as nothing is
refused, and without a directory there are no sensors.  Any other root is read as a text with the
same characters, as a shorter path or not at all. -/
theorem devices_are_entries_of_root (t : FileTree) (ht : t.Separated) (root : Path) :
    (ReadAsWritten root →
      (∀ l, t.resolve root = .ok (.directory l) →
        (∀ device, device ∈ devices t root ↔ Listable t root ∧ ∃ name ∈ t.names l,
          devicePath root name = device ∧ deviceStem <+: name ∧
            (∃ text, name = Utf8.encode text) ∧ t.Opens l name ∧ ¬ t.Refuses device) ∧
        (∀ name ∈ t.names l, deviceStem <+: name → ∀ (part : Part) (spot : Spot),
          t.resolve (part.path (devicePath root name)) = .ok spot ↔
            t.Leads l (name :: part.names) spot ∧
              ¬ t.Refuses (part.path (devicePath root name))) ∧
        ∀ root', ReadAsWritten root' → t.resolve root' = .ok (.directory l) →
          (Listable t root' ↔ Listable t root) →
          (∀ part : Part, ∀ name ∈ t.names l,
            t.Refuses (part.path (devicePath root' name)) ↔
              t.Refuses (part.path (devicePath root name))) →
          sample t root' = sample t root) ∧
      ((∀ l, t.resolve root ≠ .ok (.directory l)) →
        sample t root = .error (.noSensors sourceName))) ∧
    (devices t root = devices t (.ofText root.text) ∧
      sample t root = sample t (.ofText root.text)) ∧
    (Path.ofText root.text = root → ¬ Vanishes root → Respells root (scannedPath root)) ∧
    (Path.ofText root.text = root → Vanishes root → root.octets ≠ [] →
      devices t root = [] ∧ sample t root = .error (.noSensors sourceName)) ∧
    devices t ⟨[]⟩ = devices t ⟨[Path.slash]⟩ := by
  refine ⟨?_, ?_, respells_scannedPath, ?_, ?_⟩
  · intro hroot
    have hresolve := hroot.resolve_eq t
    refine ⟨?_, ?_⟩
    · intro l hplace
      rw [← hresolve] at hplace
      refine ⟨fun device => mem_devices_iff_opens ht hplace, ?_, ?_⟩
      · intro name hname hstem part spot
        exact resolve_part_iff hplace (ht.slash_not_mem hname) (ne_nil_of_stem hstem) part spot
      · intro root' hroot' hplace' hlistable hrefuses
        rw [← hroot'.resolve_eq t] at hplace'
        exact sample_eq_of_same_place ht hplace hplace' hlistable hrefuses
    · intro hnone
      rw [← hresolve] at hnone
      exact sample_of_devices_nil (devices_of_no_directory hnone)
  · have hparts : rootParts (Utf8.encode (Path.ofText root.text).text) =
        rootParts (Utf8.encode root.text) := by
      simp only [Path.text, Path.ofText, Utf8.decodeLossy_encode]
    have hscanned : scannedPath (.ofText root.text) = scannedPath root := by
      simp only [scannedPath, hparts]
    have hscan : scan t (.ofText root.text) = scan t root := by simp only [scan, hparts]
    simp only [sample, loads, devices, candidates, hscan, hscanned, and_self]
  · intro htext hvanishes hne
    have hnone : devices t root = [] := by
      apply devices_of_no_directory
      rw [scannedPath_of_vanishes htext hvanishes hne]
      rintro l ⟨⟩
    exact ⟨hnone, sample_of_devices_nil hnone⟩
  · have hparts : rootParts (Utf8.encode (Path.text ⟨[]⟩)) = (⟨[Path.slash]⟩, []) := by
      decide +kernel
    have hparts' : rootParts (Utf8.encode (Path.text ⟨[Path.slash]⟩)) =
        (⟨[Path.slash]⟩, [[]]) := by decide +kernel
    have hscanned : scannedPath ⟨[]⟩ = scannedPath ⟨[Path.slash]⟩ := by decide +kernel
    have hscan : scan t ⟨[]⟩ = scan t ⟨[Path.slash]⟩ := by
      simp only [scan, hparts, hparts']
      rfl
    simp only [devices, candidates, hscan, hscanned]

section Misread

/-- A fan, and a pump that is a link to it. -/
def pair : FileTree := .ofEdits
  [.device (.ofText "root/cooling_device0") (some (Utf8.encode "1")) (some (Utf8.encode "4")),
    .link (.ofText "root/cooling_device1") (.ofText "cooling_device0")]

/-- A slash at the end and a dot in front. -/
theorem devices_are_entries_of_root_pair :
    devicePath (.ofText "root//") (Utf8.encode "cooling_device1") ∈
        devices pair (.ofText "root//") ∧
      sample pair (.ofText "./root") = sample pair (.ofText "root//") := by
  have hplain : pair.Separated := separated_ofEdits _
  have hslashes : ReadAsWritten (.ofText "root//") :=
    ⟨by decide +kernel, by decide +kernel, by decide +kernel⟩
  have hdotted : ReadAsWritten (.ofText "./root") :=
    ⟨by decide +kernel, by decide +kernel, by decide +kernel⟩
  have hlistable : Listable pair (.ofText "root//") := by decide +kernel
  have hlistable' : Listable pair (.ofText "./root") := by decide +kernel
  obtain ⟨hdevices, -, hsame⟩ := ((devices_are_entries_of_root pair hplain (.ofText "root//")).1
    hslashes).1 (Utf8.encode "root" :: home) rfl
  refine ⟨?_, ?_⟩
  · have hopens : pair.Opens (Utf8.encode "root" :: home) (Utf8.encode "cooling_device1") :=
      .inr ⟨.ofText "cooling_device0", Utf8.encode "cooling_device0" :: Utf8.encode "root" :: home,
        by decide +kernel, 0, rfl⟩
    exact (hdevices _).mpr ⟨hlistable, Utf8.encode "cooling_device1", by decide +kernel, rfl,
      by decide +kernel, ⟨_, rfl⟩, hopens, by decide +kernel⟩
  · apply hsame _ hdotted rfl (iff_of_true hlistable' hlistable)
    intro part
    cases part <;> decide +kernel

/-- A device of which a quarter of the steps is taken. -/
def single (device : Path) : FileTree := .ofEdits
  [.device device (some (Utf8.encode "1")) (some (Utf8.encode "4"))]

/-- The directory in which a kernel lists its devices is looked up from the directory above all. -/
example :
    let device := defaultRoot.join (Utf8.encode "cooling_device0")
    found (single device) defaultRoot = [device] := by decide +kernel

/-- The fan is a link to a directory elsewhere, and there is a link that leads nowhere else. -/
def looped : FileTree := .ofEdits
  [.device (.ofText "devices/fan") (some (Utf8.encode "1")) (some (Utf8.encode "4")),
    .link (.ofText "cooling_device0") (.ofText "devices/fan"), .link (.ofText "a") ⟨Path.dot⟩]

/-- The link that leads nowhere else, as often as any walk follows links. -/
def windings : Path := ⟨(List.replicate 39 [0x61, Path.slash]).flatten ++ [0x61]⟩

/-- No device is found in a directory that is written as a dot and a slash, none under a name
that is not text, and some in a directory that is not there.  Besides, a root with so many links
that the paths of devices are refused cannot stand for another one. -/
theorem roots_misread :
    (¬ ∀ (t : FileTree) (root : Path) (l : Location), t.Separated →
      t.resolve root = .ok (.directory l) →
      (∃ name ∈ t.names l, deviceStem <+: name ∧ t.Opens l name) →
      devices t root ≠ []) ∧
    (¬ ∀ (t : FileTree) (root root' : Path) (l : Location), t.Separated →
      t.resolve root = .ok (.directory l) → t.resolve root' = .ok (.directory l) →
      sample t root' = sample t root) ∧
    (¬ ∀ (t : FileTree) (root : Path), t.Separated →
      (∀ l, t.resolve root ≠ .ok (.directory l)) →
      sample t root = .error (.noSensors sourceName)) ∧
    (¬ ∀ (t : FileTree) (root : Path) (l : Location), t.Separated → ReadAsWritten root →
      t.resolve root = .ok (.directory l) →
      (∃ name ∈ t.names l, deviceStem <+: name ∧ t.Opens l name) →
      devices t root ≠ []) ∧
    ¬ ∀ (t : FileTree) (root root' : Path) (l : Location), t.Separated → ReadAsWritten root →
      ReadAsWritten root' → t.resolve root = .ok (.directory l) →
      t.resolve root' = .ok (.directory l) → sample t root' = sample t root := by
  have hplain : ∀ device : Path, (single device).Separated := fun _ => separated_ofEdits _
  have hnone : ∀ (t : FileTree) (root : Path), found t root = [] → devices t root = [] := by
    intro t root h
    exact List.nil_perm.mp (h ▸ found_perm t root)
  have hdot : ReadAsWritten ⟨Path.dot⟩ :=
    ⟨by decide +kernel, by decide +kernel, by decide +kernel⟩
  refine ⟨?_, ?_, ?_, ?_, ?_⟩
  · intro h
    have hname : Utf8.encode "cooling_device0" ∈
        (single (.ofText "cooling_device0")).names home := by decide +kernel
    exact h (single (.ofText "cooling_device0")) (.ofText "./") home (hplain _) rfl
      ⟨_, hname, by decide +kernel, .inl ⟨none, by decide +kernel⟩⟩ (hnone _ _ (by decide +kernel))
  · intro h
    have hsame := h (single (.ofText "cooling_device0")) (.ofText "./") ⟨Path.dot⟩ home
      (hplain _) rfl rfl
    exact sample_ne_of_found (by decide +kernel) hsame
  · intro h
    have hmissing : (single (.ofText "\uFFFD/cooling_device0")).resolve ⟨[0xFF]⟩ =
        .error .noSuchFile := by rfl
    have hload : sample (single (.ofText "\uFFFD/cooling_device0")) ⟨[0xFF]⟩ = .ok (.atMost 25) :=
      sample_eq_of_found (by decide +kernel)
    have hfault := h (single (.ofText "\uFFFD/cooling_device0")) ⟨[0xFF]⟩ (hplain _)
      (by rw [hmissing]; rintro l ⟨⟩)
    rw [hload] at hfault
    cases hfault
  · intro h
    have hname : deviceStem ++ [0xFF] ∈
        (single ⟨deviceStem ++ [0xFF]⟩).names home := by decide +kernel
    exact h (single ⟨deviceStem ++ [0xFF]⟩) ⟨Path.dot⟩ home (hplain _) hdot rfl
      ⟨_, hname, by decide +kernel, .inl ⟨none, by decide +kernel⟩⟩ (hnone _ _ (by decide +kernel))
  · intro h
    have hwindings : ReadAsWritten windings :=
      ⟨by decide +kernel, by decide +kernel, by decide +kernel⟩
    have hsame := h looped windings ⟨Path.dot⟩ home (separated_ofEdits _) hwindings hdot
      rfl rfl
    exact sample_ne_of_found (by decide +kernel) hsame

end Misread

end Cooling

end ThermalGauge
