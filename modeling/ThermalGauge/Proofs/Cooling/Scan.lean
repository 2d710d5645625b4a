import ThermalGauge.Cooling
import ThermalGauge.Proofs.FileTree.Separated
import ThermalGauge.Proofs.FileTree.Spellings

/-!
# How a root is scanned

A scan takes the parts of a root one after the other, and lists a directory for each part with
wildcards before it lists the last one.  It comes to the directory to which the root leads if all
of these can be listed, and else it stops at the first that cannot, if it comes as far.
-/

namespace ThermalGauge

namespace Path

theorem split_eq_singleton {name : Name} (h : slash ∉ name) : split name = [name] := by
  induction name with
  | nil => rfl
  | cons c rest ih =>
      have hc : c ≠ slash := (List.ne_of_not_mem_cons h).symm
      simp only [split, if_neg hc, ih (List.not_mem_of_not_mem_cons h)]

theorem getLast?_ne_slash {name : Name} (hslash : slash ∉ name) (hne : name ≠ []) :
    ∃ c, name.getLast? = some c ∧ c ≠ slash := by
  refine ⟨name.getLast hne, List.getLast?_eq_some_getLast hne, ?_⟩
  intro h
  exact hslash (h ▸ List.getLast_mem hne)

theorem isAbsolute_eq_false {o : Octets} (h : slash ∉ o) : isAbsolute ⟨o⟩ = false := by
  cases o with
  | nil => rfl
  | cons c rest => simpa [isAbsolute] using (List.ne_of_not_mem_cons h).symm

theorem isAbsolute_append {o : Octets} (ho : o ≠ []) (rest : Octets) :
    isAbsolute ⟨o ++ rest⟩ = isAbsolute ⟨o⟩ := by
  cases o with
  | nil => exact absurd rfl ho
  | cons c o => rfl

theorem isAbsolute_join {p : Path} (hp : p.octets ≠ []) (name : Name) :
    (p.join name).isAbsolute = p.isAbsolute := by
  unfold join
  split
  · rename_i hlast
    exact absurd (List.getLast?_eq_none_iff.mp hlast) hp
  · split <;> exact isAbsolute_append hp _

/-- The path of an entry leads to the directory, by the names before a slash at its end if there
is one, and on by the name. -/
theorem exists_split_join {p : Path} (hp : p.octets ≠ []) :
    ∃ way, (split p.octets = way ∨ split p.octets = way ++ [[]]) ∧
      ∀ name, slash ∉ name → split (p.join name).octets = way ++ [name] := by
  obtain ⟨c, hlast⟩ : ∃ c, p.octets.getLast? = some c :=
    ⟨p.octets.getLast hp, List.getLast?_eq_some_getLast hp⟩
  by_cases hc : c = slash
  · obtain ⟨o, ho⟩ := List.getLast?_eq_some_iff.mp hlast
    refine ⟨split o, .inr ?_, ?_⟩
    · rw [ho, hc, split_append_slash]
      rfl
    · intro name hname
      simp only [join, hlast, if_pos hc]
      rw [ho, hc, List.append_assoc, List.singleton_append, split_append_slash,
        split_eq_singleton hname]
  · refine ⟨split p.octets, .inl rfl, ?_⟩
    intro name hname
    rw [split_join hlast hc, split_eq_singleton hname]

theorem getLast?_join {p : Path} {name : Name} (hname : name ≠ []) :
    (p.join name).octets.getLast? = name.getLast? := by
  obtain ⟨c, hc⟩ : ∃ c, name.getLast? = some c :=
    ⟨name.getLast hname, List.getLast?_eq_some_getLast hname⟩
  unfold join
  split
  · rfl
  · split <;> simp [hc, List.getLast?_cons]

end Path

namespace Cooling

open FileTree

variable {t : FileTree} {p q root : Path} {name : Name} {names way : List Name} {l : Location}
  {isKnown : Bool} {why : SystemError}

section Entries

/-- The names `way` lead to the directory `p`, and with one more behind them to its entries. -/
structure IsWay (p : Path) (way : List Name) : Prop where
  split_eq : Path.split p.octets = way ∨
    ∃ name, (name = [] ∨ name = Path.dot) ∧ Path.split p.octets = way ++ [name]
  split_entry : ∀ {name}, Path.slash ∉ name → Path.split (entryPath p name).octets = way ++ [name]
  startOf_entry : ∀ {name}, Path.slash ∉ name → ∀ t : FileTree,
    t.startOf (entryPath p name) = t.startOf p

theorem isWay_here : IsWay ⟨Path.dot⟩ [] where
  split_eq := .inr ⟨Path.dot, .inr rfl, rfl⟩
  split_entry := Path.split_eq_singleton
  startOf_entry := by
    intro name hname t
    have hrelative : Path.isAbsolute ⟨name⟩ = false := Path.isAbsolute_eq_false hname
    have hentry : entryPath ⟨Path.dot⟩ name = ⟨name⟩ := rfl
    rw [hentry, startOf, startFrom, hrelative]
    rfl

theorem eq_here (h : isHere p = true) : p = ⟨Path.dot⟩ := by
  cases p
  simpa [isHere] using h

theorem entryPath_eq_join (hp : p.octets ≠ []) (hhere : isHere p = false) (name : Name) :
    entryPath p name = p.join name := by
  simp [entryPath, hhere, hp]

theorem exists_isWay (hp : p.octets ≠ []) : ∃ way, IsWay p way := by
  cases hhere : isHere p with
  | true =>
      rw [eq_here hhere]
      exact ⟨[], isWay_here⟩
  | false =>
      obtain ⟨way, hway, hjoin⟩ := Path.exists_split_join hp
      refine ⟨way, ?_, ?_, ?_⟩
      · exact hway.imp_right fun heq => ⟨[], .inl rfl, heq⟩
      · intro name hname
        rw [entryPath_eq_join hp hhere]
        exact hjoin name hname
      · intro name hname t
        rw [entryPath_eq_join hp hhere, startOf, startFrom, Path.isAbsolute_join hp]
        rfl

theorem IsWay.walk_iff (h : IsWay p way) {links : Nat} {l' : Location} :
    t.walk links l' (Path.split p.octets) = .ok (.directory l) ↔
      t.walk links l' way = .ok (.directory l) := by
  rcases h.split_eq with heq | ⟨name, hskip, heq⟩
  · rw [heq]
  · rw [heq, walk_concat_skip_iff hskip]

theorem IsWay.lookups_subset (h : IsWay p way)
    (hway : t.walk linkLimit (t.startOf p) way = .ok (.directory l)) {k : Location}
    (hk : k ∈ t.walkLookups linkLimit (t.startOf p) way) : k ∈ t.lookups p := by
  rcases h.split_eq with heq | ⟨name, -, heq⟩
  · rw [lookups, heq]
    exact hk
  · obtain ⟨left, hleft⟩ := walk_append hway
    rw [lookups, heq, (hleft [name]).2]
    exact List.mem_append_left _ hk

theorem ne_nil_of_resolve {spot : Spot} (h : t.resolve p = .ok spot) : p.octets ≠ [] := by
  intro hp
  rw [resolve, if_pos hp] at h
  cases h

theorem walk_of_resolve {spot : Spot} (h : t.resolve p = .ok spot) :
    t.walk linkLimit (t.startOf p) (Path.split p.octets) = .ok spot := by
  rw [resolve_eq (ne_nil_of_resolve h)] at h
  split at h
  · cases h
  · exact h

theorem length_le_of_resolve {spot : Spot} (h : t.resolve p = .ok spot) :
    p.octets.length ≤ pathLimit := by
  rw [resolve_eq (ne_nil_of_resolve h)] at h
  split at h
  · cases h
  · exact Nat.le_of_not_lt (by assumption)

theorem length_le_join (p : Path) (name : Name) :
    p.octets.length ≤ (p.join name).octets.length := by
  unfold Path.join
  split
  · simp_all
  · split <;> simp

/-- An entry that is a directory is in one. -/
theorem isDirectory_of_entryPath (hname : Path.slash ∉ name)
    (h : t.isDirectory (entryPath p name) = true) : t.isDirectory p = true := by
  obtain ⟨l, hl⟩ := isDirectory_iff.mp h
  cases hhere : isHere p with
  | true =>
      rw [eq_here hhere]
      rfl
  | false =>
      have hp : p.octets ≠ [] := by
        intro hnil
        have hsame : entryPath p name = p := by simp [entryPath, hhere, hnil]
        exact ne_nil_of_resolve (hsame ▸ hl) hnil
      obtain ⟨way, hway⟩ := exists_isWay hp
      have hwalk := walk_of_resolve hl
      rw [hway.split_entry hname, hway.startOf_entry hname] at hwalk
      obtain ⟨via, hvia⟩ := exists_walk_of_append hwalk
      have hlength := Nat.le_trans (length_le_join p name)
        (entryPath_eq_join hp hhere name ▸ length_le_of_resolve hl)
      rw [isDirectory_iff]
      refine ⟨via, ?_⟩
      rw [resolve_eq hp, if_neg (Nat.not_lt.mpr hlength)]
      exact hway.walk_iff.mpr hvia

theorem isDirectory_of_foldl (hnames : Plain names)
    (h : t.isDirectory (names.foldl entryPath p) = true) : t.isDirectory p = true := by
  induction names generalizing p with
  | nil => exact h
  | cons name names ih =>
      obtain ⟨hname, hnames⟩ := List.forall_mem_cons.mp hnames
      exact isDirectory_of_entryPath hname (ih hnames h)

theorem isProper_of_hasWildcard (h : hasWildcard name = true) (hname : name.length ≤ nameLimit) :
    IsProper name := by
  refine ⟨?_, ?_, hname⟩
  · rintro (rfl | rfl) <;> revert h <;> decide
  · rintro rfl
    revert h
    decide

/-- What leads to a directory by a name that is looked up is one itself, or a link. -/
theorem entry_of_isDirectory (hname : Path.slash ∉ name) (hwild : hasWildcard name = true)
    (hl : t.resolve p = .ok (.directory l)) (h : t.isDirectory (entryPath p name) = true) :
    (∃ refusal, t.entryAt? (name :: l) = some (.directory refusal)) ∨
      ∃ target, t.entryAt? (name :: l) = some (.link target) := by
  obtain ⟨way, hway⟩ := exists_isWay (ne_nil_of_resolve hl)
  obtain ⟨l', hl'⟩ := isDirectory_iff.mp h
  have hwalk := walk_of_resolve hl'
  obtain ⟨left, hleft⟩ := walk_append (hway.walk_iff.mp (walk_of_resolve hl))
  rw [hway.split_entry hname, hway.startOf_entry hname, (hleft [name]).1] at hwalk
  rcases Nat.lt_or_ge nameLimit name.length with hlong | hshort
  · rw [walk_of_failed (stride_tooLong hlong).1] at hwalk
    cases hwalk
  · rw [walk_cons (isProper_of_hasWildcard hwild hshort)] at hwalk
    cases he : t.entryAt? (name :: l) with
    | none => simp [he] at hwalk
    | some e =>
        cases e with
        | directory refusal => exact .inl ⟨refusal, rfl⟩
        | file content => simp [he] at hwalk
        | link target => exact .inr ⟨target, rfl⟩

end Entries

section Listings

/-- The paths of the directories that are listed for parts with wildcards. -/
def listedFrom : Path → List Name → List Path
  | _, [] => []
  | p, name :: names =>
    if hasWildcard name then p :: listedFrom (entryPath p name) names
    else listedFrom (entryPath p name) names

theorem listing_of_open (h : t.openDirectory p = .ok l) : listing t isKnown p = .ok l := by
  simp only [listing, h]

theorem listing_of_refused (h : t.openDirectory p = .error why) :
    listing t isKnown p =
      .error (if isKnown || t.isDirectory p then .refused p why else .absent) := by
  simp only [listing, h]

theorem listing_eq_ok_iff : listing t isKnown p = .ok l ↔ t.openDirectory p = .ok l := by
  cases h : t.openDirectory p with
  | ok l' => rw [listing_of_open h]; simp
  | error why => rw [listing_of_refused h]; simp

theorem isDirectory_of_openDirectory (h : t.openDirectory p = .ok l) : t.isDirectory p = true :=
  isDirectory_iff.mpr ⟨l, (openDirectory_eq_ok_iff.mp h).1⟩

theorem scanFrom_tried (hwild : hasWildcard name = false) :
    scanFrom t isKnown p (name :: names) = scanFrom t false (entryPath p name) names := by
  rw [scanFrom, if_neg (by simp [hwild])]

theorem scanFrom_refused (hwild : hasWildcard name = true) (h : t.openDirectory p = .error why) :
    scanFrom t isKnown p (name :: names) = listing t isKnown p := by
  simp only [scanFrom, if_pos hwild, listing_of_refused h]

theorem scanFrom_listed (hwild : hasWildcard name = true) (h : t.openDirectory p = .ok l) :
    scanFrom t isKnown p (name :: names) = match t.entryAt? (name :: l) with
      | some (.directory _) => scanFrom t true (entryPath p name) names
      | some (.link _) => scanFrom t false (entryPath p name) names
      | _ => .error .absent := by
  cases he : t.entryAt? (name :: l) with
  | none => simp only [scanFrom, if_pos hwild, listing_of_open h, he]
  | some e => cases e <;> simp only [scanFrom, if_pos hwild, listing_of_open h, he]

/-- A scan comes to a directory if everything that it lists can be listed. -/
theorem scanFrom_eq_ok_iff (hnames : Plain names) :
    scanFrom t isKnown p names = .ok l ↔
      (∀ q ∈ listedFrom p names, ∃ k, t.openDirectory q = .ok k) ∧
        t.openDirectory (names.foldl entryPath p) = .ok l := by
  induction names generalizing p isKnown with
  | nil => simp [scanFrom, listedFrom, listing_eq_ok_iff]
  | cons name names ih =>
      obtain ⟨hname, hnames⟩ := List.forall_mem_cons.mp hnames
      rw [listedFrom, List.foldl_cons]
      cases hwild : hasWildcard name with
      | false =>
          rw [scanFrom_tried hwild, if_neg Bool.false_ne_true]
          exact ih hnames
      | true =>
          rw [if_pos rfl, List.forall_mem_cons]
          cases hopen : t.openDirectory p with
          | error why =>
              rw [scanFrom_refused hwild hopen, listing_of_refused hopen]
              simp
          | ok k =>
              rw [scanFrom_listed hwild hopen]
              constructor
              · intro h
                split at h
                · obtain ⟨hlisted, hopened⟩ := (ih hnames).mp h
                  exact ⟨⟨⟨k, rfl⟩, hlisted⟩, hopened⟩
                · obtain ⟨hlisted, hopened⟩ := (ih hnames).mp h
                  exact ⟨⟨⟨k, rfl⟩, hlisted⟩, hopened⟩
                · cases h
              · rintro ⟨⟨-, hlisted⟩, hopened⟩
                have hnext := isDirectory_of_foldl hnames (isDirectory_of_openDirectory hopened)
                rcases entry_of_isDirectory hname hwild (openDirectory_eq_ok_iff.mp hopen).1 hnext
                  with ⟨refusal, he⟩ | ⟨target, he⟩ <;> rw [he]
                · exact (ih hnames).mpr ⟨hlisted, hopened⟩
                · exact (ih hnames).mpr ⟨hlisted, hopened⟩

/-- If a scan of `way` comes to its end, there is a directory to be listed: it is one, or has an
entry as one in the last directory that was listed. -/
def Reaches (t : FileTree) (isKnown : Bool) (p : Path) (way : List Name) : Prop :=
  t.isDirectory (way.foldl entryPath p) = true ∨ (way = [] ∧ isKnown = true) ∨
    ∃ up name l refusal, way = up ++ [name] ∧ hasWildcard name = true ∧
      t.openDirectory (up.foldl entryPath p) = .ok l ∧
        t.entryAt? (name :: l) = some (.directory refusal)

theorem Reaches.cons (name : Name) (h : Reaches t false (entryPath p name) way) :
    Reaches t isKnown p (name :: way) := by
  rcases h with hdirectory | ⟨-, hknown⟩ | ⟨up, name', l, refusal, rfl, hentry⟩
  · exact .inl hdirectory
  · cases hknown
  · exact .inr (.inr ⟨name :: up, name', l, refusal, rfl, hentry⟩)

end Listings

section Roots

/-- Where the parts of a root lead from. -/
def start (root : Path) : Path := (rootParts (Utf8.encode root.text)).1

def parts (root : Path) : List Name := (rootParts (Utf8.encode root.text)).2

theorem plain_parts (root : Path) : Plain (parts root) := by
  unfold parts rootParts
  split
  · exact List.forall_mem_nil _
  · split <;> exact plain_split _

theorem scannedPath_eq (root : Path) :
    scannedPath root = (parts root).foldl entryPath (start root) := rfl

theorem scan_eq (t : FileTree) (root : Path) :
    scan t root = scanFrom t false (start root) (parts root) := rfl

/-- The paths of all directories that are listed on the way to the devices of a root. -/
def listedPaths (root : Path) : List Path :=
  listedFrom (start root) (parts root) ++ [scannedPath root]

/-- Every directory on the way to the devices of a root can be listed, if it has to. -/
def Listable (t : FileTree) (root : Path) : Prop :=
  ∀ p ∈ listedPaths root, ∃ l, t.openDirectory p = .ok l

instance (t : FileTree) (root : Path) : Decidable (Listable t root) :=
  decidable_of_iff (∀ p ∈ listedPaths root, (t.openDirectory p).toOption.isSome = true) <| by
    simp only [Listable]
    refine forall₂_congr fun p _ => ?_
    cases t.openDirectory p <;> simp [Except.toOption]

theorem scan_eq_ok_iff :
    scan t root = .ok l ↔ t.resolve (scannedPath root) = .ok (.directory l) ∧ Listable t root := by
  rw [scan_eq, scanFrom_eq_ok_iff (plain_parts root), ← scannedPath_eq, Listable, listedPaths,
    List.forall_mem_append, List.forall_mem_singleton]
  constructor
  · rintro ⟨hlisted, hopen⟩
    exact ⟨(openDirectory_eq_ok_iff.mp hopen).1, hlisted, l, hopen⟩
  · rintro ⟨hl, hlisted, l', hopen⟩
    cases hl.symm.trans (openDirectory_eq_ok_iff.mp hopen).1
    exact ⟨hlisted, hopen⟩

end Roots

end Cooling

end ThermalGauge
