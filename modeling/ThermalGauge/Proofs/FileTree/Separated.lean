import ThermalGauge.Proofs.FileTree.Lookups

/-!
# Names without slashes

A slash separates names and is part of none.  Walks only come to places whose names have no
slash, so edits put no others into a tree.
-/

namespace ThermalGauge

namespace FileTree

def Plain (names : List Name) : Prop := ∀ name ∈ names, Path.slash ∉ name

/-- No name in the tree has a slash. -/
structure Separated (t : FileTree) : Prop where
  entries : ∀ e ∈ t.entries, Plain e.1
  workingDirectory : Plain t.workingDirectory

theorem Separated.slash_not_mem {t : FileTree} (h : t.Separated) {l : Location} {name : Name}
    (hname : name ∈ t.names l) : Path.slash ∉ name := by
  simp only [names, List.mem_filterMap] at hname
  obtain ⟨⟨k, e⟩, hmem, hname⟩ := hname
  cases k with
  | nil => cases hname
  | cons other up =>
      by_cases hup : up = l
      · simp only [if_pos hup, Option.some.injEq] at hname
        exact hname ▸ (List.forall_mem_cons.mp (h.entries _ hmem)).1
      · simp [hup] at hname

theorem plain_split (o : Octets) : Plain (Path.split o) := by
  induction o with
  | nil => simp [Plain, Path.split]
  | cons c rest ih =>
      simp only [Path.split]
      split
      · exact List.forall_mem_cons.mpr ⟨List.not_mem_nil, ih⟩
      · rename_i hc
        split
        · simpa [Plain] using Ne.symm hc
        · rename_i part parts heq
          obtain ⟨hpart, hparts⟩ := List.forall_mem_cons.mp (heq ▸ ih)
          refine List.forall_mem_cons.mpr ⟨?_, hparts⟩
          exact List.not_mem_cons_of_ne_of_not_mem (Ne.symm hc) hpart

section Walks

variable {t : FileTree} {l l' : Location} {name : Name} {names : List Name}

theorem plain_startFrom (h : Plain l) (p : Path) : Plain (startFrom l p) := by
  unfold startFrom
  split
  · exact List.forall_mem_nil _
  · exact h

theorem Separated.plain_startOf (h : t.Separated) (p : Path) : Plain (t.startOf p) :=
  plain_startFrom h.workingDirectory p

/-- A stride goes through places of the names that it is given, to a directory or to a link. -/
theorem plain_of_stride (hl : Plain l) (hnames : Plain names) :
    (t.stride l names = .arrived (.directory l') → Plain l') ∧
      ∀ target rest, t.stride l names = .link l' target rest → Plain l' ∧ Plain rest := by
  induction names generalizing l with
  | nil =>
      refine ⟨?_, ?_⟩
      · rintro ⟨⟩
        exact hl
      · rintro target rest ⟨⟩
  | cons name names ih =>
      obtain ⟨hname, hnames⟩ := List.forall_mem_cons.mp hnames
      rcases name_cases name with hskip | hup | hlong | hproper
      · rw [(stride_skip hskip).1]
        exact ih hl hnames
      · rw [(stride_up hup).1]
        exact ih (fun n hn => hl n (List.mem_of_mem_tail hn)) hnames
      · simp [(stride_tooLong hlong).1]
      · rw [stride_of_isProper hproper]
        cases t.entryAt? (name :: l) with
        | none => simp
        | some e =>
            cases e with
            | directory => exact ih (List.forall_mem_cons.mpr ⟨hname, hl⟩) hnames
            | file content => by_cases h : names = [] <;> simp [h]
            | link target =>
                refine ⟨by simp, ?_⟩
                rintro _ _ ⟨⟩
                exact ⟨hl, hnames⟩

theorem plain_of_walk {links : Nat} (hl : Plain l) (hnames : Plain names)
    (h : t.walk links l names = .ok (.directory l')) : Plain l' := by
  induction links generalizing l names with
  | zero =>
      rcases walk_cases h with harrived | ⟨_, _, _, _, -, hlinks, -⟩
      · exact (plain_of_stride hl hnames).1 harrived
      · cases hlinks
  | succ links ih =>
      rcases walk_cases h with harrived | ⟨via, target, rest, links', hlink, hlinks, hrest⟩
      · exact (plain_of_stride hl hnames).1 harrived
      · cases hlinks
        obtain ⟨hvia, hleft⟩ := (plain_of_stride hl hnames).2 target rest hlink
        exact ih (plain_startFrom hvia target)
          (List.forall_mem_append.mpr ⟨plain_split _, hleft⟩) hrest

end Walks

section Edits

variable {t : FileTree} {l : Location} {name : Name} {names : List Name}

theorem Separated.removeAt (h : t.Separated) (l : Location) : (t.removeAt l).Separated :=
  ⟨fun e he => h.entries e (List.mem_filter.mp he).1, h.workingDirectory⟩

theorem Separated.putAt (h : t.Separated) (hl : Plain l) (hname : Path.slash ∉ name) (e : Entry) :
    (t.putAt (name :: l) e).Separated := by
  have hnew : Plain (name :: l) := List.forall_mem_cons.mpr ⟨hname, hl⟩
  refine ⟨List.forall_mem_append.mpr ⟨(h.removeAt _).entries, ?_⟩, h.workingDirectory⟩
  exact List.forall_mem_singleton.mpr hnew

theorem Separated.ensureDirectory (h : t.Separated) (hl : Plain l) (hnames : Plain names) :
    (t.ensureDirectory l names).1.Separated ∧ Plain (t.ensureDirectory l names).2 := by
  induction names generalizing t l with
  | nil => exact ⟨h, hl⟩
  | cons name rest ih =>
      obtain ⟨hname, hrest⟩ := List.forall_mem_cons.mp hnames
      rw [FileTree.ensureDirectory]
      split
      · rename_i found hfound
        have hone : Plain [name] := List.forall_mem_singleton.mpr hname
        exact ih h (plain_of_walk hl hone hfound) hrest
      · exact ih (h.putAt hl hname _) (List.forall_mem_cons.mpr ⟨hname, hl⟩) hrest

theorem plain_wayTo (p : Path) : Plain (wayTo p).1 ∧ Path.slash ∉ (wayTo p).2 := by
  have hnames : Plain ((Path.split p.octets).filter (· ≠ [])) :=
    fun name hname => plain_split p.octets name (List.mem_filter.mp hname).1
  refine ⟨fun name hname => hnames name (List.dropLast_subset _ hname), ?_⟩
  simp only [wayTo]
  cases hlast : ((Path.split p.octets).filter (· ≠ [])).getLast? with
  | none => exact List.not_mem_nil
  | some name => exact hnames name (List.mem_of_getLast? hlast)

theorem Separated.write (h : t.Separated) (p : Path) (e : Entry) : (t.write p e).Separated := by
  obtain ⟨hway, hname⟩ := plain_wayTo p
  obtain ⟨hmade, hl⟩ := h.ensureDirectory (h.plain_startOf p) hway
  exact hmade.putAt hl hname e

theorem Separated.remove (h : t.Separated) (p : Path) : (t.remove p).Separated := by
  unfold FileTree.remove
  split
  · exact h.removeAt _
  · exact h

theorem plain_moved {source target : Location} (hl : Plain l) (htarget : Plain target) :
    Plain (moved source target l) := by
  unfold moved
  split
  · have htaken : Plain (l.take (l.length - source.length)) :=
      fun name hname => hl name (List.mem_of_mem_take hname)
    exact List.forall_mem_append.mpr ⟨htaken, htarget⟩
  · exact hl

theorem Separated.relocate (h : t.Separated) {source target : Location} (htarget : Plain target) :
    (t.relocate (moved source target)).Separated := by
  refine ⟨?_, plain_moved h.workingDirectory htarget⟩
  intro e' he'
  obtain ⟨e, he, rfl⟩ := List.mem_map.mp he'
  exact plain_moved (h.entries e he) htarget

theorem Separated.rename (h : t.Separated) (source target : Path) :
    (t.rename source target).Separated := by
  obtain ⟨hway, hname⟩ := plain_wayTo target
  obtain ⟨hmade, hl⟩ := h.ensureDirectory (h.plain_startOf target) hway
  simp only [FileTree.rename]
  split
  · exact h
  · split
    · exact hmade
    · exact (hmade.removeAt _).relocate (List.forall_mem_cons.mpr ⟨hname, hl⟩)

theorem Separated.putFile (h : t.Separated) (hl : Plain l) (hname : Path.slash ∉ name)
    (content : Option Octets) : (t.putFile l name content).Separated := by
  cases content with
  | none => exact h
  | some content => exact h.putAt hl hname _

theorem Separated.apply (h : t.Separated) (edit : Edit) : (t.apply edit).Separated := by
  cases edit with
  | device path current max =>
      obtain ⟨hmade, hl⟩ := h.ensureDirectory (h.plain_startOf path) (plain_split path.octets)
      exact (hmade.putFile hl (by decide) max).putFile hl (by decide) current
  | file path content => exact h.write path _
  | directory path => exact (h.ensureDirectory (h.plain_startOf path) (plain_split path.octets)).1
  | link path target => exact h.write path _
  | remove path => exact h.remove path
  | rename source target => exact h.rename source target

theorem separated_empty : empty.Separated := by
  have hhome : Plain home := List.forall_mem_singleton.mpr (by decide)
  exact ⟨List.forall_mem_singleton.mpr hhome, hhome⟩

theorem separated_ofEdits (edits : List Edit) : (ofEdits edits).Separated := by
  have hfold : ∀ t : FileTree, t.Separated → (edits.foldl FileTree.apply t).Separated := by
    induction edits with
    | nil => exact fun t h => h
    | cons edit edits ih => exact fun t h => ih _ (h.apply edit)
  exact hfold empty separated_empty

end Edits

end FileTree

end ThermalGauge
