import ThermalGauge.Proofs.FileTree.Lookups

/-!
# Paths that lead to the same spot

An empty name and a dot lead nowhere, so they can be left out if other names follow.  Two walks
by the same names can differ in the number of links that are left to them, and then the one with
fewer fails.  So what a path leads to is known from the directory to which its front leads, unless
the path is refused.
-/

namespace ThermalGauge

namespace FileTree

variable {t : FileTree} {l : Location} {name : Name} {names way rest : List Name} {spot : Spot}
  {links : Nat} {p : Path}

theorem walk_congr {l' : Location} {names' : List Name}
    (h : t.stride l names = t.stride l' names') :
    t.walk links l names = t.walk links l' names' := by
  rw [walk.eq_def, walk.eq_def t links l']
  simp only [h]

theorem walk_skip (hskip : name = [] ∨ name = Path.dot) :
    t.walk links l (name :: rest) = t.walk links l rest :=
  walk_congr (stride_skip hskip).1

theorem stride_append_skip (hskip : name = [] ∨ name = Path.dot) (hrest : rest ≠ [])
    (l : Location) (way : List Name) :
    t.stride l (way ++ name :: rest) = t.stride l (way ++ rest) ∨
      ∃ via target left, t.stride l (way ++ name :: rest) =
          .link via target (left ++ name :: rest) ∧
        t.stride l (way ++ rest) = .link via target (left ++ rest) := by
  obtain ⟨hdirectory, hlink, hfile, hfailed⟩ := stride_append (t := t) l way (name :: rest)
  obtain ⟨hdirectory', hlink', hfile', hfailed'⟩ := stride_append (t := t) l way rest
  cases hstride : t.stride l way with
  | arrived spot =>
      cases spot with
      | directory l' =>
          rw [(hdirectory l' hstride).1, (hdirectory' l' hstride).1]
          exact .inl (stride_skip hskip).1
      | file content =>
          rw [hfile content hstride (List.cons_ne_nil _ _), hfile' content hstride hrest]
          exact .inl rfl
  | failed error =>
      rw [hfailed error hstride, hfailed' error hstride]
      exact .inl rfl
  | link via target left =>
      exact .inr ⟨via, target, left, (hlink _ _ _ hstride).1, (hlink' _ _ _ hstride).1⟩

/-- A name that leads nowhere can be left out before others.  At the end it cannot: only the name
of a directory can stand before it. -/
theorem walk_append_skip (hskip : name = [] ∨ name = Path.dot) (hrest : rest ≠ []) :
    t.walk links l (way ++ name :: rest) = t.walk links l (way ++ rest) := by
  induction links generalizing l way with
  | zero =>
      rcases stride_append_skip hskip hrest l way with
        hsame | ⟨via, target, left, hlink, hlink'⟩
      · exact walk_congr hsame
      · rw [walk.eq_def, walk.eq_def t 0 l (way ++ rest)]
        simp only [hlink, hlink']
  | succ links ih =>
      rcases stride_append_skip hskip hrest l way with
        hsame | ⟨via, target, left, hlink, hlink'⟩
      · exact walk_congr hsame
      · rw [(walk_of_link hlink).1, (walk_of_link hlink').1, ← List.append_assoc,
          ← List.append_assoc]
        exact ih

/-- With enough links left, a walk comes to the spot. -/
def Leads (t : FileTree) (l : Location) (names : List Name) (spot : Spot) : Prop :=
  ∃ links, t.walk links l names = .ok spot

/-- An entry that is a directory or a link to one. -/
def Opens (t : FileTree) (l : Location) (name : Name) : Prop :=
  (∃ refusal, t.entryAt? (name :: l) = some (.directory refusal)) ∨ ∃ target l',
    t.entryAt? (name :: l) = some (.link target) ∧
      t.Leads (startFrom l target) (Path.split target.octets) (.directory l')

theorem exists_leads_iff_opens (h : IsProper name) :
    (∃ l', t.Leads l [name] (.directory l')) ↔ t.Opens l name := by
  unfold Leads Opens
  cases he : t.entryAt? (name :: l) with
  | none => simp [walk_cons h, he]
  | some e =>
      cases e with
      | directory =>
          have hwalk : t.walk 0 l [name] = .ok (.directory (name :: l)) := by
            simp only [walk_cons h, he]
            exact (walk_of_arrived rfl).1
          exact ⟨fun _ => .inl ⟨_, rfl⟩, fun _ => ⟨_, 0, hwalk⟩⟩
      | file content => simp [walk_cons h, he]
      | link target =>
          have hwalk : ∀ links, t.walk (links + 1) l [name] =
              t.walk links (startFrom l target) (Path.split target.octets) := by
            intro links
            simp [walk_cons h, he]
          constructor
          · rintro ⟨l', links, hl'⟩
            cases links with
            | zero => simp [walk_cons h, he] at hl'
            | succ links => exact .inr ⟨target, l', rfl, links, hwalk links ▸ hl'⟩
          · rintro (⟨_, hdirectory⟩ | ⟨target', l', htarget, links, hl'⟩)
            · cases hdirectory
            · cases htarget
              exact ⟨l', links + 1, (hwalk links).trans hl'⟩

/-- The path or a name on the way is too long, or there are too many links on the way. -/
def Refuses (t : FileTree) (p : Path) : Prop :=
  t.resolve p = .error .nameTooLong ∨ t.resolve p = .error .tooManyLinks

instance (t : FileTree) (p : Path) : Decidable (t.Refuses p) :=
  match h : t.resolve p with
  | .ok _ => .isFalse (by simp [Refuses, h])
  | .error error =>
    decidable_of_iff (error = .nameTooLong ∨ error = .tooManyLinks) (by simp [Refuses, h])

/-- The number of links that are left decides only whether a walk succeeds. -/
theorem walk_eq_or_tooManyLinks (h : t.walk links l names = .ok spot) (links' : Nat) :
    t.walk links' l names = .ok spot ∨ t.walk links' l names = .error .tooManyLinks := by
  induction links generalizing l names links' with
  | zero =>
      rcases walk_cases h with harrived | ⟨_, _, _, _, -, hlinks, -⟩
      · exact .inl (walk_of_arrived harrived).1
      · cases hlinks
  | succ links ih =>
      rcases walk_cases h with harrived | ⟨via, target, rest, _, hlink, ⟨⟩, hrest⟩
      · exact .inl (walk_of_arrived harrived).1
      · cases links' with
        | zero =>
            rw [walk.eq_def]
            simp [hlink]
        | succ links' =>
            rw [(walk_of_link hlink).1]
            exact ih hrest links'

theorem resolve_eq (hp : p.octets ≠ []) :
    t.resolve p = if pathLimit < p.octets.length then .error .nameTooLong
      else t.walk linkLimit (t.startOf p) (Path.split p.octets) := by
  rw [resolve, if_neg hp]

/-- A path that is not too long goes on from the directory to which its front leads. -/
theorem exists_resolve_eq (hp : p.octets ≠ []) (hsplit : Path.split p.octets = way ++ names)
    (hway : t.walk linkLimit (t.startOf p) way = .ok (.directory l)) :
    ∃ left, t.resolve p = if pathLimit < p.octets.length then .error .nameTooLong
      else t.walk left l names := by
  obtain ⟨left, hleft⟩ := walk_append hway
  exact ⟨left, by rw [resolve_eq hp, hsplit, (hleft names).1]⟩

theorem resolve_eq_ok_iff (hp : p.octets ≠ []) (hsplit : Path.split p.octets = way ++ names)
    (hway : t.walk linkLimit (t.startOf p) way = .ok (.directory l)) :
    t.resolve p = .ok spot ↔ t.Leads l names spot ∧ ¬ t.Refuses p := by
  obtain ⟨left, hresolve⟩ := exists_resolve_eq hp hsplit hway
  rw [Refuses, hresolve]
  split
  · simp
  · constructor
    · intro h
      exact ⟨⟨left, h⟩, by simp [h]⟩
    · rintro ⟨⟨links, hlinks⟩, hrefused⟩
      rcases walk_eq_or_tooManyLinks hlinks left with h | h
      · exact h
      · exact absurd (.inr h) hrefused

theorem refuses_of_nameLimit_lt (hp : p.octets ≠ [])
    (hsplit : Path.split p.octets = way ++ name :: names)
    (hway : t.walk linkLimit (t.startOf p) way = .ok (.directory l))
    (hname : nameLimit < name.length) : t.Refuses p := by
  obtain ⟨left, hresolve⟩ := exists_resolve_eq hp hsplit hway
  have hwalk : t.walk left l (name :: names) = .error .nameTooLong := by
    rw [walk.eq_def]
    simp only [(stride_tooLong hname).1]
  rw [hwalk, ite_self] at hresolve
  exact .inl hresolve

/-- The path `q` leads wherever `p` does and is not longer. -/
structure Respells (p q : Path) : Prop where
  ne_nil : q.octets ≠ []
  isAbsolute_eq : q.isAbsolute = p.isAbsolute
  length_le : q.octets.length ≤ p.octets.length
  walk_eq : ∀ (t : FileTree) (links : Nat) (l : Location),
    t.walk links l (Path.split q.octets) = t.walk links l (Path.split p.octets)

namespace Respells

theorem refl (hp : p.octets ≠ []) : Respells p p :=
  ⟨hp, rfl, Nat.le_refl _, fun _ _ _ => rfl⟩

theorem trans {q r : Path} (h : Respells p q) (h' : Respells q r) : Respells p r where
  ne_nil := h'.ne_nil
  isAbsolute_eq := h'.isAbsolute_eq.trans h.isAbsolute_eq
  length_le := Nat.le_trans h'.length_le h.length_le
  walk_eq := fun t links l => (h'.walk_eq t links l).trans (h.walk_eq t links l)

/-- Two slashes count as one. -/
theorem of_slash (o rest : Octets) :
    Respells ⟨o ++ Path.slash :: Path.slash :: rest⟩ ⟨o ++ Path.slash :: rest⟩ where
  ne_nil := by simp
  isAbsolute_eq := by cases o <;> rfl
  length_le := by simp
  walk_eq := by
    intro t links l
    have hdouble : Path.split (o ++ Path.slash :: Path.slash :: rest) =
        Path.split o ++ [] :: Path.split rest := by
      rw [Path.split_append_slash]
      rfl
    rw [hdouble, Path.split_append_slash]
    exact (walk_append_skip (.inl rfl) (Path.split_ne_nil rest)).symm

/-- A dot in front of a relative path makes no difference. -/
theorem of_dot {q : Path} (hq : q.octets ≠ []) (hrelative : q.isAbsolute = false) :
    Respells ⟨Path.dot ++ Path.slash :: q.octets⟩ q where
  ne_nil := hq
  isAbsolute_eq := hrelative
  length_le := by
    rw [List.length_append, List.length_cons]
    omega
  walk_eq := by
    intro t links l
    rw [Path.split_append_slash]
    exact (walk_skip (.inr rfl)).symm

theorem resolve_eq {q : Path} (h : Respells p q) (hp : p.octets.length ≤ pathLimit) :
    t.resolve q = t.resolve p := by
  have hne : p.octets ≠ [] := by
    intro hnil
    have hle := h.length_le
    rw [hnil, List.length_nil, Nat.le_zero] at hle
    exact h.ne_nil (List.eq_nil_of_length_eq_zero hle)
  have hstart : t.startOf q = t.startOf p := by
    simp only [startOf, startFrom, h.isAbsolute_eq]
  rw [FileTree.resolve_eq hne, FileTree.resolve_eq h.ne_nil, if_neg (Nat.not_lt.mpr hp),
    if_neg (Nat.not_lt.mpr (Nat.le_trans h.length_le hp)), h.walk_eq, hstart]

end Respells

end FileTree

end ThermalGauge
