import ThermalGauge.FileTree.Edit

/-!
# What a walk looks at

A walk looks up one location after another.  Where it gets to depends on what it finds there and
on nothing else in the tree: a walk that succeeds does so in every tree that has the same entries
at these locations, and, if they are somewhere else in the other tree, comes to the place that
corresponds.
-/

namespace ThermalGauge

namespace FileTree

/-- The spot that corresponds to another one, where `f` says which locations correspond. -/
def Spot.map (f : Location → Location) : Spot → Spot
  | directory l => directory (f l)
  | file content => file content

@[simp] theorem Spot.map_id (spot : Spot) : spot.map id = spot := by cases spot <;> rfl

def Stride.map (f : Location → Location) : Stride → Stride
  | arrived spot => arrived (spot.map f)
  | failed error => failed error
  | link l target rest => link (f l) target rest

/-- The locations that a stride looks up. -/
def strideLookups (t : FileTree) : Location → List Name → List Location
  | _, [] => []
  | l, name :: rest =>
    if name = [] ∨ name = Path.dot then strideLookups t l rest
    else if name = Path.dotDot then strideLookups t l.tail rest
    else if nameLimit < name.length then []
    else (name :: l) :: match t.entryAt? (name :: l) with
      | some (.directory _) => strideLookups t (name :: l) rest
      | _ => []

def walkLookups (t : FileTree) : Nat → Location → List Name → List Location
  | links, l, names =>
    t.strideLookups l names ++
      match t.stride l names with
      | .link l target rest =>
        match links with
        | 0 => []
        | links + 1 =>
          walkLookups t links (startFrom l target) (Path.split target.octets ++ rest)
      | _ => []

/-- The locations that are looked up in resolving a path. -/
def lookups (t : FileTree) (p : Path) : List Location :=
  t.walkLookups linkLimit (t.startOf p) (Path.split p.octets)

section Steps

variable {t : FileTree} {l : Location} {name : Name} {rest : List Name}

theorem stride_skip (h : name = [] ∨ name = Path.dot) :
    t.stride l (name :: rest) = t.stride l rest ∧
      t.strideLookups l (name :: rest) = t.strideLookups l rest := by
  simp only [stride, strideLookups, if_pos h, and_self]

theorem stride_up (h : name = Path.dotDot) :
    t.stride l (name :: rest) = t.stride l.tail rest ∧
      t.strideLookups l (name :: rest) = t.strideLookups l.tail rest := by
  have hskip : ¬ (name = [] ∨ name = Path.dot) := by
    rw [h]
    decide
  simp only [stride, strideLookups, if_neg hskip, if_pos h, and_self]

theorem stride_tooLong (h : nameLimit < name.length) :
    t.stride l (name :: rest) = .failed .nameTooLong ∧
      t.strideLookups l (name :: rest) = [] := by
  have hskip : ¬ (name = [] ∨ name = Path.dot) := by
    rintro (rfl | rfl) <;> exact absurd h (by decide)
  have hup : name ≠ Path.dotDot := by
    rintro rfl
    exact absurd h (by decide)
  simp only [stride, strideLookups, if_neg hskip, if_neg hup, if_pos h, and_self]

/-- A name that is looked up. -/
def IsProper (name : Name) : Prop :=
  ¬ (name = [] ∨ name = Path.dot) ∧ name ≠ Path.dotDot ∧ name.length ≤ nameLimit

theorem stride_of_isProper (h : IsProper name) :
    t.stride l (name :: rest) = match t.entryAt? (name :: l) with
      | none => .failed .noSuchFile
      | some (.directory _) => t.stride (name :: l) rest
      | some (.file content) =>
        if rest = [] then .arrived (.file content) else .failed .notADirectory
      | some (.link target) => .link l target rest := by
  have hshort : ¬ nameLimit < name.length := Nat.not_lt.mpr h.2.2
  cases he : t.entryAt? (name :: l) with
  | none => simp only [stride, if_neg h.1, if_neg h.2.1, if_neg hshort, he]
  | some e => cases e <;> simp only [stride, if_neg h.1, if_neg h.2.1, if_neg hshort, he]

theorem strideLookups_of_isProper (h : IsProper name) :
    t.strideLookups l (name :: rest) = (name :: l) ::
      match t.entryAt? (name :: l) with
      | some (.directory _) => t.strideLookups (name :: l) rest
      | _ => [] := by
  simp only [strideLookups, if_neg h.1, if_neg h.2.1, if_neg (Nat.not_lt.mpr h.2.2)]

theorem name_cases (name : Name) :
    (name = [] ∨ name = Path.dot) ∨ name = Path.dotDot ∨ nameLimit < name.length ∨
      IsProper name := by
  unfold IsProper
  by_cases hskip : name = [] ∨ name = Path.dot
  · exact .inl hskip
  · by_cases hup : name = Path.dotDot
    · exact .inr (.inl hup)
    · rcases Nat.lt_or_ge nameLimit name.length with hlong | hshort
      · exact .inr (.inr (.inl hlong))
      · exact .inr (.inr (.inr ⟨hskip, hup, hshort⟩))

variable {names : List Name} {links : Nat}

theorem walk_of_arrived {spot : Spot} (h : t.stride l names = .arrived spot) :
    t.walk links l names = .ok spot ∧
      t.walkLookups links l names = t.strideLookups l names := by
  rw [walk.eq_def, walkLookups.eq_def]
  simp [h]

theorem walk_of_failed {error : SystemError} (h : t.stride l names = .failed error) :
    t.walk links l names = .error error := by
  rw [walk.eq_def]
  simp [h]

theorem walk_of_link {l' : Location} {target : Path}
    (h : t.stride l names = .link l' target rest) :
    t.walk (links + 1) l names =
        t.walk links (startFrom l' target) (Path.split target.octets ++ rest) ∧
      t.walkLookups (links + 1) l names = t.strideLookups l names ++
        t.walkLookups links (startFrom l' target) (Path.split target.octets ++ rest) := by
  rw [walk.eq_def, walkLookups.eq_def]
  simp [h]

/-- A walk that succeeds arrives in one stride, or goes on from a link. -/
theorem walk_cases {spot : Spot} (h : t.walk links l names = .ok spot) :
    t.stride l names = .arrived spot ∨
      ∃ l' target rest links', t.stride l names = .link l' target rest ∧
        links = links' + 1 ∧
        t.walk links' (startFrom l' target) (Path.split target.octets ++ rest) = .ok spot := by
  cases hstride : t.stride l names with
  | arrived spot' =>
      rw [(walk_of_arrived hstride).1] at h
      exact .inl (congrArg _ (Except.ok.inj h))
  | failed error =>
      rw [walk_of_failed hstride] at h
      cases h
  | link l' target rest =>
      cases links with
      | zero =>
          rw [walk.eq_def] at h
          simp [hstride] at h
      | succ links =>
          rw [(walk_of_link hstride).1] at h
          exact .inr ⟨l', target, rest, links, rfl, rfl, h⟩

theorem walk_cons (h : IsProper name) :
    t.walk links l (name :: names) = match t.entryAt? (name :: l) with
      | none => .error .noSuchFile
      | some (.directory _) => t.walk links (name :: l) names
      | some (.file content) =>
        if names = [] then .ok (.file content) else .error .notADirectory
      | some (.link target) =>
        match links with
        | 0 => .error .tooManyLinks
        | links + 1 => t.walk links (startFrom l target) (Path.split target.octets ++ names) := by
  rw [walk.eq_def]
  simp only [stride_of_isProper h]
  cases t.entryAt? (name :: l) with
  | none => rfl
  | some e =>
      cases e with
      | directory => exact (walk.eq_def t links (name :: l) names).symm
      | file content => by_cases hnames : names = [] <;> simp [hnames]
      | link target => cases links <;> rfl

theorem walkLookups_cons (h : IsProper name) :
    t.walkLookups links l (name :: names) = (name :: l) ::
      match t.entryAt? (name :: l) with
      | some (.directory _) => t.walkLookups links (name :: l) names
      | some (.link target) =>
        match links with
        | 0 => []
        | links + 1 =>
          t.walkLookups links (startFrom l target) (Path.split target.octets ++ names)
      | _ => [] := by
  rw [walkLookups.eq_def]
  simp only [stride_of_isProper h, strideLookups_of_isProper h]
  cases t.entryAt? (name :: l) with
  | none => simp
  | some e =>
      cases e with
      | directory =>
          rw [walkLookups.eq_def t links (name :: l) names]
          rfl
      | file content => by_cases hnames : names = [] <;> simp [hnames]
      | link target => cases links <;> simp

end Steps

section Append

variable {t : FileTree}

/-- A longer stride goes on from the directory to which a shorter one leads, meets the same link,
or fails. -/
theorem stride_append (l : Location) (names later : List Name) :
    (∀ l', t.stride l names = .arrived (.directory l') →
      t.stride l (names ++ later) = t.stride l' later ∧
        t.strideLookups l (names ++ later) =
          t.strideLookups l names ++ t.strideLookups l' later) ∧
    (∀ l' target rest, t.stride l names = .link l' target rest →
      t.stride l (names ++ later) = .link l' target (rest ++ later) ∧
        t.strideLookups l (names ++ later) = t.strideLookups l names) ∧
    (∀ content, t.stride l names = .arrived (.file content) → later ≠ [] →
      t.stride l (names ++ later) = .failed .notADirectory) ∧
    ∀ error, t.stride l names = .failed error →
      t.stride l (names ++ later) = .failed error := by
  induction names generalizing l with
  | nil =>
      refine ⟨?_, ?_, ?_, ?_⟩
      · rintro l' ⟨⟩
        exact ⟨rfl, rfl⟩
      · rintro _ _ _ ⟨⟩
      · rintro _ ⟨⟩
      · rintro _ ⟨⟩
  | cons name rest ih =>
      rw [List.cons_append]
      rcases name_cases name with hskip | hup | hlong | hproper
      · rw [(stride_skip hskip).1, (stride_skip hskip).2, (stride_skip hskip).1,
          (stride_skip hskip).2]
        exact ih l
      · rw [(stride_up hup).1, (stride_up hup).2, (stride_up hup).1, (stride_up hup).2]
        exact ih l.tail
      · rw [(stride_tooLong hlong).1, (stride_tooLong hlong).1]
        simp
      · rw [stride_of_isProper hproper, stride_of_isProper hproper,
          strideLookups_of_isProper hproper, strideLookups_of_isProper hproper]
        cases he : t.entryAt? (name :: l) with
        | none => simp
        | some e =>
            cases e with
            | directory => simpa using ih (name :: l)
            | file content =>
                by_cases hrest : rest = [] <;> simp [hrest]
            | link target => simp

theorem walk_append_of_arrived {links : Nat} {l l' : Location} {names : List Name}
    (h : t.stride l names = .arrived (.directory l')) (later : List Name) :
    t.walk links l (names ++ later) = t.walk links l' later ∧
      t.walkLookups links l (names ++ later) =
        t.walkLookups links l names ++ t.walkLookups links l' later := by
  obtain ⟨hstride, hlookups⟩ := (stride_append l names later).1 l' h
  refine ⟨?_, ?_⟩
  · rw [walk.eq_def, walk.eq_def t links l' later]
    simp only [hstride]
  · rw [(walk_of_arrived h).2, walkLookups.eq_def, walkLookups.eq_def t links l' later]
    simp only [hstride, hlookups, List.append_assoc]

/-- A walk to a directory comes through directories. -/
theorem exists_walk_of_append {links : Nat} {l l' : Location} {names later : List Name}
    (h : t.walk links l (names ++ later) = .ok (.directory l')) :
    ∃ via, t.walk links l names = .ok (.directory via) := by
  induction links using Nat.strongRecOn generalizing l names with
  | ind links ih =>
      obtain ⟨-, hlink, hfile, hfailed⟩ := stride_append (t := t) l names later
      cases hstride : t.stride l names with
      | arrived spot =>
          cases spot with
          | directory via => exact ⟨via, (walk_of_arrived hstride).1⟩
          | file content =>
              by_cases hlater : later = []
              · rw [hlater, List.append_nil, (walk_of_arrived hstride).1] at h
                cases h
              · rw [walk_of_failed (hfile content hstride hlater)] at h
                cases h
      | failed error =>
          rw [walk_of_failed (hfailed error hstride)] at h
          cases h
      | link via target rest =>
          have hlater := (hlink via target rest hstride).1
          cases links with
          | zero =>
              rw [walk.eq_def] at h
              simp [hlater] at h
          | succ links =>
              rw [(walk_of_link hlater).1, ← List.append_assoc] at h
              rw [(walk_of_link hstride).1]
              exact ih links (Nat.lt_succ_self links) h

end Append

/-- A correspondence of locations that goes up from one to the other where the locations do. -/
def KeepsParents (f : Location → Location) : Prop := ∀ l, (f l).tail = f l.tail

/-- What `t` has at the location `k` is in `t'` at the location that corresponds. -/
def Carries (t t' : FileTree) (f : Location → Location) (k : Location) : Prop :=
  ∀ name l e, k = name :: l → t.entryAt? k = some e →
    t'.entryAt? (name :: f l) = some e ∧ (∀ refusal, e = .directory refusal → f k = name :: f l)

section Carried

variable {t t' : FileTree} {f : Location → Location}

theorem KeepsParents.nil (hf : KeepsParents f) : f [] = [] := by
  have hnil : (f []).tail = f [] := hf []
  cases h : f [] with
  | nil => rfl
  | cons name up => simp [h] at hnil

theorem KeepsParents.startFrom (hf : KeepsParents f) (l : Location) (p : Path) :
    startFrom (f l) p = f (startFrom l p) := by
  unfold FileTree.startFrom
  split
  · exact hf.nil.symm
  · rfl

theorem stride_carried (hf : KeepsParents f) {l : Location} {names : List Name}
    (h : ∀ k ∈ t.strideLookups l names, Carries t t' f k)
    (hstride : ∀ error, t.stride l names ≠ .failed error) :
    t'.stride (f l) names = (t.stride l names).map f := by
  induction names generalizing l with
  | nil => rfl
  | cons name rest ih =>
      rcases name_cases name with hskip | hup | hlong | hproper
      · rw [(stride_skip hskip).1] at hstride ⊢
        rw [(stride_skip hskip).2] at h
        rw [(stride_skip hskip).1]
        exact ih h hstride
      · rw [(stride_up hup).1] at hstride ⊢
        rw [(stride_up hup).2] at h
        rw [(stride_up hup).1, hf]
        exact ih h hstride
      · exact absurd (stride_tooLong hlong).1 (hstride _)
      · rw [strideLookups_of_isProper hproper] at h
        rw [stride_of_isProper hproper] at hstride ⊢
        rw [stride_of_isProper hproper]
        cases he : t.entryAt? (name :: l) with
        | none => simp [he] at hstride
        | some e =>
            obtain ⟨hentry, hchild⟩ := h (name :: l) List.mem_cons_self name l e rfl he
            rw [hentry]
            rw [he] at hstride h
            cases e with
            | directory refusal =>
                have hon := ih (fun k hk => h k (List.mem_cons_of_mem _ hk)) hstride
                rw [hchild refusal rfl] at hon
                exact hon
            | file content =>
                by_cases hrest : rest = []
                · simp [hrest, Stride.map, Spot.map]
                · simp [hrest] at hstride
            | link target => rfl

theorem walk_carried_of_arrived (hf : KeepsParents f) {links : Nat} {l : Location}
    {names : List Name} {spot : Spot}
    (h : ∀ k ∈ t.walkLookups links l names, Carries t t' f k)
    (hstride : t.stride l names = .arrived spot) :
    t'.walk links (f l) names = .ok (spot.map f) := by
  rw [(walk_of_arrived hstride).2] at h
  have hcarried := stride_carried hf h (by simp [hstride])
  rw [hstride] at hcarried
  exact (walk_of_arrived hcarried).1

theorem walk_carried (hf : KeepsParents f) {links : Nat} {l : Location} {names : List Name}
    {spot : Spot} (h : ∀ k ∈ t.walkLookups links l names, Carries t t' f k)
    (hwalk : t.walk links l names = .ok spot) :
    t'.walk links (f l) names = .ok (spot.map f) := by
  induction links generalizing l names with
  | zero =>
      rcases walk_cases hwalk with hstride | ⟨_, _, _, _, -, hlinks, -⟩
      · exact walk_carried_of_arrived hf h hstride
      · cases hlinks
  | succ links ih =>
      rcases walk_cases hwalk with hstride | ⟨l', target, rest, links', hstride, hlinks, hrest⟩
      · exact walk_carried_of_arrived hf h hstride
      · cases hlinks
        rw [(walk_of_link hstride).2] at h
        have hcarried := stride_carried hf
          (fun k hk => h k (List.mem_append_left _ hk)) (by simp [hstride])
        rw [hstride] at hcarried
        rw [(walk_of_link hcarried).1, hf.startFrom]
        exact ih (fun k hk => h k (List.mem_append_right _ hk)) hrest

theorem walk_append_carried_of_arrived
    (hf : KeepsParents f) {links : Nat} {l l' : Location} {names : List Name}
    (h : ∀ k ∈ t.walkLookups links l names, Carries t t' f k)
    (hstride : t.stride l names = .arrived (.directory l')) (later : List Name) :
    t.walk links l (names ++ later) = t.walk links l' later ∧
      t.walkLookups links l (names ++ later) =
        t.walkLookups links l names ++ t.walkLookups links l' later ∧
      t'.walk links (f l) (names ++ later) = t'.walk links (f l') later := by
  rw [(walk_of_arrived hstride).2] at h
  have hcarried := stride_carried hf h (by simp [hstride])
  rw [hstride] at hcarried
  obtain ⟨hlater, hlookups⟩ := walk_append_of_arrived hstride later
  exact ⟨hlater, hlookups, (walk_append_of_arrived hcarried later).1⟩

/-- A walk to a directory and on from there, with the links that are left, in two trees. -/
theorem walk_append_carried
    (hf : KeepsParents f) {links : Nat} {l l' : Location} {names : List Name}
    (h : ∀ k ∈ t.walkLookups links l names, Carries t t' f k)
    (hwalk : t.walk links l names = .ok (.directory l')) :
    ∃ left, ∀ later, t.walk links l (names ++ later) = t.walk left l' later ∧
      t.walkLookups links l (names ++ later) =
        t.walkLookups links l names ++ t.walkLookups left l' later ∧
      t'.walk links (f l) (names ++ later) = t'.walk left (f l') later := by
  induction links generalizing l names with
  | zero =>
      rcases walk_cases hwalk with hstride | ⟨_, _, _, _, -, hlinks, -⟩
      · exact ⟨0, walk_append_carried_of_arrived hf h hstride⟩
      · cases hlinks
  | succ links ih =>
      rcases walk_cases hwalk with hstride | ⟨via, target, rest, links', hstride, hlinks, hrest⟩
      · exact ⟨links + 1, walk_append_carried_of_arrived hf h hstride⟩
      · cases hlinks
        rw [(walk_of_link hstride).2] at h
        have hcarried := stride_carried hf
          (fun k hk => h k (List.mem_append_left _ hk)) (by simp [hstride])
        rw [hstride] at hcarried
        obtain ⟨left, hleft⟩ := ih (fun k hk => h k (List.mem_append_right _ hk)) hrest
        -- the names behind the link's target are followed by the later ones
        refine ⟨left, fun later => ?_⟩
        obtain ⟨hlater, hlookups⟩ := (stride_append l names later).2.1 _ _ _ hstride
        have hlater' := ((stride_append (f l) names later).2.1 _ _ _ hcarried).1
        have hon := hleft later
        rw [List.append_assoc] at hon
        rw [(walk_of_link hlater).1, (walk_of_link hlater).2, (walk_of_link hlater').1,
          (walk_of_link hstride).2, hlookups, hf.startFrom, List.append_assoc]
        exact ⟨hon.1, by rw [hon.2.1], hon.2.2⟩

theorem carries_self (t : FileTree) (k : Location) : Carries t t id k := by
  rintro name l e rfl he
  exact ⟨he, fun _ _ => rfl⟩

theorem keepsParents_id : KeepsParents id := fun _ => rfl

theorem walk_append {links : Nat} {l l' : Location} {names : List Name}
    (hwalk : t.walk links l names = .ok (.directory l')) :
    ∃ left, ∀ later, t.walk links l (names ++ later) = t.walk left l' later ∧
      t.walkLookups links l (names ++ later) =
        t.walkLookups links l names ++ t.walkLookups left l' later := by
  obtain ⟨left, hleft⟩ := walk_append_carried keepsParents_id (fun k _ => carries_self t k) hwalk
  exact ⟨left, fun later => ⟨(hleft later).1, (hleft later).2.1⟩⟩

/-- An empty name or a dot at the end leads nowhere else. -/
theorem walk_concat_skip_iff {links : Nat} {l l' : Location} {names : List Name} {name : Name}
    (hskip : name = [] ∨ name = Path.dot) :
    t.walk links l (names ++ [name]) = .ok (.directory l') ↔
      t.walk links l names = .ok (.directory l') := by
  have hon : ∀ via, t.walk links l names = .ok (.directory via) →
      t.walk links l (names ++ [name]) = .ok (.directory via) := by
    intro via hvia
    obtain ⟨left, hleft⟩ := walk_append hvia
    rw [(hleft [name]).1]
    exact (walk_of_arrived (stride_skip hskip).1).1
  constructor
  · intro h
    obtain ⟨via, hvia⟩ := exists_walk_of_append h
    have hsame := (hon via hvia).symm.trans h
    cases hsame
    exact hvia
  · exact hon l'

/-- Paths lead to corresponding spots in two trees, if what is looked up does. -/
theorem resolve_carried (hf : KeepsParents f)
    (hhere : t'.workingDirectory = f t.workingDirectory) {p : Path} {spot : Spot}
    (h : ∀ k ∈ t.lookups p, Carries t t' f k) (hp : t.resolve p = .ok spot) :
    t'.resolve p = .ok (spot.map f) := by
  unfold resolve at hp ⊢
  split at hp
  · cases hp
  · rename_i hempty
    rw [if_neg hempty]
    split at hp
    · cases hp
    · rename_i hlong
      rw [if_neg hlong, startOf, hhere, hf.startFrom]
      exact walk_carried hf h hp

theorem content_eq_ok_iff {p : Path} {content : Octets} :
    t.content p = .ok content ↔ t.resolve p = .ok (.file content) := by
  unfold FileTree.content
  split <;> simp_all

theorem isDirectory_iff {p : Path} :
    t.isDirectory p = true ↔ ∃ l, t.resolve p = .ok (.directory l) := by
  unfold isDirectory
  split <;> simp_all

theorem openDirectory_eq_ok_iff {p : Path} {l : Location} :
    t.openDirectory p = .ok l ↔ t.resolve p = .ok (.directory l) ∧ t.refusal? l = none := by
  unfold openDirectory
  split
  · rename_i l' hl'
    rw [hl']
    constructor
    · intro h
      split at h
      · rename_i hrefusal
        cases h
        exact ⟨rfl, hrefusal⟩
      · cases h
    · rintro ⟨hsame, hrefusal⟩
      cases hsame
      rw [hrefusal]
  · simp_all
  · simp_all

theorem refusal?_carried (hf : KeepsParents f) {l : Location} (h : Carries t t' f l)
    (hl : t.refusal? l = none) : t'.refusal? (f l) = none := by
  cases l with
  | nil =>
      rw [hf.nil]
      rfl
  | cons name up =>
      simp only [refusal?] at hl
      split at hl
      · rename_i refusal hentry
        obtain ⟨hentry', hplace⟩ := h name up _ rfl hentry
        rw [hplace refusal rfl, refusal?, hentry', hl]
      · cases hl
      · cases hl

theorem openDirectory_carried (hf : KeepsParents f)
    (hhere : t'.workingDirectory = f t.workingDirectory) {p : Path} {l : Location}
    (h : ∀ k ∈ t.lookups p, Carries t t' f k) (hl : Carries t t' f l)
    (hp : t.openDirectory p = .ok l) : t'.openDirectory p = .ok (f l) := by
  obtain ⟨hresolve, hrefusal⟩ := openDirectory_eq_ok_iff.mp hp
  exact openDirectory_eq_ok_iff.mpr
    ⟨resolve_carried hf hhere h hresolve, refusal?_carried hf hl hrefusal⟩

end Carried

end FileTree

end ThermalGauge
