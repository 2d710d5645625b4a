import ThermalGauge.Proofs.Command.Written
import ThermalGauge.Proofs.Selection
import ThermalGauge.Proofs.Text.Numeral

/-!
# Values of options

Each option has a field of its own among the arguments.  A value that is stored puts what it says
into the field of its option and leaves the others alone.  No option is stored twice, so the order
of the values does not matter, and no value takes the place of another.
-/

namespace ThermalGauge

namespace Command

/-- The field of the option holds what the value says.  A switch has no use for its value, and help
and version have no field. -/
def Means (o : Opt) (value : Octets) (a : Arguments) : Prop :=
  match o with
  | .source => ∃ text, value = Utf8.encode text ∧ a.selection.IsNamedBy text
  | .sysfsRoot => value ≠ [] ∧ a.sysfsRoot = ⟨value⟩
  | .onsetMargin => ∃ text, value = Utf8.encode text ∧ Binary32.read text = .ok a.onsetMargin
  | .intervalMs =>
    ∃ text, value = Utf8.encode text ∧ Text.IsNumeral text.toList a.intervalMs.toNat
  | .count => ∃ text, value = Utf8.encode text ∧ Text.IsInteger text.toList a.count.toNat
  | .watch => a.watch = true
  | .help | .version => False

/-- The field of the option is the same in both. -/
def Arguments.SameAt (o : Opt) (a a' : Arguments) : Prop :=
  match o with
  | .source => a'.selection = a.selection
  | .sysfsRoot => a'.sysfsRoot = a.sysfsRoot
  | .onsetMargin => a'.onsetMargin = a.onsetMargin
  | .intervalMs => a'.intervalMs = a.intervalMs
  | .count => a'.count = a.count
  | .watch => a'.watch = a.watch
  | .help | .version => True

/-- The first arguments, with the field of the option as in the second ones. -/
def Arguments.withField (a : Arguments) (o : Opt) (a' : Arguments) : Arguments :=
  match o with
  | .source => { a with selection := a'.selection }
  | .sysfsRoot => { a with sysfsRoot := a'.sysfsRoot }
  | .onsetMargin => { a with onsetMargin := a'.onsetMargin }
  | .intervalMs => { a with intervalMs := a'.intervalMs }
  | .count => { a with count := a'.count }
  | .watch => { a with watch := a'.watch }
  | .help | .version => a

/-- The arguments hold these values, and defaults in place of the values that are not given. -/
structure Arguments.Holds (a : Arguments) (given : List (Opt × Octets)) : Prop where
  held : ∀ g ∈ given, Means g.1 g.2 a
  others : ∀ o, o ∉ given.map Prod.fst → SameAt o default a

namespace Progress

/-- The values are stored one after the other. -/
def storeAll (p : Progress) (given : List (Opt × Octets)) : Except Stop Progress :=
  given.foldlM (fun p g => p.store g.1 g.2) p

/-- What there is before and after some values are stored. -/
structure Stored (p : Progress) (given : List (Opt × Octets)) (p' : Progress) : Prop where
  nodup : (given.map Prod.fst).Nodup
  fresh : ∀ o ∈ given.map Prod.fst, o ∉ p.given
  held : ∀ g ∈ given, Means g.1 g.2 p'.arguments
  others : ∀ o, o ∉ given.map Prod.fst → Arguments.SameAt o p.arguments p'.arguments
  options : p'.given = (given.map Prod.fst).reverse ++ p.given
  pending : p'.pending = p.pending

end Progress

variable {o o' : Opt} {value : Octets} {a a' a'' : Arguments} {given : List (Opt × Octets)}
  {p p' : Progress}

namespace Arguments

theorem SameAt.refl (o : Opt) (a : Arguments) : SameAt o a a := by cases o <;> trivial

theorem SameAt.symm (h : SameAt o a a') : SameAt o a' a := by
  cases o <;> first | exact Eq.symm h | trivial

theorem SameAt.trans (h : SameAt o a a') (h' : SameAt o a' a'') : SameAt o a a'' := by
  cases o <;> first | exact Eq.trans h' h | trivial

theorem eq_of_sameAt (h : ∀ o, SameAt o a a') : a' = a := by
  obtain ⟨selection, sysfsRoot, onsetMargin, intervalMs, count, watch⟩ := a
  obtain ⟨selection', sysfsRoot', onsetMargin', intervalMs', count', watch'⟩ := a'
  obtain rfl : selection' = selection := h .source
  obtain rfl : sysfsRoot' = sysfsRoot := h .sysfsRoot
  obtain rfl : onsetMargin' = onsetMargin := h .onsetMargin
  obtain rfl : intervalMs' = intervalMs := h .intervalMs
  obtain rfl : count' = count := h .count
  obtain rfl : watch' = watch := h .watch
  rfl

theorem sameAt_withField_self (o : Opt) (a a' : Arguments) : SameAt o a' (a.withField o a') := by
  cases o <;> trivial

theorem sameAt_withField_of_ne (h : o' ≠ o) (a a' : Arguments) :
    SameAt o' a (a.withField o a') := by
  cases o <;> cases o' <;> first | rfl | trivial

theorem withField_eq_iff : a.withField o a' = a' ↔ ∀ o', o' ≠ o → SameAt o' a a' := by
  constructor
  · intro h o' hne
    have hsame := sameAt_withField_of_ne hne a a'
    rwa [h] at hsame
  · intro h
    refine eq_of_sameAt fun o' => ?_
    by_cases hne : o' = o
    · subst hne
      exact sameAt_withField_self o' a a'
    · exact (h o' hne).symm.trans (sameAt_withField_of_ne hne a a')

end Arguments

open Arguments

theorem Means.congr (h : Means o value a) (hsame : SameAt o a a') : Means o value a' := by
  cases o <;> simp only [Means, SameAt] at h hsame ⊢ <;> try rw [hsame]
  all_goals exact h

theorem exists_means_withField (h : ∃ a', Means o value a') (a : Arguments) :
    ∃ a', Means o value a' ∧ ∀ o', o' ≠ o → SameAt o' a a' := by
  obtain ⟨a', ha'⟩ := h
  exact ⟨a.withField o a', ha'.congr (sameAt_withField_self o a a'),
    fun o' hne => sameAt_withField_of_ne hne a a'⟩

namespace Progress

theorem readWith_eq_ok_iff_exists {α : Type} {read : String → Except ValueRefusal α} {x : α} :
    readWith o read value = .ok x ↔ ∃ text, value = Utf8.encode text ∧ read text = .ok x := by
  constructor
  · intro h
    cases hdecode : Utf8.decode? value with
    | none => simp [readWith, hdecode] at h
    | some text =>
        obtain rfl := Utf8.decode?_eq_some_iff.mp hdecode
        exact ⟨text, rfl, readWith_eq_ok_iff.mp h⟩
  · rintro ⟨text, rfl, h⟩
    exact readWith_eq_ok_iff.mpr h

theorem readCount_eq_ok_iff {text : String} {n : UInt32} :
    readCount text = .ok n ↔ Text.IsInteger text.toList n.toNat := by
  have hread (i : Int) : Text.readWithin (1 <<< 63) text.toList = .ok i ↔
      Text.IsInteger text.toList i ∧ -((1 <<< 63 : Nat) : Int) ≤ i ∧ i < (1 <<< 63 : Nat) :=
    Text.readWithin_eq_ok_iff (by decide)
  have hsize : countBound = UInt32.size := rfl
  have hlimit : UInt32.size < 1 <<< 63 := by decide
  constructor
  · intro h
    unfold readCount at h
    split at h
    · cases h
    · next i hi =>
      split at h
      · next hrange =>
        cases h
        have hlt : i.toNat < UInt32.size := by omega
        have hcast : ((UInt32.ofNat i.toNat).toNat : Int) = i := by
          rw [UInt32.toNat_ofNat_of_lt' hlt, Int.toNat_of_nonneg hrange.1]
        rw [hcast]
        exact ((hread i).mp hi).1
      · cases h
  · intro h
    have hlt : n.toNat < UInt32.size := n.toNat_lt
    have hi := (hread n.toNat).mpr ⟨h, by omega, by omega⟩
    have hrange : (0 : Int) ≤ n.toNat ∧ (n.toNat : Int) < countBound := by omega
    simp only [readCount, hi, hrange, and_self, if_true, Int.toNat_natCast, UInt32.ofNat_toNat]

/-- What becomes of a field that is read from the value; `put` puts it where `field` finds it. -/
theorem map_readWith_eq_ok_iff {α : Type} (o : Opt) (read : String → Except ValueRefusal α)
    (field : Arguments → α) (put : α → Arguments) (hput : ∀ x, field (put x) = x) :
    (readWith o read value).map put = .ok a' ↔
      (∃ text, value = Utf8.encode text ∧ read text = .ok (field a')) ∧ put (field a') = a' := by
  simp only [map_eq_ok_iff, readWith_eq_ok_iff_exists]
  constructor
  · rintro ⟨x, ⟨text, hvalue, hread⟩, rfl⟩
    refine ⟨⟨text, hvalue, ?_⟩, ?_⟩
    · rw [hput, hread]
    · rw [hput]
  · rintro ⟨hread, hfield⟩
    exact ⟨field a', hread, hfield⟩

theorem assign_eq_ok_iff :
    assign a o value = .ok a' ↔ Means o value a' ∧ ∀ o', o' ≠ o → SameAt o' a a' := by
  rw [← withField_eq_iff]
  cases o with
  | source =>
      refine (map_readWith_eq_ok_iff .source readSource Arguments.selection
        (fun selection => { a with selection }) fun _ => rfl).trans ?_
      simp only [readSource, mapError_eq_ok_iff, Settings.readSelection_eq_ok_iff]
      exact Iff.rfl
  | sysfsRoot =>
      simp only [assign, Means, List.isEmpty_iff]
      split
      · next hempty => simp [hempty]
      · next hne =>
        simp only [Except.ok.injEq, ne_eq, hne, not_false_eq_true, true_and]
        constructor
        · rintro rfl
          exact ⟨rfl, rfl⟩
        · rintro ⟨hroot, hfield⟩
          rwa [← hroot]
  | onsetMargin =>
      refine (map_readWith_eq_ok_iff .onsetMargin readMargin Arguments.onsetMargin
        (fun onsetMargin => { a with onsetMargin }) fun _ => rfl).trans ?_
      simp only [readMargin, mapError_eq_ok_iff]
      exact Iff.rfl
  | intervalMs =>
      refine (map_readWith_eq_ok_iff .intervalMs readInterval Arguments.intervalMs
        (fun intervalMs => { a with intervalMs }) fun _ => rfl).trans ?_
      simp only [readInterval, mapError_eq_ok_iff, Text.readUInt64_eq_ok_iff]
      exact Iff.rfl
  | count =>
      refine (map_readWith_eq_ok_iff .count readCount Arguments.count
        (fun count => { a with count }) fun _ => rfl).trans ?_
      simp only [readCount_eq_ok_iff]
      exact Iff.rfl
  | watch =>
      simp only [assign, Means, Except.ok.injEq]
      constructor
      · rintro rfl
        exact ⟨rfl, rfl⟩
      · rintro ⟨hwatch, hfield⟩
        rwa [← hwatch]
  | help => simp [assign, Means]
  | version => simp [assign, Means]

@[simp] theorem storeAll_nil (p : Progress) : p.storeAll [] = .ok p := rfl

theorem storeAll_cons (p : Progress) (o : Opt) (value : Octets) (given : List (Opt × Octets)) :
    p.storeAll ((o, value) :: given) = p.store o value >>= fun p => p.storeAll given := rfl

theorem storeAll_singleton (p : Progress) (o : Opt) (value : Octets) :
    p.storeAll [(o, value)] = p.store o value := by
  rw [storeAll_cons]
  cases p.store o value <;> rfl

theorem storeAll_append (p : Progress) (given given' : List (Opt × Octets)) :
    p.storeAll (given ++ given') = p.storeAll given >>= fun p => p.storeAll given' :=
  List.foldlM_append

theorem stored_nil_iff : p.Stored [] p' ↔ p = p' := by
  constructor
  · intro h
    have harguments : p'.arguments = p.arguments := eq_of_sameAt fun o => h.others o (by simp)
    have hoptions : p'.given = p.given := by simpa using h.options
    have hpending := h.pending
    cases p
    cases p'
    simp_all
  · rintro rfl
    exact ⟨by simp, by simp, by simp, fun o _ => .refl o _, rfl, rfl⟩

theorem Stored.store (hfresh : o ∉ p.given) (hassign : assign p.arguments o value = .ok a)
    (h : Stored { p with arguments := a, given := o :: p.given } given p') :
    p.Stored ((o, value) :: given) p' := by
  obtain ⟨hmeans, hsame⟩ := assign_eq_ok_iff.mp hassign
  have hnotMem : o ∉ given.map Prod.fst := fun ho => h.fresh o ho (List.mem_cons_self ..)
  refine ⟨List.nodup_cons.mpr ⟨hnotMem, h.nodup⟩, ?_, ?_, ?_, ?_, h.pending⟩
  · refine List.forall_mem_cons.mpr ⟨hfresh, fun o' ho' hgiven => ?_⟩
    exact h.fresh o' ho' (List.mem_cons_of_mem o hgiven)
  · exact List.forall_mem_cons.mpr ⟨hmeans.congr (h.others o hnotMem), h.held⟩
  · intro o' ho'
    obtain ⟨hne, ho'⟩ := List.ne_and_not_mem_of_not_mem_cons ho'
    exact (hsame o' hne).trans (h.others o' ho')
  · simpa using h.options

theorem Stored.exists_store (h : p.Stored ((o, value) :: given) p') :
    o ∉ p.given ∧ ∃ a, assign p.arguments o value = .ok a ∧
      Stored { p with arguments := a, given := o :: p.given } given p' := by
  obtain ⟨hnotMem, hnodup⟩ := List.nodup_cons.mp h.nodup
  obtain ⟨hfresh, hfreshRest⟩ := List.forall_mem_cons.mp h.fresh
  obtain ⟨hmeans, hheld⟩ := List.forall_mem_cons.mp h.held
  -- the field of the option is as in the end, the others are as they were
  let a := p.arguments.withField o p'.arguments
  have hself : SameAt o p'.arguments a := sameAt_withField_self ..
  have hsame : ∀ o', o' ≠ o → SameAt o' p.arguments a := fun o' hne =>
    sameAt_withField_of_ne hne ..
  refine ⟨hfresh, a, assign_eq_ok_iff.mpr ⟨hmeans.congr hself, hsame⟩, hnodup, ?_, hheld, ?_, ?_,
    h.pending⟩
  · intro o' ho' hgiven
    rcases List.mem_cons.mp hgiven with rfl | hgiven
    · exact hnotMem ho'
    · exact hfreshRest o' ho' hgiven
  · intro o' ho'
    by_cases hne : o' = o
    · subst hne
      exact hself.symm
    · exact (hsame o' hne).symm.trans (h.others o' (List.not_mem_cons_of_ne_of_not_mem hne ho'))
  · simpa using h.options

theorem storeAll_eq_ok_iff : p.storeAll given = .ok p' ↔ p.Stored given p' := by
  induction given generalizing p with
  | nil => rw [storeAll_nil, Except.ok.injEq, stored_nil_iff]
  | cons g given ih =>
      rw [storeAll_cons, bind_eq_ok_iff]
      constructor
      · rintro ⟨p₁, hstore, hrest⟩
        obtain ⟨hfresh, a, hassign, rfl⟩ := store_eq_ok_iff.mp hstore
        exact (ih.mp hrest).store hfresh hassign
      · intro h
        obtain ⟨hfresh, a, hassign, hrest⟩ := h.exists_store
        exact ⟨_, store_eq_ok_iff.mpr ⟨hfresh, a, hassign, rfl⟩, ih.mpr hrest⟩

/-- Where nothing was given before, values are stored if each option is given once and each value
says something. -/
theorem storeAll_initial_iff :
    (∃ p', initial.storeAll given = .ok p' ∧ p'.arguments = a) ↔
      (given.map Prod.fst).Nodup ∧ a.Holds given := by
  constructor
  · rintro ⟨p', hstore, rfl⟩
    have hstored := storeAll_eq_ok_iff.mp hstore
    exact ⟨hstored.nodup, hstored.held, hstored.others⟩
  · rintro ⟨hnodup, hhold⟩
    refine ⟨⟨a, (given.map Prod.fst).reverse, none⟩, storeAll_eq_ok_iff.mpr ?_, rfl⟩
    refine ⟨hnodup, ?_, hhold.held, hhold.others, (List.append_nil _).symm, rfl⟩
    intro o _ hgiven
    cases hgiven

end Progress

/-- A value says one thing. -/
theorem Means.sameAt (h : Means o value a) (h' : Means o value a') : SameAt o a a' := by
  have hassign : Progress.assign a o value = .ok a :=
    Progress.assign_eq_ok_iff.mpr ⟨h, fun o' _ => .refl o' a⟩
  have hassign' : Progress.assign a o value = .ok (a.withField o a') :=
    Progress.assign_eq_ok_iff.mpr
      ⟨h'.congr (sameAt_withField_self o a a'), fun o' hne => sameAt_withField_of_ne hne a a'⟩
  have hsame := sameAt_withField_self o a a'
  rw [← Except.ok.inj (hassign.symm.trans hassign')] at hsame
  exact hsame.symm

theorem Arguments.Holds.unique (h : a.Holds given) (h' : a'.Holds given) : a' = a := by
  refine eq_of_sameAt fun o => ?_
  by_cases ho : o ∈ given.map Prod.fst
  · obtain ⟨g, hg, rfl⟩ := List.mem_map.mp ho
    exact (h.held g hg).sameAt (h'.held g hg)
  · exact (h.others o ho).symm.trans (h'.others o ho)

/-- Values that say something can be held together. -/
theorem exists_holds (hnodup : (given.map Prod.fst).Nodup)
    (hmeans : ∀ g ∈ given, ∃ a, Means g.1 g.2 a) : ∃ a : Arguments, a.Holds given := by
  induction given with
  | nil => exact ⟨default, by simp, fun o _ => .refl o _⟩
  | cons g given ih =>
      obtain ⟨hnotMem, hnodup⟩ := List.nodup_cons.mp hnodup
      obtain ⟨hfirst, hrest⟩ := List.forall_mem_cons.mp hmeans
      obtain ⟨a, hheld, hothers⟩ := ih hnodup hrest
      obtain ⟨a', hmeans', hsame⟩ := exists_means_withField hfirst a
      refine ⟨a', List.forall_mem_cons.mpr ⟨hmeans', fun g' hg' => ?_⟩, fun o ho => ?_⟩
      · have hne : g'.1 ≠ g.1 := fun heq => hnotMem (heq ▸ List.mem_map_of_mem hg')
        exact (hheld g' hg').congr (hsame g'.1 hne)
      · obtain ⟨hne, ho⟩ := List.ne_and_not_mem_of_not_mem_cons ho
        exact (hothers o ho).trans (hsame o hne)

end Command

end ThermalGauge
