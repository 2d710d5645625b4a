import ThermalGauge.Proofs.Command.Decoding

/-!
# Options as they are spelled

An option with a value is spelled in one argument or in two, by its name or by its letter.  Options
can stand in any order, each in a spelling of its own, and what is read is what they were given.
-/

namespace ThermalGauge

namespace Command

open Progress (dash equalsSign)

/-- The spellings of one option with its value.  A value that stands by itself has no dash in
front. -/
inductive Spells : Opt × Octets → List Octets → Prop
  | joined {o} (takes : o.takesValue = true) (value : Octets) :
      Spells (o, value) [o.longArgument ++ equalsSign :: value]
  | long {o value} (takes : o.takesValue = true) (undashed : value.head? ≠ some dash) :
      Spells (o, value) [o.longArgument, value]
  | short {o c value} (takes : o.takesValue = true) (letter : o.short? = some c)
      (undashed : value.head? ≠ some dash) : Spells (o, value) [dash :: Utf8.encodeChar c, value]
  | longSwitch {o} (bare : o.takesValue = false) : Spells (o, []) [o.longArgument]
  | shortSwitch {o c} (bare : o.takesValue = false) (letter : o.short? = some c) :
      Spells (o, []) [dash :: Utf8.encodeChar c]

variable {o : Opt} {c : Char} {value : Octets} {given : List (Opt × Octets)}
  {spelled : List (List Octets)}

theorem isPlain_of_undashed (h : value.head? ≠ some dash) : IsPlain value := fun hhead =>
  absurd hhead h

theorem encodeChar_ne_nil (h : o.short? = some c) : Utf8.encodeChar c ≠ [] := by
  obtain ⟨b, hencode, -, -⟩ := Opt.encodeChar_short h
  simp [hencode]

theorem reads_of_spells (h : List.Forall₂ Spells given spelled) : Reads given spelled.flatten := by
  induction h with
  | nil => exact .nil
  | cons hspells _ ih =>
      cases hspells with
      | joined takes value => exact .closed (.joined takes value) ih
      | long takes undashed => exact .valued (.waiting takes) (isPlain_of_undashed undashed) ih
      | short takes letter undashed =>
          exact .valued (.letters (encodeChar_ne_nil letter) (.waiting letter takes))
            (isPlain_of_undashed undashed) ih
      | longSwitch bare => exact .closed (.switch bare) ih
      | @shortSwitch o c bare letter =>
          have hletters : Letters [(o, [])] none (Utf8.encodeChar c) := by
            simpa using Letters.switch letter bare .nil
          exact .closed (.letters (encodeChar_ne_nil letter) hletters) ih

/-- Distinct options in any order, each with a value that says something and each in any of its
spellings, are accepted, and the arguments that are read are the ones that hold these values and
defaults for the rest.  Whatever else is accepted mentions no option twice either, and the arguments
that are read hold the values of all that are mentioned. -/
theorem parse_as_spelled :
    (∀ given spelled, (given.map Prod.fst).Nodup → (∀ g ∈ given, ∃ a, Means g.1 g.2 a) →
        List.Forall₂ Spells given spelled →
          ∃ a, parse spelled.flatten = .ok a ∧ a.Holds given ∧
            ∀ a' : Arguments, a'.Holds given → a' = a) ∧
      ∀ arguments a, parse arguments = .ok a →
        (mentions arguments).Nodup ∧
          ∃ given, Reads given arguments ∧ given.map Prod.fst = mentions arguments ∧
            a.Holds given := by
  constructor
  · intro given spelled hnodup hmeans hspells
    obtain ⟨a, hholds⟩ := exists_holds hnodup hmeans
    have hparse : parse spelled.flatten = .ok a :=
      (parse_iff_of_reads (reads_of_spells hspells)).mpr ⟨hnodup, hholds⟩
    exact ⟨a, hparse, hholds, fun a' hholds' => hholds.unique hholds'⟩
  · intro arguments a hparse
    obtain ⟨given, hreads, hnodup, hholds⟩ := parse_eq_ok_iff.mp hparse
    have hmentions := hreads.mentions_eq
    exact ⟨hmentions ▸ hnodup, given, hreads, hmentions.symm, hholds⟩

/-- All six options, by letters and by names, with a sign, an equals sign in a path and an
ideographic space before a selection. -/
theorem parse_as_spelled_six :
    let given : List (Opt × Octets) := [(.count, Utf8.encode "3"), (.watch, []),
      (.sysfsRoot, Utf8.encode "/=x"), (.source, Utf8.encode "\u3000Cooling"),
      (.onsetMargin, Utf8.encode "7.5"), (.intervalMs, Utf8.encode "+200")]
    let spelled : List (List Octets) := [[Utf8.encode "-c", Utf8.encode "3"], [Utf8.encode "-w"],
      [Utf8.encode "--sysfs-root=/=x"], [Utf8.encode "--source", Utf8.encode "\u3000Cooling"],
      [Utf8.encode "--onset-margin", Utf8.encode "7.5"], [Utf8.encode "-i", Utf8.encode "+200"]]
    (given.map Prod.fst).Nodup ∧ (∀ g ∈ given, ∃ a, Means g.1 g.2 a) ∧
      List.Forall₂ Spells given spelled ∧
        ∃ a, parse spelled.flatten = .ok a ∧ a.Holds given ∧ (mentions spelled.flatten).Nodup := by
  intro given spelled
  have hnodup : (given.map Prod.fst).Nodup := by decide
  have hmeans : ∀ g ∈ given, ∃ a, Means g.1 g.2 a := by
    have hassign : ∀ g ∈ given, (Progress.assign default g.1 g.2).toOption.isSome := by
      decide +kernel
    intro g hg
    obtain ⟨a, ha⟩ := Option.isSome_iff_exists.mp (hassign g hg)
    exact ⟨a, (Progress.assign_eq_ok_iff.mp (toOption_eq_some_iff.mp ha)).1⟩
  have hspells : List.Forall₂ Spells given spelled := by
    refine .cons (.short (c := 'c') rfl rfl ?_) <| .cons (.shortSwitch (c := 'w') rfl rfl) <|
      .cons (.joined rfl _) <| .cons (.long rfl ?_) <| .cons (.long rfl ?_) <|
        .cons (.short (c := 'i') rfl rfl ?_) .nil
    all_goals decide
  obtain ⟨a, hparse, hholds, -⟩ := parse_as_spelled.1 given spelled hnodup hmeans hspells
  exact ⟨hnodup, hmeans, hspells, a, hparse, hholds, (parse_as_spelled.2 _ a hparse).1⟩

end Command

end ThermalGauge
