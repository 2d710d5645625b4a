import ThermalGauge.Settings
import ThermalGauge.Proofs.Text.Folding

/-!
# Names of selections

A text names a selection if it folds to one of the names that settings know the selection by.
Every other text is turned down, and what it folds to is quoted.
-/

namespace ThermalGauge

namespace Selection

/-- The names that settings know a selection by. -/
def names : Selection → List String
  | auto => ["auto"]
  | cooling => ["cooling", "cooling-devices"]
  | components => ["components"]

def IsNamedBy (selection : Selection) (text : String) : Prop :=
  ∃ name ∈ selection.names, Text.FoldsTo text name

variable {text text' folded : String} {selection : Selection}

theorem ofFolded?_eq_some_iff : ofFolded? folded = some selection ↔ folded ∈ selection.names := by
  unfold ofFolded?
  split
  · cases selection <;> decide
  · cases selection <;> decide
  · cases selection <;> decide
  · cases selection <;> decide
  · next hauto hcooling hdevices hcomponents =>
    cases selection with
    | auto => simpa [names] using hauto
    | cooling => simpa [names] using ⟨hcooling, hdevices⟩
    | components => simpa [names] using hcomponents

theorem ofName?_eq_some_iff : ofName? text = some selection ↔ selection.IsNamedBy text := by
  simp only [IsNamedBy, ofName?, ofFolded?_eq_some_iff, Text.foldsTo_iff, exists_eq_right']

theorem ofName?_eq_none_iff :
    ofName? text = none ↔ ∀ selection : Selection, ¬ selection.IsNamedBy text := by
  simp only [Option.eq_none_iff_forall_ne_some, ne_eq, ofName?_eq_some_iff]

theorem ofName?_of_varies (h : Text.Varies text text') : ofName? text' = ofName? text :=
  congrArg ofFolded? h.fold_eq

theorem ofName?_name (selection : Selection) : ofName? selection.name = some selection := by
  cases selection <;> decide

end Selection

namespace Settings

variable {text text' : String} {selection : Selection}

theorem readSelection_eq_ok_iff :
    readSelection text = .ok selection ↔ selection.IsNamedBy text := by
  rw [← Selection.ofName?_eq_some_iff, readSelection]
  cases Selection.ofName? text <;> simp

theorem readSelection_of_not_isNamedBy (h : ∀ selection : Selection, ¬ selection.IsNamedBy text) :
    readSelection text = .error (.unknownSource (Selection.fold text)) := by
  rw [readSelection, Selection.ofName?_eq_none_iff.mpr h]

theorem readSelection_of_varies (h : Text.Varies text text') :
    readSelection text' = readSelection text := by
  simp only [readSelection, Selection.ofName?_of_varies h, h.fold_eq]

/-- A text is read as the selection of which a name is left when its White_Space is trimmed and its
capital letters of ASCII are made small.  What is left of any other text is quoted in the refusal.
So neither White_Space around a text nor the case of its letters changes what is read, and the
displayed name of a selection is read as this selection however it is padded and cased. -/
theorem readSelection_by_name :
    (∀ (text : String) (selection : Selection),
        readSelection text = .ok selection ↔ selection.IsNamedBy text) ∧
      (∀ text, (∀ selection : Selection, ¬ selection.IsNamedBy text) →
        ∃ folded, Text.FoldsTo text folded ∧
          readSelection text = .error (.unknownSource folded) ∧
            (Fault.misconfigured (.unknownSource folded)).message =
              "invalid configuration: " ++ ("unknown thermal source " ++ Text.quote folded ++
                " (expected auto, cooling or components)")) ∧
        (∀ text text', Text.Varies text text' → readSelection text' = readSelection text) ∧
          ∀ (selection : Selection) (text : String),
            Text.Varies selection.name text → readSelection text = .ok selection := by
  refine ⟨?_, ?_, ?_, ?_⟩
  · intro text selection
    exact readSelection_eq_ok_iff
  · intro text hunnamed
    exact ⟨Selection.fold text, Text.foldsTo_iff.mpr rfl,
      readSelection_of_not_isNamedBy hunnamed, rfl⟩
  · intro text text' hvaries
    exact readSelection_of_varies hvaries
  · intro selection text hvaries
    have hname : readSelection selection.name = .ok selection :=
      readSelection_eq_ok_iff.mpr (Selection.ofName?_eq_some_iff.mp selection.ofName?_name)
    exact (readSelection_of_varies hvaries).trans hname

/-- An ideographic space and a next line are White_Space, and a long s is no s. -/
theorem readSelection_by_name_ideographic :
    let padded := "\u3000CooLing\u0085"
    let long := "component\u017f"
    Text.Varies (Selection.name .cooling) padded ∧ readSelection padded = .ok .cooling ∧
      (∀ selection : Selection, ¬ selection.IsNamedBy long) ∧
        ∃ folded, Text.FoldsTo long folded ∧
          readSelection long = .error (.unknownSource folded) := by
  intro padded long
  obtain ⟨-, hrefused, -, hdisplayed⟩ := readSelection_by_name
  have hpadded : Text.Varies (Selection.name .cooling) padded := by
    refine ⟨['\u3000'], "CooLing".toList, ['\u0085'], by decide +kernel, ?_, ?_⟩
    · simp [Text.whiteSpace]
    · exact Text.forall₂_sameButCase_iff.mpr (by decide +kernel)
  have hunnamed : ∀ selection : Selection, ¬ selection.IsNamedBy long :=
    Selection.ofName?_eq_none_iff.mp (by decide +kernel)
  obtain ⟨folded, hfolds, hread, -⟩ := hrefused long hunnamed
  exact ⟨hpadded, hdisplayed _ _ hpadded, hunnamed, folded, hfolds, hread⟩

/-- A zero width space is no White_Space. -/
example : readSelection "\u200bauto" = .error (.unknownSource "\u200bauto") := by decide +kernel

end Settings

end ThermalGauge
