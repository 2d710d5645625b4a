import ThermalGauge.Proofs.Environment
import ThermalGauge.Proofs.Host
import ThermalGauge.Proofs.Results
import ThermalGauge.Proofs.Text.Trimming

/-!
# Chains of changes to settings

Each field of settings depends on one variable.  A chain of lookups leaves in it what the last
text says that can be read there, so that every lookup counts as often as it is wanted.  No chain
that starts from the default settings, however its links are mixed, comes to settings that do not
build.
-/

namespace ThermalGauge

namespace Settings

/-- What the field of a variable holds. -/
def Value : Variable → Type
  | .source => Selection
  | .sysfsRoot => Path
  | .onsetMargin => Binary32

def field (s : Settings) : (v : Variable) → Value v
  | .source => s.selection
  | .sysfsRoot => s.sysfsRoot
  | .onsetMargin => s.onsetMargin

/-- What a text says about the field of a variable; a text that is not valid there says
nothing. -/
def valueOf? : (v : Variable) → String → Option (Value v)
  | .source, text => (readSelection text).toOption
  | .sysfsRoot, text =>
    if text.toList.all Text.isBlank then none else some (Path.ofText (Text.trim text))
  | .onsetMargin, text => (readMargin text).toOption

/-- The variable is set to a text that is not valid. -/
def Lookup.refuses (lookup : Lookup) (v : Variable) : Bool :=
  (lookup v).any fun text => (valueOf? v text).isNone

section Fields

variable {v : Variable} {s s' : Settings} {text : String}

theorem ext_field (h : ∀ v, s.field v = s'.field v) : s = s' := by
  obtain ⟨selection, root, margin⟩ := s
  have hselection : selection = s'.selection := h .source
  have hroot : root = s'.sysfsRoot := h .sysfsRoot
  have hmargin : margin = s'.onsetMargin := h .onsetMargin
  rw [hselection, hroot, hmargin]

theorem exists_field_eq (v : Variable) (x : Value v) : ∃ s : Settings, s.field v = x := by
  cases v with
  | source => exact ⟨{ (default : Settings) with selection := x }, rfl⟩
  | sysfsRoot => exact ⟨{ (default : Settings) with sysfsRoot := x }, rfl⟩
  | onsetMargin => exact ⟨{ (default : Settings) with onsetMargin := x }, rfl⟩

theorem sameAt_iff : SameAt v s s' ↔ s'.field v = s.field v := by cases v <;> rfl

theorem holds_iff : Holds v text s ↔ valueOf? v text = some (s.field v) := by
  cases v with
  | source => exact toOption_eq_some_iff.symm
  | onsetMargin => exact toOption_eq_some_iff.symm
  | sysfsRoot =>
      have hblank : text.toList.all Text.isBlank = true ↔ Text.trim text = "" := by
        rw [List.all_eq_true, Text.trim_eq_empty_iff]
      simp only [Holds, valueOf?, field, hblank]
      split
      · next h => simp [h]
      · next h =>
        constructor
        · rintro ⟨-, hroot⟩
          exact congrArg some hroot.symm
        · intro hroot
          exact ⟨h, (Option.some.inj hroot).symm⟩

end Fields

namespace Effect

variable {v : Variable} {s s' : Settings} {text : Option String} {log : Log}

theorem valueOf?_eq_none {text : String} (unfit : ∀ other, ¬ Holds v text other) :
    valueOf? v text = none := by
  rw [Option.eq_none_iff_forall_ne_some]
  intro x hx
  obtain ⟨other, hother⟩ := exists_field_eq v x
  exact unfit other (holds_iff.mpr (by rw [hx, hother]))

theorem field_eq (h : Effect v s s' text log) :
    s'.field v = (text.bind (valueOf? v)).getD (s.field v) := by
  cases h with
  | unset same => exact sameAt_iff.mp same
  | applied holds => rw [Option.bind_some, holds_iff.mp holds, Option.getD_some]
  | refused same _ unfit =>
      rw [Option.bind_some, valueOf?_eq_none unfit, Option.getD_none]
      exact sameAt_iff.mp same

theorem map_subject? {lookup : Lookup} (h : Effect v s s' (lookup v) log) :
    log.map Notice.subject? = ([v].filter lookup.refuses).map some := by
  generalize htext : lookup v = text at h
  cases h with
  | unset => simp [Lookup.refuses, htext]
  | applied holds => simp [Lookup.refuses, htext, holds_iff.mp holds]
  | refused _ subject unfit => simp [Lookup.refuses, htext, valueOf?_eq_none unfit, subject]

end Effect

/-- The variables in the order in which they are looked up. -/
def lookedUp : List Variable := [.source, .sysfsRoot, .onsetMargin]

section OneLookup

variable (s : Settings) (lookup : Lookup)

theorem field_applyLookup (v : Variable) :
    (s.applyLookup lookup).1.field v = ((lookup v).bind (valueOf? v)).getD (s.field v) :=
  (effect_applyLookup s lookup v).field_eq

theorem map_subject?_applyLookup :
    (s.applyLookup lookup).2.map Notice.subject? = (lookedUp.filter lookup.refuses).map some := by
  have hsource := (stage_applySource s (lookup .source)).effect.map_subject?
  have hroot := (stage_applyRoot (s.applySource (lookup .source)).1
    (lookup .sysfsRoot)).effect.map_subject?
  have hmargin := (stage_applyMargin ((s.applySource (lookup .source)).1.applyRoot
    (lookup .sysfsRoot)).1 (lookup .onsetMargin)).effect.map_subject?
  have horder : lookedUp = [.source] ++ [.sysfsRoot] ++ [.onsetMargin] := rfl
  simp only [applyLookup, List.map_append, hsource, hroot, hmargin, horder, List.filter_append]

/-- The second time, every text that can be read says what the field holds already. -/
theorem applyLookup_applyLookup :
    ((s.applyLookup lookup).1.applyLookup lookup).1 = (s.applyLookup lookup).1 := by
  apply ext_field
  intro v
  rw [field_applyLookup, field_applyLookup]
  cases (lookup v).bind (valueOf? v) <;> rfl

end OneLookup

/-- Some lookups one after the other, and all that they tell the log. -/
def applyLookups (s : Settings) : List Lookup → Settings × Log
  | [] => (s, [])
  | lookup :: lookups =>
    let (s, first) := s.applyLookup lookup
    let (s, later) := s.applyLookups lookups
    (s, first ++ later)

/-- The values that lookups give for a variable, where they are valid. -/
def valuesIn (v : Variable) (lookups : List Lookup) : List (Value v) :=
  lookups.filterMap fun lookup => (lookup v).bind (valueOf? v)

section Lookups

theorem field_applyLookups (s : Settings) (lookups : List Lookup) (v : Variable) :
    (s.applyLookups lookups).1.field v = (valuesIn v lookups).getLast?.getD (s.field v) := by
  induction lookups generalizing s with
  | nil => rfl
  | cons lookup lookups ih =>
      have hrest := ih (s.applyLookup lookup).1
      rw [field_applyLookup] at hrest
      refine hrest.trans ?_
      cases hvalue : (lookup v).bind (valueOf? v) with
      | none => simp [valuesIn, hvalue]
      | some x => simp [valuesIn, hvalue, List.getLast?_cons]

theorem map_subject?_applyLookups (s : Settings) (lookups : List Lookup) :
    (s.applyLookups lookups).2.map Notice.subject? =
      lookups.flatMap fun lookup => (lookedUp.filter lookup.refuses).map some := by
  induction lookups generalizing s with
  | nil => rfl
  | cons lookup lookups ih =>
      rw [applyLookups, List.map_append, map_subject?_applyLookup, ih, List.flatMap_cons]

theorem valuesIn_congr {v : Variable} {lookups lookups' : List Lookup}
    (h : lookups'.map (fun lookup => lookup v) = lookups.map (fun lookup => lookup v)) :
    valuesIn v lookups' = valuesIn v lookups := by
  have hmap : ∀ ls : List Lookup,
      valuesIn v ls = (ls.map fun lookup => lookup v).filterMap fun text =>
        text.bind (valueOf? v) := by
    intro ls
    rw [valuesIn, List.filterMap_map]
    rfl
  rw [hmap, hmap, h]

/-- A field holds what the last valid text for its own variable says, or what it held at first.
Every lookup warns once, and in order, of each variable that it sets to another text; and it does
the same twice as once. -/
theorem applyLookups_last_valid (s : Settings) (lookups : List Lookup) :
    let applied := s.applyLookups lookups
    (∀ v, applied.1.field v = (valuesIn v lookups).getLast?.getD (s.field v)) ∧
    (∀ (v : Variable) (s' : Settings) (lookups' : List Lookup), s'.field v = s.field v →
      lookups'.map (fun lookup => lookup v) = lookups.map (fun lookup => lookup v) →
      (s'.applyLookups lookups').1.field v = applied.1.field v) ∧
    (applied.2.map Notice.subject? =
      lookups.flatMap fun lookup => (lookedUp.filter lookup.refuses).map some) ∧
    (∀ n ∈ applied.2, n.level = .warn) ∧
    ∀ lookup, ((applied.1.applyLookup lookup).1.applyLookup lookup).1 =
      (applied.1.applyLookup lookup).1 := by
  intro applied
  have hsubjects := map_subject?_applyLookups s lookups
  refine ⟨field_applyLookups s lookups, ?_, hsubjects, ?_, ?_⟩
  · intro v s' lookups' hfield hlookups
    rw [field_applyLookups, field_applyLookups, valuesIn_congr hlookups, hfield]
  · intro n hn
    have hmem : n.subject? ∈ applied.2.map Notice.subject? := List.mem_map_of_mem hn
    rw [hsubjects, List.mem_flatMap] at hmem
    obtain ⟨lookup, -, hmem⟩ := hmem
    obtain ⟨v, -, hv⟩ := List.mem_map.mp hmem
    exact Notice.level_of_subject? hv.symm
  · exact applyLookup_applyLookup applied.1

end Lookups

/-- A link of a chain: what a lookup or the variables of a process make of settings, or a choice
of a selection or a root. -/
inductive Adjustment where
  | lookup (lookup : Lookup)
  | environment (e : Environment)
  | selection (selection : Selection)
  | sysfsRoot (root : Path)

def adjust (s : Settings) : Adjustment → Settings
  | .lookup lookup => (s.applyLookup lookup).1
  | .environment e => (s.applyEnvironment e).1
  | .selection selection => { s with selection }
  | .sysfsRoot sysfsRoot => { s with sysfsRoot }

/-- The probes of a selection, in the order in which they are read. -/
def probesOf (root : Path) (ramp : Ramp) : Selection → List Probe
  | .auto => [.cooling root, .components ramp]
  | .cooling => [.cooling root]
  | .components => [.components ramp]

section Adjustments

variable {s : Settings}

theorem Usable.adjust (h : s.Usable) (a : Adjustment) : (s.adjust a).Usable := by
  cases a with
  | lookup lookup => exact h.applyLookup lookup
  | environment e => exact h.applyEnvironment e
  | selection selection => exact h.of_onsetMargin_eq rfl
  | sysfsRoot root => exact h.of_onsetMargin_eq rfl

theorem Usable.adjustAll (h : s.Usable) (adjustments : List Adjustment) :
    (adjustments.foldl Settings.adjust s).Usable := by
  induction adjustments generalizing s with
  | nil => exact h
  | cons a adjustments ih => exact ih (h.adjust a)

theorem Usable.build_eq (h : s.Usable) :
    s.build = .ok ⟨s.selection, probesOf s.sysfsRoot ⟨s.onsetMargin, h.1, h.2⟩ s.selection⟩ := by
  unfold build
  rw [h.ramp]
  cases s.selection <;> rfl

theorem ofMargin_of_readMargin {text : String} {margin : Binary32}
    (h : readMargin text = .ok margin) :
    ∃ ramp, Ramp.ofMargin margin = .ok ramp ∧ ramp.margin = margin := by
  have hmargin := usable_of_readMargin h
  exact ⟨⟨margin, hmargin.1, hmargin.2⟩, dif_pos hmargin, rfl⟩

theorem buildOrUnavailable_of_build {gauge : Gauge} (h : s.build = .ok gauge) :
    Host.buildOrUnavailable s = (gauge, []) := by
  rw [Host.buildOrUnavailable, h]

theorem setupFailed_not_mem_applyEnvironment (s : Settings) (e : Environment) (why : Fault) :
    Notice.setupFailed why ∉ (s.applyEnvironment e).2 := by
  intro hn
  obtain ⟨v, hv⟩ := exists_subject_of_mem_applyLookup hn
  cases hv

/-- Any chain from the default settings leads to settings that build, to a gauge with the probes
of their selection, since a ramp can have every margin that is read.  So the gauge that a host
sets up is never the one that stands in where settings do not build. -/
theorem build_adjusted (adjustments : List Adjustment) :
    let s := adjustments.foldl adjust default
    (∃ ramp : Ramp, ramp.margin = s.onsetMargin ∧
      let gauge : Gauge := ⟨s.selection, probesOf s.sysfsRoot ramp s.selection⟩
      s.build = .ok gauge ∧ Host.buildOrUnavailable s = (gauge, [])) ∧
    (∀ e : Environment, ∃ gauge, ((default : Settings).applyEnvironment e).1.build = .ok gauge ∧
      Host.setUp e = (gauge, ((default : Settings).applyEnvironment e).2) ∧
      ∀ why, Notice.setupFailed why ∉ (Host.setUp e).2) ∧
    ∀ text margin, readMargin text = .ok margin →
      ∃ ramp, Ramp.ofMargin margin = .ok ramp ∧ ramp.margin = margin := by
  intro s
  have husable : s.Usable := usable_default.adjustAll adjustments
  refine ⟨⟨⟨s.onsetMargin, husable.1, husable.2⟩, rfl, husable.build_eq, ?_⟩, ?_, ?_⟩
  · exact buildOrUnavailable_of_build husable.build_eq
  · intro e
    have hbuild := (usable_default.applyEnvironment e).build_eq
    have hsetUp := Host.setUp_of_build hbuild
    refine ⟨_, hbuild, hsetUp, fun why => ?_⟩
    rw [hsetUp]
    exact setupFailed_not_mem_applyEnvironment default e why
  · intro text margin
    exact ofMargin_of_readMargin

end Adjustments

end Settings

end ThermalGauge
