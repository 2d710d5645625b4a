import ThermalGauge.Command.Run
import ThermalGauge.Proofs.Command.Decoding
import ThermalGauge.Proofs.Environment
import ThermalGauge.Proofs.Host

/-!
# Settings from arguments and from variables

The command has its settings from arguments, which it refuses where they are no good; a host has
them from variables, which it passes over then.  Given the same texts, the two have the same gauge
wherever the command has one, and one sample of the command is what a load in the host is.
-/

namespace ThermalGauge

namespace Settings

/-- Variables that hold these texts. -/
def Environment.ofTexts (texts : Variable → String) : Environment :=
  fun v => some (Utf8.encode (texts v))

/-- What such variables make of the default settings. -/
def ofTexts (texts : Variable → String) : Settings :=
  ((default : Settings).applyEnvironment (.ofTexts texts)).1

end Settings

namespace Command

def Opt.ofVariable : Variable → Opt
  | .source => source
  | .sysfsRoot => sysfsRoot
  | .onsetMargin => onsetMargin

/-- The texts as values of the options that stand for the variables. -/
def argumentsOf (texts : Variable → String) : List Octets :=
  [Variable.source, .sysfsRoot, .onsetMargin].map fun v =>
    written (.ofVariable v) (Utf8.encode (texts v))

/-- One sample with these settings. -/
def Arguments.ofSettings (s : Settings) : Arguments :=
  { (default : Arguments) with
    selection := s.selection
    sysfsRoot := s.sysfsRoot
    onsetMargin := s.onsetMargin }

/-- What the command takes from the texts. -/
structure Takes (texts : Variable → String) (s : Settings) : Prop where
  selection : Settings.readSelection (texts .source) = .ok s.selection
  root_ne : texts .sysfsRoot ≠ ""
  sysfsRoot : s.sysfsRoot = .ofText (texts .sysfsRoot)
  onsetMargin : Binary32.read (texts .onsetMargin) = .ok s.onsetMargin

/-- What a run of one sample leaves behind, where a host comes to this load, or to none. -/
inductive Transcript.AsLoad (t : Transcript) : Option Load → Prop
  | printed (load : Load) (exit : t.exit = .success) (lines : t.lines = [toString load.percent]) :
      AsLoad t (some load)
  | failed (why : Fault) (exit : t.exit = .failure) (lines : t.lines = [])
      (complaint : .complaint why ∈ t.log) : AsLoad t (some .sentinel)
  | broken (exit : t.exit = .broken) (lines : t.lines = []) : AsLoad t none

variable {texts : Variable → String} {s : Settings} {a : Arguments}

section Parse

/-- The options that stand for the variables, with the texts as their values. -/
def valuesOf (texts : Variable → String) : List (Opt × Octets) :=
  [Variable.source, .sysfsRoot, .onsetMargin].map fun v =>
    (.ofVariable v, Utf8.encode (texts v))

theorem reads_argumentsOf (texts : Variable → String) :
    Reads (valuesOf texts) (argumentsOf texts) :=
  reads_map_written (by simp [valuesOf, Opt.ofVariable, Opt.takesValue, Opt.placeholder?])

theorem takes_settings_iff :
    Takes texts a.settings ↔ ∀ v, Means (.ofVariable v) (Utf8.encode (texts v)) a := by
  constructor
  · intro htakes v
    cases v with
    | source => exact ⟨_, rfl, Settings.readSelection_eq_ok_iff.mp htakes.selection⟩
    | sysfsRoot => exact ⟨mt Utf8.encode_eq_nil_iff.mp htakes.root_ne, htakes.sysfsRoot⟩
    | onsetMargin => exact ⟨_, rfl, htakes.onsetMargin⟩
  · intro hmeans
    obtain ⟨source, hsource, hselection⟩ := hmeans .source
    obtain ⟨hne, hroot⟩ := hmeans .sysfsRoot
    obtain ⟨margin, htext, hmargin⟩ := hmeans .onsetMargin
    rw [← Utf8.encode_inj.mp hsource] at hselection
    rw [← Utf8.encode_inj.mp htext] at hmargin
    exact ⟨Settings.readSelection_eq_ok_iff.mpr hselection, mt Utf8.encode_eq_nil_iff.mpr hne,
      hroot, hmargin⟩

theorem ofSettings_settings_iff :
    Arguments.ofSettings a.settings = a ↔
      ∀ o, (∀ v, o ≠ .ofVariable v) → Arguments.SameAt o default a := by
  constructor
  · intro h o ho
    rw [← h]
    cases o with
    | source => exact absurd rfl (ho .source)
    | sysfsRoot => exact absurd rfl (ho .sysfsRoot)
    | onsetMargin => exact absurd rfl (ho .onsetMargin)
    | intervalMs | count | watch => rfl
    | help | version => trivial
  · intro h
    refine Arguments.eq_of_sameAt fun o => ?_
    cases o with
    | source | sysfsRoot | onsetMargin => rfl
    | intervalMs => exact (h .intervalMs (by rintro ⟨⟩ <;> nofun)).symm
    | count => exact (h .count (by rintro ⟨⟩ <;> nofun)).symm
    | watch => exact (h .watch (by rintro ⟨⟩ <;> nofun)).symm
    | help | version => trivial

theorem parse_argumentsOf_iff :
    parse (argumentsOf texts) = .ok a ↔ ∃ s, Takes texts s ∧ .ofSettings s = a := by
  have hmem : ∀ v, (Opt.ofVariable v, Utf8.encode (texts v)) ∈ valuesOf texts := by
    intro v
    exact List.mem_map_of_mem (by cases v <;> simp)
  have hnodup : ((valuesOf texts).map Prod.fst).Nodup := by simp [valuesOf, Opt.ofVariable]
  rw [parse_iff_of_reads (reads_argumentsOf texts)]
  constructor
  · rintro ⟨-, hholds⟩
    refine ⟨a.settings, takes_settings_iff.mpr fun v => hholds.held _ (hmem v),
      ofSettings_settings_iff.mpr fun o ho => hholds.others o ?_⟩
    simpa [valuesOf] using ⟨ho .source, ho .sysfsRoot, ho .onsetMargin⟩
  · rintro ⟨s, htakes, rfl⟩
    refine ⟨hnodup, ?_, fun o ho => ofSettings_settings_iff.mp rfl o fun v => ?_⟩
    · simpa [valuesOf] using And.intro (takes_settings_iff.mp htakes .source)
        ⟨takes_settings_iff.mp htakes .sysfsRoot, takes_settings_iff.mp htakes .onsetMargin⟩
    · rintro rfl
      exact ho (List.mem_map_of_mem (hmem v))

end Parse

section Variables

variable {g : Gauge}

theorem effect_ofTexts (texts : Variable → String) (v : Variable) :
    Settings.Effect v default (.ofTexts texts) (some (texts v))
      (warningsOf v ((default : Settings).applyEnvironment (.ofTexts texts)).2) := by
  have hlookup : (Settings.Environment.ofTexts texts).lookup v = some (texts v) :=
    Settings.lookup_eq_some_iff.mpr rfl
  have heffect :=
    Settings.effect_applyLookup default (Settings.Environment.ofTexts texts).lookup v
  rwa [hlookup] at heffect

theorem selection_ofTexts (htakes : Takes texts s) :
    s.selection = (Settings.ofTexts texts).selection := by
  have hholds : Settings.Holds .source (texts .source) s := htakes.selection
  have hholds' := (effect_ofTexts texts .source).holds_of_fit hholds
  rw [Settings.Holds, htakes.selection] at hholds'
  exact Except.ok.inj hholds'

theorem sysfsRoot_ofTexts (hroot : Text.trim (texts .sysfsRoot) = texts .sysfsRoot)
    (htakes : Takes texts s) : s.sysfsRoot = (Settings.ofTexts texts).sysfsRoot := by
  have hholds : Settings.Holds .sysfsRoot (texts .sysfsRoot) s := by
    rw [Settings.Holds, hroot]
    exact ⟨htakes.root_ne, htakes.sysfsRoot⟩
  have hholds' := (effect_ofTexts texts .sysfsRoot).holds_of_fit hholds
  rw [Settings.Holds, hroot] at hholds'
  rw [htakes.sysfsRoot, hholds'.2]

theorem onsetMargin_ofTexts (hmargin : Text.trim (texts .onsetMargin) = texts .onsetMargin)
    (htakes : Takes texts s) (hs : s.Usable) :
    s.onsetMargin = (Settings.ofTexts texts).onsetMargin := by
  have hread : Settings.readMargin (texts .onsetMargin) = .ok s.onsetMargin := by
    rw [Settings.readMargin_eq_ok_iff, hmargin]
    exact ⟨htakes.onsetMargin, hs⟩
  have hholds : Settings.Holds .onsetMargin (texts .onsetMargin) s := by
    simpa only [Settings.Holds] using hread
  have hholds' := (effect_ofTexts texts .onsetMargin).holds_of_fit hholds
  simp only [Settings.Holds, hread] at hholds'
  exact Except.ok.inj hholds'

/-- The margin is all that variables may pass over where the command has a gauge, and then the gauge
does not depend on it. -/
theorem build_ofTexts (hroot : Text.trim (texts .sysfsRoot) = texts .sysfsRoot)
    (hmargin : Text.trim (texts .onsetMargin) = texts .onsetMargin) (htakes : Takes texts s)
    (hbuild : s.build = .ok g) : (Settings.ofTexts texts).build = .ok g := by
  have hsame : s.build = (Settings.ofTexts texts).build :=
    Settings.build_congr (selection_ofTexts htakes) (sysfsRoot_ofTexts hroot htakes) fun hs =>
      onsetMargin_ofTexts hmargin htakes (Settings.usable_of_build hbuild hs)
  rw [← hsame, hbuild]

/-- What variables do not warn of, the command takes. -/
theorem takes_ofTexts (hroot : Text.trim (texts .sysfsRoot) = texts .sysfsRoot)
    (hmargin : Text.trim (texts .onsetMargin) = texts .onsetMargin)
    (hwarnings : ∀ v, warningsOf v
      ((default : Settings).applyEnvironment (.ofTexts texts)).2 = []) :
    Takes texts (.ofTexts texts) := by
  have hholds : ∀ v, Settings.Holds v (texts v) (.ofTexts texts) := by
    intro v
    have heffect := effect_ofTexts texts v
    rw [hwarnings v] at heffect
    exact heffect.holds
  have hselection := hholds .source
  have hpath := hholds .sysfsRoot
  have hread := hholds .onsetMargin
  simp only [Settings.Holds, hroot] at hselection hpath hread
  rw [Settings.readMargin_eq_ok_iff, hmargin] at hread
  exact ⟨hselection, hpath.1, hpath.2, hread.1⟩

end Variables

section Samples

variable {g : Gauge}

theorem run_argumentsOf (htakes : Takes texts s) (hbuild : s.build = .ok g)
    (events : Option (List Watch.Event)) (surroundings : Surroundings)
    (handler : Except String Unit) :
    run (argumentsOf texts) events surroundings handler =
      let samples := takeSamples g 1 .success surroundings
      ⟨samples.exit, samples.lines,
        .argumentsTaken (Arguments.ofSettings s).fields :: samples.log, none⟩ := by
  have hparse : parse (argumentsOf texts) = .ok (.ofSettings s) :=
    parse_argumentsOf_iff.mpr ⟨s, htakes, rfl⟩
  have hsettings : (Arguments.ofSettings s).settings.build = .ok g := hbuild
  simp only [run, hparse, runArguments, hsettings]
  rfl

/-- A run of one sample comes to what a load comes to in a host that has the gauge. -/
theorem asLoad_run {h : Host} (htakes : Takes texts s) (hbuild : s.build = .ok g)
    (hensure : h.ensure.2.1 = g) (events : Option (List Watch.Event))
    (handler : Except String Unit) :
    (run (argumentsOf texts) events h.surroundings handler).AsLoad h.load.2.1 := by
  rw [run_argumentsOf htakes hbuild, Host.outcome_load, hensure]
  simp only [takeSamples, Gauge.readOrSentinel, Reading.orSentinel]
  cases hread : (g.read h.surroundings).outcome with
  | load load =>
      simp only [hread]
      exact .printed load rfl rfl
  | fault why =>
      simp only
      exact .failed why rfl rfl (by simp)
  | breakdown =>
      simp only [hread]
      exact .broken rfl rfl

end Samples

/-- Give the command and the variables of a new host the same texts, of which the root and the
margin are free of blanks at their ends.  Where the command accepts its arguments and builds, the
host is set up with the same gauge, and its load is the number that the command prints, or the
sentinel where the command complains instead.  Where the host has nothing to warn of, the command
accepts its arguments and builds that gauge. -/
theorem run_agrees_with_load (texts : Variable → String)
    (hroot : Text.trim (texts .sysfsRoot) = texts .sysfsRoot)
    (hmargin : Text.trim (texts .onsetMargin) = texts .onsetMargin)
    (events : Option (List Watch.Event)) (surroundings : Surroundings)
    (handler : Except String Unit) :
    let h : Host := ⟨none, .ofTexts texts, surroundings⟩
    (∀ a g, parse (argumentsOf texts) = .ok a → a.settings.build = .ok g →
        h.load.1.gauge? = some g ∧
          (run (argumentsOf texts) events surroundings handler).AsLoad h.load.2.1 ∧
          ((∀ frame ∈ surroundings.feed.frames, frame ≠ none) → ∃ load, h.load.2.1 = some load)) ∧
      ((∀ v, warningsOf v h.ensure.2.2 = []) →
        ∃ a g, parse (argumentsOf texts) = .ok a ∧ a.settings.build = .ok g ∧
          h.load.1.gauge? = some g) := by
  intro h
  have hensure : ∀ {g}, (Settings.ofTexts texts).build = .ok g →
      h.ensure.2 = (g, ((default : Settings).applyEnvironment (.ofTexts texts)).2) := by
    intro g hbuild
    have hnone : h.gauge? = none := rfl
    have hsetUp : Host.setUp h.environment = _ := Host.setUp_of_build hbuild
    rw [Host.ensure_of_none hnone, hsetUp]
  refine ⟨?_, ?_⟩
  · intro a g hparse hbuild
    obtain ⟨s, htakes, rfl⟩ := parse_argumentsOf_iff.mp hparse
    have hgauge : h.ensure.2.1 = g := by rw [hensure (build_ofTexts hroot hmargin htakes hbuild)]
    refine ⟨by rw [Host.gauge?_load, hgauge], asLoad_run htakes hbuild hgauge events handler, ?_⟩
    intro hframes
    obtain ⟨load, hload⟩ := Gauge.exists_outcome_readOrSentinel
      (Settings.sensorsLast_of_build hbuild) (Component.Feed.next_ne_none hframes)
    exact ⟨load, by rw [Host.outcome_load, hgauge, hload]⟩
  · intro hwarnings
    obtain ⟨g, hbuild, -⟩ := Settings.exists_build_applyEnvironment (.ofTexts texts)
    rw [hensure hbuild] at hwarnings
    have htakes := takes_ofTexts hroot hmargin hwarnings
    exact ⟨.ofSettings (.ofTexts texts), g, parse_argumentsOf_iff.mpr ⟨_, htakes, rfl⟩, hbuild,
      by rw [Host.gauge?_load, hensure hbuild]⟩

/-- A device with one of its four steps taken, below a directory `root`. -/
def quarter : Surroundings :=
  let device := Path.ofText "root/cooling_device0"
  ⟨.ofEdits [.device device (some (Utf8.encode "1")) (some (Utf8.encode "4"))], .ofFrames [], []⟩

/-- A margin of nothing is refused by the variables only, and makes no difference here. -/
theorem run_agrees_with_load_cooling :
    let texts : Variable → String
      | .source => "Cooling"
      | .sysfsRoot => "root"
      | .onsetMargin => "0"
    let h : Host := ⟨none, .ofTexts texts, quarter⟩
    let t := run (argumentsOf texts) none quarter
    Text.trim (texts .sysfsRoot) = texts .sysfsRoot ∧
      Text.trim (texts .onsetMargin) = texts .onsetMargin ∧
      h.load.1.gauge? = some ⟨.cooling, [.cooling (.ofText "root")]⟩ ∧
      t.AsLoad h.load.2.1 ∧ h.load.2.1 = some ⟨25, by decide⟩ ∧ t.lines = ["25"] := by
  intro texts h t
  have hroot : Text.trim (texts .sysfsRoot) = texts .sysfsRoot := by decide +kernel
  have hmargin : Text.trim (texts .onsetMargin) = texts .onsetMargin := by decide +kernel
  have hsource : Settings.readSelection "Cooling" = .ok .cooling := by
    have hname : Selection.ofName? "Cooling" = some .cooling := by decide +kernel
    rw [Settings.readSelection, hname]
  have hread : Binary32.read "0" = .ok (.ofNat 0) := by
    have hdecimal : Decimal.read? ['0'] = some ⟨0, 0⟩ := by decide +kernel
    have hround : Decimal.round false ⟨0, 0⟩ = .ofNat 0 := by decide +kernel
    show Decimal.readUnsigned false ['0'] = _
    rw [Decimal.readUnsigned, hdecimal, ← hround]
  have htakes : Takes texts ⟨.cooling, .ofText "root", .ofNat 0⟩ :=
    ⟨hsource, by decide, rfl, hread⟩
  have hparse := parse_argumentsOf_iff.mpr ⟨_, htakes, rfl⟩
  have hbuild : Settings.build ⟨.cooling, .ofText "root", .ofNat 0⟩ =
      .ok ⟨.cooling, [.cooling (.ofText "root")]⟩ := rfl
  obtain ⟨hgauge, hagrees, -⟩ :=
    (run_agrees_with_load texts hroot hmargin none quarter (.ok ())).1 _ _ hparse hbuild
  have hload : h.load.2.1 = some ⟨25, by decide⟩ := by
    rw [Host.outcome_load, Option.some.inj ((Host.gauge?_load h).symm.trans hgauge)]
    decide +kernel
  have hlines : t.lines = ["25"] := by
    have hprinted := hagrees
    rw [hload] at hprinted
    cases hprinted with
    | printed _ _ lines => exact lines
  exact ⟨hroot, hmargin, hgauge, hagrees, hload, hlines⟩

end Command

end ThermalGauge
