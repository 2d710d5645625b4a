import ThermalGauge.Settings
import ThermalGauge.Text.Utf8.Lemmas

/-!
# What variables do to settings

A variable that holds a text either puts what the text says into its field, or leaves the field
alone and is the subject of one warning.  One that is not set does neither.  Nor does a value
that is no text: it counts as not set, and no warning tells so.
-/

namespace ThermalGauge

namespace Notice

/-- The variable that a notice warns of. -/
def subject? : Notice → Option Variable
  | ignored name _ | ignoredEmpty name => some name
  | _ => none

variable {n : Notice} {v : Variable}

theorem level_of_subject? (h : n.subject? = some v) : n.level = .warn := by
  cases n <;> first | rfl | cases h

theorem exists_name_of_subject? (h : n.subject? = some v) :
    ∃ front back, n.message = front ++ v.name ++ back := by
  cases n with
  | ignored name why =>
      cases h
      refine ⟨"[THM] Ignoring ", ": " ++ (Fault.misconfigured why).message, ?_⟩
      show "[THM] Ignoring " ++ v.name ++ ": " ++ (Fault.misconfigured why).message = _
      exact String.append_assoc
  | ignoredEmpty name =>
      cases h
      exact ⟨"[THM] Ignoring empty ", "", String.append_empty.symm⟩
  | _ => cases h

end Notice

def warningsOf (v : Variable) (log : Log) : Log := log.filter fun n => n.subject? = some v

namespace Settings

/-- The field of the variable is the same in both settings. -/
def SameAt (v : Variable) (s s' : Settings) : Prop :=
  match v with
  | .source => s'.selection = s.selection
  | .sysfsRoot => s'.sysfsRoot = s.sysfsRoot
  | .onsetMargin => s'.onsetMargin = s.onsetMargin

/-- The field of the variable is what the text says. -/
def Holds (v : Variable) (text : String) (s : Settings) : Prop :=
  match v with
  | .source => readSelection text = .ok s.selection
  | .sysfsRoot => Text.trim text ≠ "" ∧ s.sysfsRoot = .ofText (Text.trim text)
  | .onsetMargin => readMargin text = .ok s.onsetMargin

/-- What becomes of a variable on the way from settings to others, and the warnings of it. -/
inductive Effect (v : Variable) (s s' : Settings) : Option String → Log → Prop
  | unset (same : SameAt v s s') : Effect v s s' none []
  | applied {text : String} (holds : Holds v text s') : Effect v s s' (some text) []
  | refused {text : String} {n : Notice} (same : SameAt v s s') (subject : n.subject? = some v)
      (unfit : ∀ other, ¬ Holds v text other) : Effect v s s' (some text) [n]

variable {v w : Variable} {s s' s'' : Settings} {text : Option String} {log : Log}

theorem SameAt.refl (v : Variable) (s : Settings) : SameAt v s s := by cases v <;> rfl

theorem SameAt.trans (h : SameAt v s s') (h' : SameAt v s' s'') : SameAt v s s'' := by
  cases v <;> exact Eq.trans h' h

theorem Holds.of_sameAt {text : String} (h : Holds v text s) (hsame : SameAt v s s') :
    Holds v text s' := by
  cases v <;> simp only [Holds, SameAt] at h hsame ⊢ <;> rw [hsame] <;> exact h

namespace Effect

theorem after (h : Effect v s' s'' text log) (hsame : SameAt v s s') : Effect v s s'' text log := by
  cases h with
  | unset same => exact .unset (hsame.trans same)
  | applied holds => exact .applied holds
  | refused same subject unfit => exact .refused (hsame.trans same) subject unfit

theorem before (h : Effect v s s' text log) (hsame : SameAt v s' s'') :
    Effect v s s'' text log := by
  cases h with
  | unset same => exact .unset (same.trans hsame)
  | applied holds => exact .applied (holds.of_sameAt hsame)
  | refused same subject unfit => exact .refused (same.trans hsame) subject unfit

theorem subject_of_mem (h : Effect v s s' text log) {n : Notice} (hn : n ∈ log) :
    n.subject? = some v := by
  cases h with
  | unset => cases hn
  | applied => cases hn
  | refused _ subject => rwa [List.mem_singleton.mp hn]

theorem warningsOf_self (h : Effect v s s' text log) : warningsOf v log = log := by
  apply List.filter_eq_self.mpr
  intro n hn
  simpa using h.subject_of_mem hn

theorem warningsOf_ne (h : Effect v s s' text log) (hw : w ≠ v) : warningsOf w log = [] := by
  apply List.filter_eq_nil_iff.mpr
  intro n hn
  simpa [h.subject_of_mem hn] using hw.symm

theorem holds {text : String} (h : Effect v s s' (some text) []) : Holds v text s' := by
  cases h with
  | applied holds => exact holds

/-- A text that settings can hold is not refused. -/
theorem holds_of_fit {text : String} {other : Settings} (h : Effect v s s' (some text) log)
    (hother : Holds v text other) : Holds v text s' := by
  cases h with
  | applied holds => exact holds
  | refused _ _ unfit => exact absurd hother (unfit other)

theorem length_le (h : Effect v s s' text log) : log.length ≤ 1 := by
  cases h <;> simp

end Effect

/-- A stage reads one variable: it has its effect, and it leaves the other fields alone. -/
structure Stage (v : Variable) (s : Settings) (text : Option String) (r : Settings × Log) :
    Prop where
  effect : Effect v s r.1 text r.2
  others : ∀ w, w ≠ v → SameAt w s r.1

namespace Stage

theorem of_unset : Stage v s none (s, []) := ⟨.unset (.refl v s), fun w _ => .refl w s⟩

theorem of_refused {text : String} {n : Notice} (h : n.subject? = some v)
    (hunfit : ∀ other, ¬ Holds v text other) : Stage v s (some text) (s, [n]) :=
  ⟨.refused (.refl v s) h hunfit, fun w _ => .refl w s⟩

end Stage

theorem stage_applySource (s : Settings) (text : Option String) :
    Stage .source s text (s.applySource text) := by
  cases text with
  | none => exact .of_unset
  | some text =>
      cases h : readSelection text with
      | error why =>
          simp only [applySource, h]
          exact .of_refused rfl fun other hother => by simp [Holds, h] at hother
      | ok selection =>
          simp only [applySource, h]
          refine ⟨.applied h, fun w hw => ?_⟩
          cases w with
          | source => exact absurd rfl hw
          | _ => rfl

theorem stage_applyRoot (s : Settings) (text : Option String) :
    Stage .sysfsRoot s text (s.applyRoot text) := by
  cases text with
  | none => exact .of_unset
  | some text =>
      simp only [applyRoot]
      split
      · next h => exact .of_refused rfl fun other hother => hother.1 (by simpa using h)
      · next h =>
        refine ⟨.applied ⟨by simpa using h, rfl⟩, fun w hw => ?_⟩
        cases w with
        | sysfsRoot => exact absurd rfl hw
        | _ => rfl

theorem stage_applyMargin (s : Settings) (text : Option String) :
    Stage .onsetMargin s text (s.applyMargin text) := by
  cases text with
  | none => exact .of_unset
  | some text =>
      cases h : readMargin text with
      | error why =>
          simp only [applyMargin, h]
          exact .of_refused rfl fun other hother => by simp [Holds, h] at hother
      | ok margin =>
          simp only [applyMargin, h]
          refine ⟨.applied (by simpa only [Holds] using h), fun w hw => ?_⟩
          cases w with
          | onsetMargin => exact absurd rfl hw
          | _ => rfl

theorem warningsOf_append (v : Variable) (log log' : Log) :
    warningsOf v (log ++ log') = warningsOf v log ++ warningsOf v log' :=
  List.filter_append ..

/-- Each variable has the effect of its own stage; the others leave its field alone and warn of
their own variables only. -/
theorem effect_applyLookup (s : Settings) (lookup : Lookup) (v : Variable) :
    Effect v s (s.applyLookup lookup).1 (lookup v) (warningsOf v (s.applyLookup lookup).2) := by
  have hsource := stage_applySource s (lookup .source)
  have hroot := stage_applyRoot (s.applySource (lookup .source)).1 (lookup .sysfsRoot)
  have hmargin := stage_applyMargin
    ((s.applySource (lookup .source)).1.applyRoot (lookup .sysfsRoot)).1 (lookup .onsetMargin)
  simp only [applyLookup, warningsOf_append]
  cases v with
  | source =>
      rw [hsource.effect.warningsOf_self, hroot.effect.warningsOf_ne (by decide),
        hmargin.effect.warningsOf_ne (by decide), List.append_nil, List.append_nil]
      exact (hsource.effect.before (hroot.others _ (by decide))).before
        (hmargin.others _ (by decide))
  | sysfsRoot =>
      rw [hsource.effect.warningsOf_ne (by decide), hroot.effect.warningsOf_self,
        hmargin.effect.warningsOf_ne (by decide), List.nil_append, List.append_nil]
      exact (hroot.effect.after (hsource.others _ (by decide))).before
        (hmargin.others _ (by decide))
  | onsetMargin =>
      rw [hsource.effect.warningsOf_ne (by decide), hroot.effect.warningsOf_ne (by decide),
        hmargin.effect.warningsOf_self, List.nil_append, List.nil_append]
      exact (hmargin.effect.after (hroot.others _ (by decide))).after (hsource.others _ (by decide))

theorem exists_subject_of_mem_applyLookup {lookup : Lookup} {n : Notice}
    (hn : n ∈ (s.applyLookup lookup).2) : ∃ v, n.subject? = some v := by
  simp only [applyLookup, List.mem_append] at hn
  rcases hn with (hn | hn) | hn
  · exact ⟨_, (stage_applySource _ _).effect.subject_of_mem hn⟩
  · exact ⟨_, (stage_applyRoot _ _).effect.subject_of_mem hn⟩
  · exact ⟨_, (stage_applyMargin _ _).effect.subject_of_mem hn⟩

theorem length_warningsOf_le (s : Settings) (e : Environment) (v : Variable) :
    (warningsOf v (s.applyEnvironment e).2).length ≤ 1 := by
  have heffect := effect_applyLookup s e.lookup v
  exact heffect.length_le

/-- A variable that is set is dealt with in one of two ways, and one that is not set in another. -/
def Handled (v : Variable) (value : Option Octets) (s s' : Settings) (log : Log) : Prop :=
  match value with
  | none => SameAt v s s' ∧ warningsOf v log = []
  | some value =>
    ((∃ text, value = Utf8.encode text ∧ Holds v text s') ∧ warningsOf v log = []) ∨
      (SameAt v s s' ∧ ∃ n, warningsOf v log = [n] ∧ n.level = .warn)

section Values

variable {e : Environment}

theorem lookup_eq_some_iff {text : String} :
    e.lookup v = some text ↔ e v = some (Utf8.encode text) := by
  simp [Environment.lookup, Option.bind_eq_some_iff, Utf8.decode?_eq_some_iff]

theorem handled_of_unset (hlookup : e.lookup v = none)
    (h : Effect v s s' (e.lookup v) (warningsOf v log)) :
    SameAt v s s' ∧ warningsOf v log = [] := by
  rw [hlookup] at h
  generalize warningsOf v log = warnings at h ⊢
  cases h with
  | unset same => exact ⟨same, rfl⟩

theorem handled_of_text {text : String} (hvalue : e v = some (Utf8.encode text))
    (h : Effect v s s' (e.lookup v) (warningsOf v log)) : Handled v (e v) s s' log := by
  rw [lookup_eq_some_iff.mpr hvalue] at h
  rw [hvalue, Handled]
  generalize warningsOf v log = warnings at h ⊢
  cases h with
  | applied holds => exact .inl ⟨⟨text, rfl, holds⟩, rfl⟩
  | refused same subject => exact .inr ⟨same, _, rfl, Notice.level_of_subject? subject⟩

end Values

/-- The variables are dealt with as they should be exactly where their values are texts, and a text
that settings can hold is applied.  A value that is no text changes nothing and is not reported.
Nothing but variables is reported. -/
theorem applyEnvironment_handled_iff (s : Settings) (e : Environment) :
    let applied := s.applyEnvironment e
    (∀ v, (Handled v (e v) s applied.1 applied.2 ↔
        ∀ value, e v = some value → ∃ text, value = Utf8.encode text) ∧
      (∀ text other, e v = some (Utf8.encode text) → Holds v text other → Holds v text applied.1) ∧
      (e.lookup v = none → SameAt v s applied.1 ∧ warningsOf v applied.2 = [])) ∧
    ∀ n ∈ applied.2, ∃ v, n.subject? = some v ∧
      ∃ front back, n.message = front ++ v.name ++ back := by
  intro applied
  refine ⟨fun v => ?_, ?_⟩
  · have heffect : Effect v s applied.1 (e.lookup v) (warningsOf v applied.2) :=
      effect_applyLookup s e.lookup v
    refine ⟨⟨?_, ?_⟩, ?_, fun hlookup => handled_of_unset hlookup heffect⟩
    · intro h value hvalue
      rw [hvalue] at h
      rcases h with ⟨⟨text, htext, -⟩, -⟩ | ⟨-, n, hn, -⟩
      · exact ⟨text, htext⟩
      · -- a warning was given, so the value counted as set
        cases hlookup : e.lookup v with
        | none =>
            rw [(handled_of_unset hlookup heffect).2] at hn
            cases hn
        | some text =>
            refine ⟨text, ?_⟩
            rw [lookup_eq_some_iff, hvalue] at hlookup
            exact Option.some.inj hlookup
    · intro htext
      cases hvalue : e v with
      | none =>
          have hlookup : e.lookup v = none := by rw [Environment.lookup, hvalue]; rfl
          exact handled_of_unset hlookup heffect
      | some value =>
          obtain ⟨text, rfl⟩ := htext value hvalue
          rw [← hvalue]
          exact handled_of_text hvalue heffect
    · intro text other hvalue hother
      rw [lookup_eq_some_iff.mpr hvalue] at heffect
      exact heffect.holds_of_fit hother
  · intro n hn
    obtain ⟨v, hv⟩ := exists_subject_of_mem_applyLookup hn
    exact ⟨v, hv, Notice.exists_name_of_subject? hv⟩

/-- The octet FF begins no character; as the name of a source it is passed over in silence. -/
theorem exists_value_not_handled :
    ¬ ∀ (s : Settings) (e : Environment) (v : Variable),
      Handled v (e v) s (s.applyEnvironment e).1 (s.applyEnvironment e).2 := by
  intro h
  have hsource := h default (fun v => if v = .source then some [0xFF] else none) .source
  rcases hsource with ⟨⟨text, htext, -⟩, -⟩ | ⟨-, n, hn, -⟩
  · have hdecode : Utf8.decode? [0xFF] = some text := Utf8.decode?_eq_some_iff.mpr htext
    cases hdecode
  · cases hn

end Settings

end ThermalGauge
