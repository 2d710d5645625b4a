import ThermalGauge.Proofs.Gauge
import ThermalGauge.Settings

/-!
# Temperature sensors in reserve

A gauge of the automatic selection reads the cooling devices, and is a gauge of the temperature
sensors where those have no load.  A reading of the cooling devices changes nothing, so it takes
frames exactly where and as that one does, through any sequence of uses and edits.
-/

namespace ThermalGauge

/-- Two readings that tell the log different things at most. -/
def Reading.SameButLog {σ : Type} (r r' : Reading σ) : Prop :=
  r.outcome = r'.outcome ∧ r.state = r'.state

namespace Reading.SameButLog

variable {σ : Type} {r r' : Reading σ}

theorem outcome_orSentinel (h : r.SameButLog r') :
    r.orSentinel.outcome = r'.orSentinel.outcome := by
  have houtcome := h.1
  unfold orSentinel
  cases hr : r.outcome <;> rw [hr] at houtcome <;> simp [hr, ← houtcome]

theorem orSentinel (h : r.SameButLog r') : r.orSentinel.SameButLog r'.orSentinel := by
  refine ⟨h.outcome_orSentinel, ?_⟩
  rw [state_orSentinel, state_orSentinel]
  exact h.2

end Reading.SameButLog

namespace Source

variable {σ : Type} {source : Source σ} {s : σ}

theorem sameButLog_readFirst_singleton (source : Source σ) (s : σ) :
    (readFirst [source] s).SameButLog (source.read s) := by
  unfold readFirst
  cases h : (source.read s).outcome with
  | load load => exact ⟨by rw [readFrom_cons_of_load h, h], by rw [readFrom_cons_of_load h]⟩
  | fault why => exact ⟨by simp [readFrom_cons_of_fault h, h], by simp [readFrom_cons_of_fault h]⟩
  | breakdown => rw [readFrom_cons_of_breakdown h]; exact ⟨rfl, rfl⟩

theorem sameButLog_readFirst_of_load {load : Load} (h : (source.read s).outcome = .load load)
    (sources : List (Source σ)) : (readFirst (source :: sources) s).SameButLog (source.read s) := by
  rw [readFirst, readFrom_cons_of_load h]
  exact ⟨h.symm, rfl⟩

/-- Where a source has no load, the next ones are asked in its stead. -/
theorem sameButLog_readFirst_of_fault {why : Fault} (h : (source.read s).outcome = .fault why)
    (next : Source σ) (sources : List (Source σ)) :
    (readFirst (source :: next :: sources) s).SameButLog
      (readFirst (next :: sources) (source.read s).state) := by
  rw [readFirst, readFrom_cons_of_fault h]
  exact ⟨rfl, rfl⟩

end Source

namespace Gauge

/-- What a gauge is used for, or what happens to the tree between two uses. -/
inductive Use where
  | read
  | readOrSentinel
  | edit (e : Edit)

/-- The outcome of a use, if it has one, and the surroundings after it. -/
def Use.result (read : Surroundings → Reading Surroundings) (s : Surroundings) :
    Use → Option Outcome × Surroundings
  | .read => (some (read s).outcome, (read s).state)
  | .readOrSentinel => (some (read s).orSentinel.outcome, (read s).orSentinel.state)
  | .edit e => (none, s.edit e)

def runUses (read : Surroundings → Reading Surroundings) :
    Surroundings → List Use → List (Option Outcome) × Surroundings
  | s, [] => ([], s)
  | s, use :: uses =>
    let (outcome, s) := use.result read s
    let (outcomes, s) := runUses read s uses
    (outcome :: outcomes, s)

/-- Reads with `first`, or else with `second` as if `first` had not been asked. -/
def readOrElse (first second : Gauge) (s : Surroundings) : Reading Surroundings :=
  match (first.read s).outcome with
  | .load _ => first.read s
  | _ => second.read s

theorem runUses_congr {read read' : Surroundings → Reading Surroundings}
    (h : ∀ s, (read s).SameButLog (read' s)) (s : Surroundings) (uses : List Use) :
    runUses read s uses = runUses read' s uses := by
  have hresult : ∀ (s : Surroundings) (use : Use), use.result read s = use.result read' s := by
    intro s use
    cases use with
    | read => exact Prod.ext (congrArg some (h s).1) (h s).2
    | readOrSentinel => exact Prod.ext (congrArg some (h s).orSentinel.1) (h s).orSentinel.2
    | edit e => rfl
  induction uses generalizing s with
  | nil => rfl
  | cons use uses ih => simp only [runUses, hresult, ih]

theorem sameButLog_read_cooling (root : Path) (s : Surroundings) :
    (read ⟨.cooling, [.cooling root]⟩ s).SameButLog
      ⟨.ofExcept (Cooling.sample s.tree root), s, []⟩ :=
  Source.sameButLog_readFirst_singleton _ _

theorem read_auto_of_load {root : Path} {s : Surroundings} {load : Load}
    (h : Cooling.sample s.tree root = .ok load) (ramp : Ramp) :
    (read ⟨.auto, [.cooling root, .components ramp]⟩ s).SameButLog ⟨.load load, s, []⟩ := by
  have hsource : ((Probe.cooling root).source.read s).outcome = .load load := by
    simp only [Probe.source, Probe.readCooling, h, Outcome.ofExcept]
  have hread := Source.sameButLog_readFirst_of_load hsource [(Probe.components ramp).source]
  exact ⟨hread.1.trans hsource, hread.2⟩

theorem read_auto_of_fault {root : Path} {s : Surroundings} {why : Fault}
    (h : Cooling.sample s.tree root = .error why) (ramp : Ramp) :
    (read ⟨.auto, [.cooling root, .components ramp]⟩ s).SameButLog
      (read ⟨.components, [.components ramp]⟩ s) := by
  have hsource : ((Probe.cooling root).source.read s).outcome = .fault why := by
    simp only [Probe.source, Probe.readCooling, h, Outcome.ofExcept]
  exact Source.sameButLog_readFirst_of_fault hsource (Probe.components ramp).source []

theorem readOrElse_of_load {first second : Gauge} {s : Surroundings} {load : Load}
    (h : (first.read s).outcome = .load load) : readOrElse first second s = first.read s := by
  simp only [readOrElse, h]

theorem readOrElse_of_fault {first second : Gauge} {s : Surroundings} {why : Fault}
    (h : (first.read s).outcome = .fault why) : readOrElse first second s = second.read s := by
  simp only [readOrElse, h]

theorem sameButLog_read_auto (root : Path) (ramp : Ramp) (s : Surroundings) :
    (read ⟨.auto, [.cooling root, .components ramp]⟩ s).SameButLog
      (readOrElse ⟨.cooling, [.cooling root]⟩ ⟨.components, [.components ramp]⟩ s) := by
  have hcooling := sameButLog_read_cooling root s
  cases h : Cooling.sample s.tree root with
  | ok load =>
      rw [h] at hcooling
      have hauto := read_auto_of_load h ramp
      rw [readOrElse_of_load hcooling.1]
      exact ⟨hauto.1.trans hcooling.1.symm, hauto.2.trans hcooling.2.symm⟩
  | error why =>
      rw [h] at hcooling
      rw [readOrElse_of_fault hcooling.1]
      exact read_auto_of_fault h ramp

end Gauge

namespace Settings

theorem build_components (root : Path) (margin : Binary32) :
    build ⟨.components, root, margin⟩ =
      match Ramp.ofMargin margin with
      | .error why => .error (.misconfigured why)
      | .ok ramp => .ok ⟨.components, [.components ramp]⟩ := by
  simp only [build, ramp]
  cases Ramp.ofMargin margin <;> rfl

theorem build_auto (root : Path) (margin : Binary32) :
    build ⟨.auto, root, margin⟩ =
      match Ramp.ofMargin margin with
      | .error why => .error (.misconfigured why)
      | .ok ramp => .ok ⟨.auto, [.cooling root, .components ramp]⟩ := by
  simp only [build, ramp]
  cases Ramp.ofMargin margin <;> rfl

/-- A gauge of cooling devices always builds.  With temperature sensors it is the margin alone
that a gauge fails on.  One of both has the load of the cooling devices and takes no frame, or
else the outcome and the frames of one of temperature sensors alone; so it is through any uses
and edits. -/
theorem build_auto_is_fallback (root : Path) (margin : Binary32) :
    ∃ cooling, build ⟨.cooling, root, margin⟩ = .ok cooling ∧
      match Ramp.ofMargin margin with
      | .error why =>
        build ⟨.auto, root, margin⟩ = .error (.misconfigured why) ∧
          build ⟨.components, root, margin⟩ = .error (.misconfigured why)
      | .ok _ => ∃ auto components, build ⟨.auto, root, margin⟩ = .ok auto ∧
        build ⟨.components, root, margin⟩ = .ok components ∧
        (∀ s, match (cooling.read s).outcome with
          | .load load =>
            ((auto.read s).outcome = .load load ∧ (auto.read s).state.feed = s.feed) ∧
              (auto.readOrSentinel s).outcome = .load load ∧
              (auto.readOrSentinel s).state.feed = s.feed
          | _ =>
            ((auto.read s).outcome = (components.read s).outcome ∧
                (auto.read s).state.feed = (components.read s).state.feed) ∧
              (auto.readOrSentinel s).outcome = (components.readOrSentinel s).outcome ∧
              (auto.readOrSentinel s).state.feed = (components.readOrSentinel s).state.feed) ∧
        ∀ s uses, Gauge.runUses auto.read s uses =
          Gauge.runUses (Gauge.readOrElse cooling components) s uses := by
  refine ⟨⟨.cooling, [.cooling root]⟩, rfl, ?_⟩
  rw [build_auto, build_components]
  cases Ramp.ofMargin margin with
  | error why => exact ⟨rfl, rfl⟩
  | ok ramp =>
      refine ⟨_, _, rfl, rfl, fun s => ?_,
        Gauge.runUses_congr (Gauge.sameButLog_read_auto root ramp)⟩
      have hcooling := Gauge.sameButLog_read_cooling root s
      cases h : Cooling.sample s.tree root with
      | ok load =>
          have hauto := Gauge.read_auto_of_load h ramp
          have hsentinel := hauto.orSentinel
          rw [hcooling.1, h]
          exact ⟨⟨hauto.1, congrArg _ hauto.2⟩, hsentinel.1, congrArg _ hsentinel.2⟩
      | error why =>
          have hauto := Gauge.read_auto_of_fault h ramp
          have hsentinel := hauto.orSentinel
          rw [hcooling.1, h]
          exact ⟨⟨hauto.1, congrArg _ hauto.2⟩, hsentinel.1, congrArg _ hsentinel.2⟩

end Settings

end ThermalGauge
