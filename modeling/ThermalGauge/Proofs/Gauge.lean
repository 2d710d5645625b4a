import ThermalGauge.Gauge

/-!
# What a reading goes by, and what it leaves alone

Cooling devices are read off the file tree, and the temperature sensors off the next frame.  A
gauge never writes the file tree, and it does not choose the frames that the sensors bring.
-/

namespace ThermalGauge

namespace Source

variable {σ α : Type} {f : σ → α}

/-- What every source leaves alone, asking them in order leaves alone. -/
theorem unchanged_readFrom {sources : List (Source σ)}
    (h : ∀ source ∈ sources, ∀ s, f (source.read s).state = f s) (last : Fault) (s : σ) :
    f (readFrom last sources s).state = f s := by
  induction sources generalizing last s with
  | nil => rfl
  | cons source sources ih =>
      have hsource : f (source.read s).state = f s := h source (by simp) s
      cases hread : (source.read s).outcome with
      | load load => rwa [readFrom_cons_of_load hread]
      | breakdown => rwa [readFrom_cons_of_breakdown hread]
      | fault why =>
          rw [readFrom_cons_of_fault hread]
          have hrest := ih (fun other hother => h other (List.mem_cons_of_mem _ hother)) why
            (source.read s).state
          exact hrest.trans hsource

end Source

theorem Reading.state_orSentinel {σ : Type} (r : Reading σ) : r.orSentinel.state = r.state := by
  unfold orSentinel
  split <;> rfl

/-- A reading for which the log was told something before. -/
def Reading.after {σ : Type} (r : Reading σ) (log : Log) : Reading σ :=
  ⟨r.outcome, r.state, log ++ r.log⟩

theorem Reading.orSentinel_after {σ : Type} (r : Reading σ) (log : Log) :
    (r.after log).orSentinel = r.orSentinel.after log := by
  simp only [orSentinel, after]
  split <;> simp

theorem Reading.after_after {σ : Type} (r : Reading σ) (log log' : Log) :
    (r.after log').after log = r.after (log ++ log') := by
  simp only [after, List.append_assoc]

namespace Probe

theorem tree_read (p : Probe) (s : Surroundings) : (p.source.read s).state.tree = s.tree := by
  cases p with
  | cooling root => rfl
  | components ramp =>
      simp only [source, readComponents]
      split <;> rfl
  | scripted name number => rfl

theorem frames_read (p : Probe) (s : Surroundings) :
    (p.source.read s).state.feed.frames = s.feed.frames := by
  cases p with
  | cooling root => rfl
  | components ramp =>
      simp only [source, readComponents]
      split <;> rfl
  | scripted name number => rfl

/-- Asks the probes in order; `last` is the fault that stands if there is none to ask. -/
def readFrom (last : Fault) (probes : List Probe) (s : Surroundings) : Reading Surroundings :=
  Source.readFrom last (probes.map source) s

section ReadFrom

variable {s : Surroundings} {root : Path} {ramp : Ramp} {load : Load} {why : Fault}

theorem name_source (p : Probe) : p.source.name = p.name := rfl

theorem readFrom_cooling_of_ok (h : Cooling.sample s.tree root = .ok load) (last : Fault)
    (probes : List Probe) :
    readFrom last (.cooling root :: probes) s =
      ⟨.load load, s, Cooling.log s.tree root ++ [.sourceRead Cooling.sourceName load]⟩ := by
  have hread : (cooling root).source.read s = ⟨.load load, s, Cooling.log s.tree root⟩ := by
    simp only [source, readCooling, h, Outcome.ofExcept]
  rw [readFrom, List.map_cons, Source.readFrom_cons_of_load (congrArg Reading.outcome hread), hread,
    name_source, name]

theorem readFrom_cooling_of_error (h : Cooling.sample s.tree root = .error why) (last : Fault)
    (probes : List Probe) :
    readFrom last (.cooling root :: probes) s =
      (readFrom why probes s).after
        (Cooling.log s.tree root ++ [.sourceFailed Cooling.sourceName why]) := by
  have hread : (cooling root).source.read s = ⟨.fault why, s, Cooling.log s.tree root⟩ := by
    simp only [source, readCooling, h, Outcome.ofExcept]
  simp only [readFrom, List.map_cons,
    Source.readFrom_cons_of_fault (congrArg Reading.outcome hread), hread, name_source, name,
    Reading.after, List.append_assoc, List.singleton_append]

/-- What the sensors are found to say in a frame. -/
def readFrame (ramp : Ramp) (found : List Component) : Outcome × Log :=
  match Component.sample ramp found with
  | .ok load =>
    (.load load, found.map Component.notice ++ [.sourceRead Component.sourceName load])
  | .error why =>
    (.fault why, found.map Component.notice ++ [.sourceFailed Component.sourceName why])

theorem readFrom_sensors (last : Fault) (ramp : Ramp) (s : Surroundings) :
    readFrom last [.components ramp] s =
      match s.feed.next with
      | none => ⟨.breakdown, { s with feed := s.feed.advance }, []⟩
      | some found =>
        ⟨(readFrame ramp found).1, { s with feed := s.feed.advance },
          (readFrame ramp found).2⟩ := by
  cases hnext : s.feed.next with
  | none =>
      simp only [readFrom, source, List.map_cons, Source.readFrom, readComponents, hnext]
  | some found =>
      simp only [readFrom, source, List.map_cons, List.map_nil, Source.readFrom, readComponents,
        hnext, readFrame, name]
      cases Component.sample ramp found <;> rfl

end ReadFrom

/-- Cooling devices come first, and at most one probe of the temperature sensors behind them. -/
inductive SensorsLast : List Probe → Prop
  | nil : SensorsLast []
  | sensors (ramp : Ramp) : SensorsLast [.components ramp]
  | cooling (root : Path) {probes : List Probe} (rest : SensorsLast probes) :
      SensorsLast (.cooling root :: probes)

theorem outcome_readFrom_ne_breakdown {probes : List Probe} (h : SensorsLast probes)
    (last : Fault) {s : Surroundings} (hframe : s.feed.next ≠ none) :
    (readFrom last probes s).outcome ≠ .breakdown := by
  induction h generalizing last with
  | nil => simp [readFrom]
  | sensors ramp =>
      obtain ⟨found, hfound⟩ := Option.ne_none_iff_exists'.mp hframe
      rw [readFrom_sensors, hfound]
      simp only [readFrame]
      cases Component.sample ramp found <;> simp
  | @cooling root probes rest ih =>
      cases hsample : Cooling.sample s.tree root with
      | ok load =>
          rw [readFrom_cooling_of_ok hsample]
          simp
      | error why =>
          rw [readFrom_cooling_of_error hsample]
          simpa only [Reading.after] using ih why

end Probe

theorem Component.Feed.next_ne_none {f : Component.Feed} (h : ∀ frame ∈ f.frames, frame ≠ none) :
    f.next ≠ none := by
  unfold next
  cases hframe : f.frames[f.taken]? with
  | some frame => exact h frame (List.mem_of_getElem? hframe)
  | none =>
      cases hlast : f.frames.getLast? with
      | none => simp
      | some frame => exact h frame (List.mem_of_getLast? hlast)

namespace Gauge

theorem read_eq (g : Gauge) (s : Surroundings) :
    g.read s = Probe.readFrom Source.noSources g.probes s := rfl

theorem exists_outcome_readOrSentinel {g : Gauge} (h : Probe.SensorsLast g.probes)
    {s : Surroundings} (hframe : s.feed.next ≠ none) :
    ∃ load, (g.readOrSentinel s).outcome = .load load := by
  have hbreakdown := Probe.outcome_readFrom_ne_breakdown h Source.noSources hframe
  rw [← read_eq] at hbreakdown
  simp only [readOrSentinel, Reading.orSentinel]
  cases hread : (g.read s).outcome with
  | load load => exact ⟨load, hread⟩
  | fault why => exact ⟨.sentinel, rfl⟩
  | breakdown => exact absurd hread hbreakdown

theorem unchanged_readOrSentinel {α : Type} {f : Surroundings → α}
    (h : ∀ (p : Probe) (s : Surroundings), f (p.source.read s).state = f s) (g : Gauge)
    (s : Surroundings) : f (g.readOrSentinel s).state = f s := by
  rw [readOrSentinel, Reading.state_orSentinel]
  apply Source.unchanged_readFrom
  intro source hsource s'
  obtain ⟨p, -, rfl⟩ := List.mem_map.mp hsource
  exact h p s'

theorem tree_readOrSentinel (g : Gauge) (s : Surroundings) :
    (g.readOrSentinel s).state.tree = s.tree :=
  g.unchanged_readOrSentinel (f := Surroundings.tree) Probe.tree_read s

theorem frames_readOrSentinel (g : Gauge) (s : Surroundings) :
    (g.readOrSentinel s).state.feed.frames = s.feed.frames :=
  g.unchanged_readOrSentinel (f := fun s => s.feed.frames) Probe.frames_read s

end Gauge

end ThermalGauge
