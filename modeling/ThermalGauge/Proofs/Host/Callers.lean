import Mathlib.Data.List.Perm.Basic
import ThermalGauge.Host.Callers
import ThermalGauge.Proofs.Environment
import ThermalGauge.Proofs.Host

/-!
# Callers in any order

Let the callers that are under way finish one after the other, from any moment of any schedule.
All told, their outcomes and the log are then the same, up to their order, whatever the schedule
was so far: which caller takes which frame makes no difference to what the frame gives, and
nothing but frames is taken.  In the end nobody is left to finish, so the callers have got what
they get when each calls after the other has been served.
-/

namespace ThermalGauge

namespace Probe

variable {probes rest : List Probe} {ramp ramp' : Ramp}

theorem SensorsLast.of_suffix (h : SensorsLast probes) (hrest : rest <:+ probes) :
    SensorsLast rest := by
  induction h with
  | nil => rw [List.suffix_nil.mp hrest]; exact .nil
  | sensors ramp =>
      rcases List.suffix_cons_iff.mp hrest with rfl | hrest
      · exact .sensors ramp
      · rw [List.suffix_nil.mp hrest]; exact .nil
  | cooling root later ih =>
      rcases List.suffix_cons_iff.mp hrest with rfl | hrest
      · exact .cooling root later
      · exact ih hrest

theorem SensorsLast.eq_of_mem (h : SensorsLast probes) (hramp : .components ramp ∈ probes)
    (hramp' : .components ramp' ∈ probes) : ramp = ramp' := by
  induction h with
  | nil => cases hramp
  | sensors _ => simp_all
  | cooling _ _ ih => exact ih (by simpa using hramp) (by simpa using hramp')

theorem subject?_of_mem_read (p : Probe) (s : Surroundings) :
    ∀ n ∈ (p.source.read s).log, n.subject? = none := by
  cases p with
  | cooling root =>
      intro n hn
      rcases Cooling.cases_of_mem_log hn with ⟨p, why, rfl⟩ | ⟨device, why, rfl⟩ <;> rfl
  | components ramp =>
      simp only [source, readComponents]
      split
      · simp
      · simp [Component.notice, Notice.subject?]
  | scripted name number => exact fun n hn => by cases hn

/-- What the next frame gives to a caller, up to its end. -/
def sense (ramp : Ramp) (s : Surroundings) : Reading Surroundings :=
  (readFrom Source.noSources [.components ramp] s).orSentinel

theorem state_sense (ramp : Ramp) (s : Surroundings) :
    (sense ramp s).state = { s with feed := s.feed.advance } := by
  rw [sense, Reading.state_orSentinel, readFrom_sensors]
  split <;> rfl

theorem readFrom_sensors_eq (last last' : Fault) (ramp : Ramp) (s : Surroundings) :
    readFrom last [.components ramp] s = readFrom last' [.components ramp] s := by
  rw [readFrom_sensors, readFrom_sensors]

/-- A caller goes by the tree alone, and then, if at all, by what there is in one frame. -/
theorem readFrom_cases (h : SensorsLast probes) (tree : FileTree) (last : Fault) :
    (∃ outcome log, ∀ s : Surroundings, s.tree = tree →
        (readFrom last probes s).orSentinel = ⟨outcome, s, log⟩) ∨
      ∃ ramp log, .components ramp ∈ probes ∧ ∀ s : Surroundings, s.tree = tree →
        (readFrom last probes s).orSentinel = (sense ramp s).after log := by
  induction h generalizing last with
  | nil => exact .inl ⟨_, _, fun s _ => rfl⟩
  | sensors ramp =>
      refine .inr ⟨ramp, [], List.mem_cons_self .., fun s _ => ?_⟩
      rw [readFrom_sensors_eq last Source.noSources]
      rfl
  | @cooling root probes rest ih =>
      cases hsample : Cooling.sample tree root with
      | ok load =>
          refine .inl ⟨.load load, Cooling.log tree root ++ [.sourceRead Cooling.sourceName load],
            fun s hs => ?_⟩
          subst hs
          rw [readFrom_cooling_of_ok hsample]
          rfl
      | error why =>
          rcases ih why with ⟨outcome, log, hlater⟩ | ⟨ramp, log, hramp, hlater⟩
          · refine .inl ⟨outcome, Cooling.log tree root ++
              [.sourceFailed Cooling.sourceName why] ++ log, fun s hs => ?_⟩
            subst hs
            rw [readFrom_cooling_of_error hsample, Reading.orSentinel_after, hlater s rfl]
            rfl
          · refine .inr ⟨ramp, Cooling.log tree root ++
              [.sourceFailed Cooling.sourceName why] ++ log, List.mem_cons_of_mem _ hramp,
              fun s hs => ?_⟩
            subst hs
            rw [readFrom_cooling_of_error hsample, Reading.orSentinel_after, hlater s rfl,
              Reading.after_after]

end Probe

namespace Host

namespace Callers

open scoped List

/-- What a caller gets who makes all the steps that are left to it. -/
def finish (g : Gauge) (s : Surroundings) : Stage → Reading Surroundings
  | .arriving => g.readOrSentinel s
  | .asking probes last => (Probe.readFrom last probes s).orSentinel
  | .served load => ⟨.load load, s, []⟩
  | .broken => ⟨.breakdown, s, []⟩

/-- The probes that are still to be asked are probes of this gauge. -/
def Uses (g : Gauge) : Stage → Prop
  | .asking probes _ => probes <:+ g.probes
  | _ => True

/-- What several callers get, what the log is told, and where it ends. -/
structure Results where
  outcomes : List Outcome
  log : Log
  surroundings : Surroundings

def finishAll (g : Gauge) (s : Surroundings) : List Stage → Results
  | [] => ⟨[], [], s⟩
  | stage :: stages =>
    let r := finish g s stage
    let later := finishAll g r.state stages
    ⟨r.outcome :: later.outcomes, r.log ++ later.log, later.surroundings⟩

structure Results.Reordered (r r' : Results) : Prop where
  outcomes : r.outcomes.Perm r'.outcomes
  log : r.log.Perm r'.log
  surroundings : r.surroundings = r'.surroundings

namespace Results

variable {r r' r'' : Results}

def after (r : Results) (log : Log) : Results := ⟨r.outcomes, log ++ r.log, r.surroundings⟩

theorem after_after (r : Results) (log log' : Log) :
    (r.after log').after log = r.after (log ++ log') := by
  simp only [after, List.append_assoc]

theorem Reordered.refl (r : Results) : r.Reordered r := ⟨.refl _, .refl _, rfl⟩

theorem Reordered.trans (h : r.Reordered r') (h' : r'.Reordered r'') : r.Reordered r'' :=
  ⟨h.outcomes.trans h'.outcomes, h.log.trans h'.log, h.surroundings.trans h'.surroundings⟩

theorem Reordered.symm (h : r.Reordered r') : r'.Reordered r :=
  ⟨h.outcomes.symm, h.log.symm, h.surroundings.symm⟩

theorem Reordered.after (h : r.Reordered r') (log : Log) :
    (r.after log).Reordered (r'.after log) :=
  ⟨h.outcomes, h.log.append_left log, h.surroundings⟩

end Results

variable {g : Gauge} {s : Surroundings} {stage stage' : Stage} {stages stages' : List Stage}

theorem finish_cases (hg : Probe.SensorsLast g.probes) (hstage : Uses g stage) (tree : FileTree) :
    (∃ outcome log, ∀ s : Surroundings, s.tree = tree → finish g s stage = ⟨outcome, s, log⟩) ∨
      ∃ ramp log, .components ramp ∈ g.probes ∧ ∀ s : Surroundings, s.tree = tree →
        finish g s stage = (Probe.sense ramp s).after log := by
  cases stage with
  | arriving => exact Probe.readFrom_cases hg tree Source.noSources
  | asking probes last =>
      rcases Probe.readFrom_cases (hg.of_suffix hstage) tree last with
        hsettled | ⟨ramp, log, hramp, hfinish⟩
      · exact .inl hsettled
      · exact .inr ⟨ramp, log, hstage.subset hramp, hfinish⟩
  | served load => exact .inl ⟨_, _, fun s _ => rfl⟩
  | broken => exact .inl ⟨_, _, fun s _ => rfl⟩

/-- Two callers may finish in either order.  If both take a frame, each gets the other's. -/
theorem finishAll_swap (hg : Probe.SensorsLast g.probes) (hstage : Uses g stage)
    (hstage' : Uses g stage') (s : Surroundings) (stages : List Stage) :
    (finishAll g s (stage :: stage' :: stages)).Reordered
      (finishAll g s (stage' :: stage :: stages)) := by
  have hsense : ∀ ramp, (Probe.sense ramp s).state.tree = s.tree := fun ramp => by
    rw [Probe.state_sense]
  rcases finish_cases hg hstage s.tree with ⟨outcome, log, hfinish⟩ | ⟨ramp, log, hramp, hfinish⟩
  · rcases finish_cases hg hstage' s.tree with
      ⟨outcome', log', hfinish'⟩ | ⟨ramp', log', hramp', hfinish'⟩
    · simp only [finishAll, hfinish s rfl, hfinish' s rfl]
      exact ⟨.swap .., List.perm_append_comm_assoc .., rfl⟩
    · simp only [finishAll, hfinish s rfl, hfinish' s rfl, Reading.after, hfinish _ (hsense ramp')]
      exact ⟨.swap .., List.perm_append_comm_assoc .., rfl⟩
  · rcases finish_cases hg hstage' s.tree with
      ⟨outcome', log', hfinish'⟩ | ⟨ramp', log', hramp', hfinish'⟩
    · simp only [finishAll, hfinish s rfl, hfinish' s rfl, Reading.after, hfinish' _ (hsense ramp)]
      exact ⟨.swap .., List.perm_append_comm_assoc .., rfl⟩
    · cases hg.eq_of_mem hramp hramp'
      simp only [finishAll, hfinish s rfl, hfinish' s rfl, Reading.after, hfinish _ (hsense ramp),
        hfinish' _ (hsense ramp), List.append_assoc]
      refine ⟨.refl _, ?_, rfl⟩
      calc
        _ ~ log ++ (log' ++ _) := (List.perm_append_comm_assoc ..).append_left log
        _ ~ log' ++ (log ++ _) := List.perm_append_comm_assoc ..
        _ ~ _ := (List.perm_append_comm_assoc ..).append_left log'

theorem finishAll_cons_of_finish {s' : Surroundings} {log : Log}
    (h : finish g s stage = (finish g s' stage').after log) (stages : List Stage) :
    finishAll g s (stage :: stages) = (finishAll g s' (stage' :: stages)).after log := by
  simp only [finishAll, h, Reading.after, Results.after, List.append_assoc]

theorem Results.Reordered.cons (g : Gauge) (s : Surroundings) (stage : Stage)
    (h : ∀ s, (finishAll g s stages).Reordered (finishAll g s stages')) :
    (finishAll g s (stage :: stages)).Reordered (finishAll g s (stage :: stages')) := by
  have hlater := h (finish g s stage).state
  exact ⟨hlater.outcomes.cons _, hlater.log.append_left _, hlater.surroundings⟩

/-- Callers may finish in any order. -/
theorem finishAll_perm (hg : Probe.SensorsLast g.probes) (h : stages.Perm stages')
    (hstages : ∀ stage ∈ stages, Uses g stage) (s : Surroundings) :
    (finishAll g s stages).Reordered (finishAll g s stages') := by
  induction h generalizing s with
  | nil => exact .refl _
  | cons stage _ ih =>
      have hlater : ∀ other ∈ _, Uses g other := fun other hother =>
        hstages other (List.mem_cons_of_mem _ hother)
      exact .cons g s stage fun s => ih hlater s
  | swap stage stage' stages =>
      exact finishAll_swap hg (hstages _ (by simp)) (hstages _ (by simp)) s stages
  | trans h _ ih ih' =>
      have hlater : ∀ other ∈ _, Uses g other := fun other hother =>
        hstages other (h.mem_iff.mpr hother)
      exact (ih hstages s).trans (ih' hlater s)

/-- The steps that a caller can still make. -/
def left (g : Gauge) : Stage → Nat
  | .arriving => g.probes.length + 2
  | .asking probes _ => probes.length + 1
  | _ => 0

/-- What a step of a caller whose host has the gauge does: it brings the caller nearer to its end,
and what it tells the log is taken off what is still to come. -/
structure Stepped (g : Gauge) (h : Host) (stage : Stage) (r : Host × Stage × Log) : Prop where
  gauge? : r.1.gauge? = h.gauge?
  environment : r.1.environment = h.environment
  uses : Uses g stage → Uses g r.2.1
  finish : finish g h.surroundings stage = (finish g r.1.surroundings r.2.1).after r.2.2
  silent : ∀ n ∈ r.2.2, n.subject? = none
  left : left g r.2.1 ≤ left g stage - 1

theorem stepped_asking (h : Host) (probe : Probe) (probes : List Probe) (last : Fault) :
    Stepped g h (.asking (probe :: probes) last)
      (stepStage h (.asking (probe :: probes) last)) := by
  have hsilent := probe.subject?_of_mem_read h.surroundings
  cases hread : (probe.source.read h.surroundings).outcome with
  | load load =>
      have hfinish := Source.readFrom_cons_of_load hread last (probes.map Probe.source)
      simp only [stepStage, hread]
      refine ⟨rfl, rfl, fun _ => trivial, ?_, ?_, Nat.zero_le _⟩
      · simp only [finish, Probe.readFrom, List.map_cons, hfinish, Reading.orSentinel,
          Reading.after, List.append_nil]
        rfl
      · simpa [or_imp, forall_and] using ⟨hsilent, rfl⟩
  | fault why =>
      have hfinish := Source.readFrom_cons_of_fault hread last (probes.map Probe.source)
      simp only [stepStage, hread]
      refine ⟨rfl, rfl, fun huses => (List.suffix_cons ..).trans huses, ?_, ?_, by simp [left]⟩
      · rw [finish, Probe.readFrom, List.map_cons, hfinish, finish, ← Reading.orSentinel_after]
        simp only [Reading.after, Probe.readFrom, List.append_assoc]
        rfl
      · simpa [or_imp, forall_and] using ⟨hsilent, rfl⟩
  | breakdown =>
      have hfinish := Source.readFrom_cons_of_breakdown hread last (probes.map Probe.source)
      simp only [stepStage, hread]
      refine ⟨rfl, rfl, fun _ => trivial, ?_, hsilent, Nat.zero_le _⟩
      simp only [finish, Probe.readFrom, List.map_cons, hfinish, Reading.orSentinel, hread,
        Reading.after, List.append_nil]
      rw [← hread]

theorem stepped (h : Host) (hg : h.gauge? = some g) (stage : Stage) :
    Stepped g h stage (stepStage h stage) := by
  cases stage with
  | arriving =>
      simp only [stepStage, ensure_of_some hg]
      exact ⟨rfl, rfl, fun _ => List.suffix_refl _, rfl, by simp, Nat.le_refl _⟩
  | served load => exact ⟨rfl, rfl, id, rfl, by simp [stepStage], Nat.le_refl _⟩
  | broken => exact ⟨rfl, rfl, id, rfl, by simp [stepStage], Nat.le_refl _⟩
  | asking probes last =>
      cases probes with
      | nil =>
          exact ⟨rfl, rfl, fun _ => trivial, rfl, by simp [stepStage, Notice.subject?],
            Nat.le_refl _⟩
      | cons probe probes => exact stepped_asking h probe probes last

theorem step_of_none {c : Callers} {i : Nat} (h : c.stages[i]? = none) : c.step i = c := by
  simp only [step, h]

theorem step_of_some {c : Callers} {i : Nat} (h : c.stages[i]? = some stage) :
    c.step i =
      ⟨(stepStage c.host stage).1, c.stages.set i (stepStage c.host stage).2.1,
        c.log ++ (stepStage c.host stage).2.2⟩ := by
  simp only [step, h]

/-- Callers of whom all those that have been given a gauge have been given this one. -/
structure Share (g : Gauge) (c : Callers) : Prop where
  gauge? : c.host.gauge? = some g
  uses : ∀ stage ∈ c.stages, Uses g stage

/-- What it comes to if the callers finish one after the other. -/
def total (g : Gauge) (c : Callers) : Results :=
  (finishAll g c.host.surroundings c.stages).after c.log

/-- What a schedule does to callers who share a gauge. -/
structure Led (g : Gauge) (c c' : Callers) : Prop where
  share : Share g c'
  environment : c'.host.environment = c.host.environment
  length : c'.stages.length = c.stages.length
  total : (total g c').Reordered (total g c)
  log : ∃ told, c'.log = c.log ++ told ∧ ∀ n ∈ told, n.subject? = none

variable {c c' c'' : Callers}

theorem Led.refl (h : Share g c) : Led g c c :=
  ⟨h, rfl, rfl, .refl _, [], (List.append_nil _).symm, by simp⟩

theorem Led.trans (h : Led g c c') (h' : Led g c' c'') : Led g c c'' := by
  obtain ⟨told, htold, hsilent⟩ := h.log
  obtain ⟨told', htold', hsilent'⟩ := h'.log
  refine ⟨h'.share, h'.environment.trans h.environment, h'.length.trans h.length,
    h'.total.trans h.total, told ++ told', ?_, ?_⟩
  · rw [htold', htold, List.append_assoc]
  · intro n hn
    rcases List.mem_append.mp hn with hn | hn
    · exact hsilent n hn
    · exact hsilent' n hn

theorem Led.warningsOf_log (h : Led g c c') (v : Variable) :
    warningsOf v c'.log = warningsOf v c.log := by
  obtain ⟨told, htold, hsilent⟩ := h.log
  have hnothing : warningsOf v told = [] :=
    List.filter_eq_nil_iff.mpr fun n hn => by simp [hsilent n hn]
  rw [htold, Settings.warningsOf_append, hnothing, List.append_nil]

/-- A step brings forward what its caller does, and that can be had first as well as in turn. -/
theorem led_step (hg : Probe.SensorsLast g.probes) (h : Share g c) (i : Nat) :
    Led g c (c.step i) := by
  cases hi : c.stages[i]? with
  | none => rw [step_of_none hi]; exact .refl h
  | some stage =>
      have hstep := stepped c.host h.gauge? stage
      rw [step_of_some hi]
      generalize stepStage c.host stage = r at hstep ⊢
      obtain ⟨hlt, hget⟩ := List.getElem?_eq_some_iff.mp hi
      have hbefore : (stage :: c.stages.eraseIdx i).Perm c.stages := by
        rw [← hget]
        exact List.getElem_cons_eraseIdx_perm hlt
      have hafter : (c.stages.set i r.2.1).Perm (r.2.1 :: c.stages.eraseIdx i) :=
        List.set_perm_cons_eraseIdx hlt r.2.1
      have huses : ∀ other ∈ r.2.1 :: c.stages.eraseIdx i, Uses g other := by
        intro other hother
        rcases List.mem_cons.mp hother with rfl | hother
        · exact hstep.uses (h.uses stage (List.mem_of_getElem? hi))
        · exact h.uses other (List.mem_of_mem_eraseIdx hother)
      have huses' : ∀ other ∈ c.stages.set i r.2.1, Uses g other := fun other hother =>
        huses other (hafter.mem_iff.mp hother)
      refine ⟨⟨hstep.gauge?.trans h.gauge?, huses'⟩, hstep.environment, List.length_set ..,
        ?_, r.2.2, rfl, hstep.silent⟩
      have hlast := finishAll_perm hg hafter huses' r.1.surroundings
      have hfirst := finishAll_perm hg hbefore.symm h.uses c.host.surroundings
      rw [finishAll_cons_of_finish hstep.finish] at hfirst
      have hfirst := hfirst.symm.after c.log
      rw [Results.after_after] at hfirst
      exact (hlast.after (c.log ++ r.2.2)).trans hfirst

theorem led_run (hg : Probe.SensorsLast g.probes) (h : Share g c) (schedule : List Nat) :
    Led g c (c.run schedule) := by
  induction schedule generalizing c with
  | nil => exact .refl h
  | cons i schedule ih =>
      have hstep := led_step hg h i
      exact hstep.trans (ih hstep.share)

end Callers

end Host

end ThermalGauge
