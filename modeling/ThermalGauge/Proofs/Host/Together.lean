import ThermalGauge.Proofs.Host.Callers

/-!
# Callers together and in turn

However callers who arrive together are scheduled, the first of them to make a step sets the gauge
up, for all of them.  Once each has made as many steps as there are probes, and two, all are done.
They have then been told what they are told when each calls after the other, though it may be
another one of them who is told it.
-/

namespace ThermalGauge

namespace Host

/-- The reply to a load that comes to this. -/
def Reply.ofOutcome : Outcome → Reply
  | .load l => .load l
  | _ => .broke

namespace Callers

/-- What a caller who is done has been told. -/
def reply? : Stage → Option Reply
  | .served load => some (.load load)
  | .broken => some .broke
  | _ => none

/-- The callers have been told and have left what calls in turn are told and leave. -/
structure AsInTurn (c : Callers) (inTurn : Host × List (Reply × Log)) : Prop where
  replies : (c.stages.filterMap reply?).Perm (inTurn.2.map Prod.fst)
  log : c.log.Perm (inTurn.2.flatMap Prod.snd)
  host : c.host = inTurn.1

/-- How many steps of a schedule set the gauge up: those of a caller who arrives at a host without
it. -/
def setUps (c : Callers) : List Nat → Nat
  | [] => 0
  | i :: schedule =>
    (if c.host.gauge? = none ∧ c.stages[i]? = some .arriving then 1 else 0) +
      setUps (c.step i) schedule

/-- Callers none of whom has made a step, at a host that has been given its gauge. -/
def arriveReady (h : Host) (n : Nat) : Callers :=
  ⟨h.ensure.1, List.replicate n .arriving, h.ensure.2.2⟩

end Callers

section InTurn

variable {h : Host} {gauge : Gauge}

theorem call_load_of_some (hg : h.gauge? = some gauge) :
    h.call .load =
      let r := gauge.readOrSentinel h.surroundings
      ({ h with surroundings := r.state }, .ofOutcome r.outcome, r.log) := by
  simp only [call, load, ensure_of_some hg]
  cases (gauge.readOrSentinel h.surroundings).outcome <;> simp [Reply.ofOutcome]

theorem call_load_ensure (h : Host) :
    h.call .load =
      let r := h.ensure.1.call .load
      (r.1, r.2.1, h.ensure.2.2 ++ r.2.2) := by
  rw [call_load_of_some (gauge?_ensure h)]
  simp only [call, load]
  cases (h.ensure.2.1.readOrSentinel h.ensure.1.surroundings).outcome <;> simp [Reply.ofOutcome]

theorem run_loads_of_some (hg : h.gauge? = some gauge) (n : Nat) :
    let inTurn := h.run (List.replicate n .load)
    let results := Callers.finishAll gauge h.surroundings (List.replicate n .arriving)
    inTurn.1 = { h with surroundings := results.surroundings } ∧
      inTurn.2.map Prod.fst = results.outcomes.map .ofOutcome ∧
      inTurn.2.flatMap Prod.snd = results.log := by
  induction n generalizing h with
  | zero => exact ⟨rfl, rfl, rfl⟩
  | succ n ih =>
      obtain ⟨hhost, hreplies, hlog⟩ :=
        @ih { h with surroundings := (gauge.readOrSentinel h.surroundings).state } hg
      simp only [List.replicate_succ, run, call_load_of_some hg, Callers.finishAll, Callers.finish,
        List.map_cons, List.flatMap_cons, hhost, hreplies, hlog]
      exact ⟨trivial, trivial, trivial⟩

/-- Loads in turn are served like those of callers who find the gauge there, after the warnings of
the set-up. -/
theorem run_loads (h : Host) {n : Nat} (hn : 0 < n) :
    let inTurn := h.run (List.replicate n .load)
    let results := Callers.total h.ensure.2.1 (Callers.arriveReady h n)
    inTurn.1 = { h.ensure.1 with surroundings := results.surroundings } ∧
      inTurn.2.map Prod.fst = results.outcomes.map .ofOutcome ∧
      inTurn.2.flatMap Prod.snd = results.log := by
  obtain ⟨n, rfl⟩ := Nat.exists_eq_add_of_lt hn
  rw [Nat.zero_add]
  have hready := run_loads_of_some (gauge?_ensure h) (n + 1)
  simp only [List.replicate_succ, run, List.map_cons, List.flatMap_cons] at hready ⊢
  rw [call_load_ensure]
  obtain ⟨hhost, hreplies, hlog⟩ := hready
  refine ⟨hhost, hreplies, ?_⟩
  rw [List.append_assoc, hlog]
  rfl

end InTurn

namespace Callers

variable {g : Gauge} {c : Callers} {s : Surroundings} {stage : Stage} {stages : List Stage}
  {h : Host} {n : Nat}

section Done

theorem left_eq_zero_iff : left g stage = 0 ↔ (reply? stage).isSome = true := by
  cases stage <;> simp [left, reply?]

/-- Callers who are done have nothing left to take or to tell the log. -/
theorem finishAll_of_done (h : ∀ stage ∈ stages, (reply? stage).isSome = true) :
    (finishAll g s stages).log = [] ∧ (finishAll g s stages).surroundings = s ∧
      (finishAll g s stages).outcomes.map .ofOutcome = stages.filterMap reply? := by
  induction stages with
  | nil => exact ⟨rfl, rfl, rfl⟩
  | cons stage stages ih =>
      have hstage := h stage (List.mem_cons_self ..)
      obtain ⟨hlog, hsurroundings, houtcomes⟩ :=
        ih fun other hother => h other (List.mem_cons_of_mem _ hother)
      cases stage with
      | served load =>
          simp only [finishAll, finish, List.nil_append, List.map_cons, List.filterMap_cons, reply?]
          exact ⟨hlog, hsurroundings, congrArg _ houtcomes⟩
      | broken =>
          simp only [finishAll, finish, List.nil_append, List.map_cons, List.filterMap_cons, reply?]
          exact ⟨hlog, hsurroundings, congrArg _ houtcomes⟩
      | arriving => cases hstage
      | asking probes last => cases hstage

end Done

section Steps

/-- The steps that the caller with this number can still make. -/
def leftOf (g : Gauge) (c : Callers) (i : Nat) : Nat := (c.stages[i]?.map (left g)).getD 0

theorem leftOf_step (hg : c.host.gauge? = some g) (i j : Nat) :
    leftOf g (c.step i) j ≤ leftOf g c j - if i = j then 1 else 0 := by
  cases hi : c.stages[i]? with
  | none =>
      rw [step_of_none hi]
      split
      · next hij => simp [leftOf, ← hij, hi]
      · exact Nat.le_refl _
  | some stage =>
      have hleft := (stepped c.host hg stage).left
      obtain ⟨hlt, -⟩ := List.getElem?_eq_some_iff.mp hi
      rw [step_of_some hi]
      split
      · next hij =>
        subst hij
        rw [leftOf, leftOf, List.getElem?_set_self hlt, hi]
        exact hleft
      · next hij => simp [leftOf, List.getElem?_set_ne hij]

theorem gauge?_step (hg : c.host.gauge? = some g) (i : Nat) : (c.step i).host.gauge? = some g := by
  cases hi : c.stages[i]? with
  | none => rwa [step_of_none hi]
  | some stage =>
      rw [step_of_some hi]
      exact (stepped c.host hg stage).gauge?.trans hg

theorem leftOf_run (hg : c.host.gauge? = some g) (schedule : List Nat) (j : Nat) :
    leftOf g (c.run schedule) j ≤ leftOf g c j - schedule.count j := by
  induction schedule generalizing c with
  | nil => simp [run]
  | cons i schedule ih =>
      have hstep := leftOf_step hg i j
      have hrun := ih (gauge?_step hg i)
      rw [run, List.foldl_cons, ← run, List.count_cons]
      simp only [beq_iff_eq]
      omega

theorem done_of_leftOf_le {schedule : List Nat} (hg : c.host.gauge? = some g)
    (hschedule : ∀ i, leftOf g c i ≤ schedule.count i) :
    ∀ stage ∈ (c.run schedule).stages, (reply? stage).isSome = true := by
  intro stage hstage
  obtain ⟨i, hi⟩ := List.mem_iff_getElem?.mp hstage
  have hleft := leftOf_run hg schedule i
  have henough := hschedule i
  rw [leftOf, hi, Option.map_some, Option.getD_some] at hleft
  exact (left_eq_zero_iff (g := g)).mp (by omega)

theorem setUps_of_some (hg : c.host.gauge? = some g) (schedule : List Nat) :
    setUps c schedule = 0 := by
  induction schedule generalizing c with
  | nil => rfl
  | cons i schedule ih => simp [setUps, hg, ih (gauge?_step hg i)]

theorem setUps_le_one (c : Callers) (schedule : List Nat) : setUps c schedule ≤ 1 := by
  induction schedule generalizing c with
  | nil => exact Nat.zero_le _
  | cons i schedule ih =>
      rw [setUps]
      split
      · next h =>
        have hg : (c.step i).host.gauge? = some c.host.ensure.2.1 := by
          rw [step_of_some h.2]
          exact gauge?_ensure c.host
        simp [setUps_of_some hg]
      · simpa using ih (c.step i)

end Steps

section Arriving

theorem share_arriveReady (h : Host) (n : Nat) : Share h.ensure.2.1 (arriveReady h n) :=
  ⟨gauge?_ensure h, fun stage hstage => by rw [List.eq_of_mem_replicate hstage]; trivial⟩

theorem leftOf_arriveReady (h : Host) (n i : Nat) :
    leftOf h.ensure.2.1 (arriveReady h n) i = if i < n then roundsOf h else 0 := by
  rw [leftOf, arriveReady, List.getElem?_replicate]
  split <;> rfl

theorem step_of_not_lt {i : Nat} (hlength : c.stages.length = n) (hi : ¬ i < n) : c.step i = c :=
  step_of_none (List.getElem?_eq_none_iff.mpr (by omega))

theorem run_of_not_lt {schedule : List Nat} (hlength : c.stages.length = n)
    (hschedule : ∀ i ∈ schedule, ¬ i < n) : c.run schedule = c := by
  induction schedule with
  | nil => rfl
  | cons i schedule ih =>
      rw [run, List.foldl_cons, step_of_not_lt hlength (hschedule i (List.mem_cons_self ..))]
      exact ih fun j hj => hschedule j (List.mem_cons_of_mem _ hj)

/-- The first step that any of the callers makes is the same whether or not the gauge was there. -/
theorem run_arrive {schedule : List Nat} (hschedule : ∃ i ∈ schedule, i < n) :
    (arrive h n).run schedule = (arriveReady h n).run schedule := by
  have hlength : (arrive h n).stages.length = n := List.length_replicate
  have hlength' : (arriveReady h n).stages.length = n := List.length_replicate
  induction schedule with
  | nil => simp at hschedule
  | cons i schedule ih =>
      rw [run, run, List.foldl_cons, List.foldl_cons]
      by_cases hi : i < n
      · have hstage : (arrive h n).stages[i]? = some .arriving := by simp [arrive, hi]
        have hstage' : (arriveReady h n).stages[i]? = some .arriving := hstage
        have hready := ensure_of_some (gauge?_ensure h)
        have hstep : (arrive h n).step i = (arriveReady h n).step i := by
          rw [step_of_some hstage, step_of_some hstage']
          simp only [stepStage, arrive, arriveReady, hready, List.nil_append, List.append_nil]
        rw [hstep]
      · rw [step_of_not_lt hlength hi, step_of_not_lt hlength' hi]
        apply ih
        obtain ⟨j, hj, hlt⟩ := hschedule
        rcases List.mem_cons.mp hj with rfl | hj
        · exact absurd hlt hi
        · exact ⟨j, hj, hlt⟩

end Arriving

end Callers

/-- The gauge of a host, or the one that it will be given, asks the temperature sensors last, and
its set-up warns of a variable once at most. -/
theorem ensure_run (e : Settings.Environment) (s : Surroundings) (before : List Call) :
    let h : Host := (run ⟨none, e, s⟩ before).1
    Probe.SensorsLast h.ensure.2.1.probes ∧
      ∀ v, (warningsOf v h.ensure.2.2).length ≤ 1 := by
  intro h
  obtain ⟨gauge, hbuild, hlast⟩ :=
    Settings.exists_build_applyEnvironment (Call.environmentAtSetUp e before)
  have hhost : h = _ := run_fst_of_build hbuild s
  cases hasked : before.any Call.needsGauge with
  | true =>
      have hg : h.gauge? = some gauge := by rw [hhost, hasked]; rfl
      rw [ensure_of_some hg]
      exact ⟨hlast, fun v => by simp [warningsOf]⟩
  | false =>
      have hg : h.gauge? = none := by rw [hhost, hasked]; rfl
      obtain ⟨gauge', hbuild', hlast'⟩ := Settings.exists_build_applyEnvironment h.environment
      rw [ensure_of_none hg, setUp_of_build hbuild']
      exact ⟨hlast', Settings.length_warningsOf_le default h.environment⟩

namespace Callers

variable {g : Gauge} {c : Callers} {s : Surroundings} {h : Host} {n : Nat}

theorem asInTurn_of_led (hn : 0 < n) (hled : Led h.ensure.2.1 (arriveReady h n) c)
    (hdone : ∀ stage ∈ c.stages, (reply? stage).isSome = true) :
    AsInTurn c (h.run (List.replicate n .load)) := by
  obtain ⟨hhost, hreplies, hlog⟩ := run_loads h hn
  obtain ⟨hnothing, hstill, htold⟩ :=
    finishAll_of_done (g := h.ensure.2.1) (s := c.host.surroundings) hdone
  have htotal := hled.total
  refine ⟨?_, ?_, ?_⟩
  · rw [← htold, hreplies]
    exact htotal.outcomes.map _
  · have hperm := htotal.log
    rwa [total, Results.after, hnothing, List.append_nil, ← hlog] at hperm
  · have hend : c.host.surroundings = (total h.ensure.2.1 (arriveReady h n)).surroundings :=
      hstill.symm.trans htotal.surroundings
    have hgauge : c.host.gauge? = h.ensure.1.gauge? :=
      hled.share.gauge?.trans (gauge?_ensure h).symm
    have henvironment : c.host.environment = h.ensure.1.environment := hled.environment
    rw [hhost, ← hend]
    show c.host = ⟨h.ensure.1.gauge?, h.ensure.1.environment, c.host.surroundings⟩
    rw [← hgauge, ← henvironment]

theorem exists_load_of_mem_outcomes (hg : Probe.SensorsLast g.probes)
    (hframes : ∀ frame ∈ s.feed.frames, frame ≠ none) (n : Nat) :
    ∀ outcome ∈ (finishAll g s (List.replicate n .arriving)).outcomes,
      ∃ load, outcome = .load load := by
  induction n generalizing s with
  | zero => simp [finishAll]
  | succ n ih =>
      intro outcome houtcome
      rcases List.mem_cons.mp houtcome with rfl | hlater
      · exact Gauge.exists_outcome_readOrSentinel hg (Component.Feed.next_ne_none hframes)
      · refine ih ?_ outcome hlater
        rw [finish, Gauge.frames_readOrSentinel]
        exact hframes

theorem exists_load_of_mem_replies (hg : Probe.SensorsLast h.ensure.2.1.probes)
    (hframes : ∀ frame ∈ h.surroundings.feed.frames, frame ≠ none) (n : Nat) :
    ∀ reply ∈ (h.run (List.replicate n .load)).2.map Prod.fst, ∃ load, reply = .load load := by
  cases n with
  | zero => simp [Host.run]
  | succ n =>
      intro reply hreply
      obtain ⟨-, hreplies, -⟩ := run_loads h (Nat.succ_pos n)
      rw [hreplies] at hreply
      obtain ⟨outcome, houtcome, rfl⟩ := List.mem_map.mp hreply
      have hframes' : ∀ frame ∈ h.ensure.1.surroundings.feed.frames, frame ≠ none := by
        rwa [surroundings_ensure]
      obtain ⟨load, rfl⟩ := exists_load_of_mem_outcomes hg hframes' (n + 1) outcome houtcome
      exact ⟨load, rfl⟩

/-- Where the sensors do not break down, the callers are served. -/
theorem AsInTurn.exists_served (hturn : AsInTurn c (h.run (List.replicate n .load)))
    (hg : Probe.SensorsLast h.ensure.2.1.probes)
    (hframes : ∀ frame ∈ h.surroundings.feed.frames, frame ≠ none)
    (hdone : ∀ stage ∈ c.stages, (reply? stage).isSome = true) :
    ∀ stage ∈ c.stages, ∃ load, stage = .served load := by
  intro stage hstage
  cases stage with
  | served load => exact ⟨load, rfl⟩
  | broken =>
      have hbroke : Reply.broke ∈ c.stages.filterMap reply? :=
        List.mem_filterMap.mpr ⟨.broken, hstage, rfl⟩
      obtain ⟨load, hload⟩ := exists_load_of_mem_replies hg hframes n _
        (hturn.replies.mem_iff.mp hbroke)
      cases hload
  | arriving => cases hdone _ hstage
  | asking probes last => cases hdone _ hstage

section Together

variable {schedule : List Nat}

/-- Unless nobody has made a step, the callers have been led to where they are from a host that has
its gauge. -/
theorem led_or_arrive (hg : Probe.SensorsLast h.ensure.2.1.probes) (n : Nat)
    (schedule : List Nat) :
    Led h.ensure.2.1 (arriveReady h n) ((arrive h n).run schedule) ∨
      (arrive h n).run schedule = arrive h n := by
  by_cases hsome : ∃ i ∈ schedule, i < n
  · rw [run_arrive hsome]
    exact .inl (led_run hg (share_arriveReady h n) schedule)
  · exact .inr (run_of_not_lt List.length_replicate fun i hi hlt => hsome ⟨i, hi, hlt⟩)

theorem done_of_roundsOf_le (hschedule : ∀ i < n, roundsOf h ≤ schedule.count i) :
    ∀ stage ∈ ((arrive h n).run schedule).stages, (reply? stage).isSome = true := by
  rcases Nat.eq_zero_or_pos n with rfl | hn
  · rw [run_of_not_lt (n := 0) rfl fun i _ => Nat.not_lt_zero i]
    simp [arrive]
  · have hcount : 0 < schedule.count 0 := Nat.lt_of_lt_of_le (Nat.succ_pos _) (hschedule 0 hn)
    rw [run_arrive ⟨0, List.count_pos_iff.mp hcount, hn⟩]
    apply done_of_leftOf_le (share_arriveReady h n).gauge?
    intro i
    rw [leftOf_arriveReady]
    split
    · next hi => exact hschedule i hi
    · exact Nat.zero_le _

theorem asInTurn_of_done (hg : Probe.SensorsLast h.ensure.2.1.probes)
    (hdone : ∀ stage ∈ ((arrive h n).run schedule).stages, (reply? stage).isSome = true) :
    AsInTurn ((arrive h n).run schedule) (h.run (List.replicate n .load)) := by
  cases n with
  | zero =>
      rw [run_of_not_lt (n := 0) rfl fun i _ => Nat.not_lt_zero i]
      exact ⟨.refl _, .refl _, rfl⟩
  | succ n =>
      rcases led_or_arrive hg (n + 1) schedule with hled | hstill
      · exact asInTurn_of_led (Nat.succ_pos n) hled hdone
      · -- those who have made no step are not done
        rw [hstill] at hdone
        exact absurd (hdone .arriving (List.mem_cons_self ..)) Bool.false_ne_true

theorem count_abreast {i : Nat} (hi : i < n) (rounds : Nat) :
    (abreast n rounds).count i = rounds := by
  rw [abreast, List.count_flatten, List.map_replicate, List.count_range, if_pos hi,
    List.sum_replicate_nat, Nat.mul_one]

theorem filterMap_reply?_of_served {stages : List Stage}
    (h : ∀ stage ∈ stages, ∃ load, stage = .served load) :
    stages.filterMap reply? = (stages.filterMap load?).map .load := by
  rw [List.map_filterMap]
  apply List.filterMap_congr
  intro stage hstage
  obtain ⟨load, rfl⟩ := h stage hstage
  rfl

/-- Callers who go abreast are all served if the sensors do not break down. -/
theorem callTogether_asInTurn (hg : Probe.SensorsLast h.ensure.2.1.probes)
    (hframes : ∀ frame ∈ h.surroundings.feed.frames, frame ≠ none) (n : Nat) :
    let together := callTogether h n
    let inTurn := h.run (List.replicate n .load)
    ∃ loads, together.2.1 = some loads ∧ (loads.map Reply.load).Perm (inTurn.2.map Prod.fst) ∧
      together.2.2.Perm (inTurn.2.flatMap Prod.snd) ∧ together.1 = inTurn.1 := by
  have hdone := done_of_roundsOf_le (h := h) fun i (hi : i < n) =>
    Nat.le_of_eq (count_abreast hi (roundsOf h)).symm
  have hturn := asInTurn_of_done hg hdone
  have hserved := hturn.exists_served hg hframes hdone
  have hwhole : isBroken ((arrive h n).run (abreast n (roundsOf h))) = false := by
    rw [isBroken, List.any_eq_false]
    intro stage hstage
    obtain ⟨load, rfl⟩ := hserved stage hstage
    simp
  refine ⟨loads ((arrive h n).run (abreast n (roundsOf h))), ?_, ?_, hturn.log, hturn.host⟩
  · simp only [callTogether, hwhole, Bool.false_eq_true, if_false]
  · rw [loads, ← filterMap_reply?_of_served hserved]
    exact hturn.replies

end Together

/-- Callers who arrive together at a host, however it got to where it is and however they are
scheduled, set the gauge up once at most, with one warning of each variable at most, and all ask the
same one.  Enough steps of each see them done; and when they are done, they have been told and
have left what loads in turn are told and leave, but for the order.  They are all served if the
sensors do not break down. -/
theorem run_arrive_asInTurn (e : Settings.Environment) (s : Surroundings) (before : List Call)
    (n : Nat) (schedule : List Nat) :
    let h : Host := (Host.run ⟨none, e, s⟩ before).1
    let gauge := h.ensure.2.1
    let together := (arrive h n).run schedule
    let Done := ∀ stage ∈ together.stages, (reply? stage).isSome = true
    setUps (arrive h n) schedule ≤ 1 ∧
      (∀ v, (warningsOf v together.log).length ≤ 1) ∧
      (together.host.gauge? = h.gauge? ∨ together.host.gauge? = some gauge) ∧
      (∀ stage ∈ together.stages, Uses gauge stage) ∧
      ((∀ i < n, roundsOf h ≤ schedule.count i) → Done) ∧
      (Done → AsInTurn together (h.run (List.replicate n .load)) ∧
        ((∀ frame ∈ h.surroundings.feed.frames, frame ≠ none) →
          ∀ stage ∈ together.stages, ∃ load, stage = .served load)) := by
  intro h gauge together Done
  obtain ⟨hlast, hwarnings⟩ := ensure_run e s before
  have hturn : Done → AsInTurn together (h.run (List.replicate n .load)) := asInTurn_of_done hlast
  have hled : Led gauge (arriveReady h n) together ∨ together = arrive h n :=
    led_or_arrive hlast n schedule
  refine ⟨setUps_le_one _ schedule, ?_, ?_, ?_, done_of_roundsOf_le, fun hdone =>
    ⟨hturn hdone, fun hframes => (hturn hdone).exists_served hlast hframes hdone⟩⟩
  · intro v
    rcases hled with hled | hstill
    · rw [hled.warningsOf_log v]
      exact hwarnings v
    · rw [hstill]
      exact Nat.zero_le _
  · rcases hled with hled | hstill
    · exact .inr hled.share.gauge?
    · rw [hstill]
      exact .inl rfl
  · rcases hled with hled | hstill
    · exact hled.share.uses
    · rw [hstill]
      intro stage hstage
      rw [List.eq_of_mem_replicate hstage]
      trivial

end Callers

end Host

end ThermalGauge
