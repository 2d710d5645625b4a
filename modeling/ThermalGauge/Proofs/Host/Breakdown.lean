import ThermalGauge.Proofs.Host

/-!
# Sensors that break down

A query contains a breakdown of the sensors: its caller is told the sentinel, which is also what
he is told where no sensors are found.  Call by call, a host whose sensors break down therefore
replies as one whose sensors bring an empty frame instead, and ends as that one does.  The log
alone tells the two apart.
-/

namespace ThermalGauge

namespace Component

/-- The frame, or an empty one in place of a breakdown. -/
def Frame.unbroken (frame : Frame) : Frame := some (frame.getD [])

namespace Feed

def unbroken (f : Feed) : Feed := { f with frames := f.frames.map Frame.unbroken }

theorem next_unbroken (f : Feed) : f.unbroken.next = Frame.unbroken f.next := by
  simp only [next, unbroken, List.getElem?_map, List.getLast?_map]
  cases f.frames[f.taken]? with
  | some frame => rfl
  | none => cases f.frames.getLast? <;> rfl

end Feed

/-- No sensors were found. -/
def nothingFound : Fault := .noSensors sourceName

end Component

namespace Surroundings

def unbroken (s : Surroundings) : Surroundings := { s with feed := s.feed.unbroken }

end Surroundings

/-- The second reading goes as the first one, except that no sensors are found in the one where
they break down in the other. -/
inductive Reading.Mended : Reading Surroundings → Reading Surroundings → Prop
  | load (load : Load) (s : Surroundings) (log : Log) :
      Mended ⟨.load load, s, log⟩ ⟨.load load, s.unbroken, log⟩
  | fault (why : Fault) (s : Surroundings) (log : Log) :
      Mended ⟨.fault why, s, log⟩ ⟨.fault why, s.unbroken, log⟩
  | breakdown (s : Surroundings) (log : Log) :
      Mended ⟨.breakdown, s, log⟩ ⟨.fault Component.nothingFound, s.unbroken,
        log ++ [.sourceFailed Component.sourceName Component.nothingFound]⟩

namespace Reading.Mended

variable {r r' : Reading Surroundings}

theorem after (h : r.Mended r') (log : Log) :
    (r.after log).Mended (r'.after log) := by
  cases h with
  | load load s told => exact .load load s (log ++ told)
  | fault why s told => exact .fault why s (log ++ told)
  | breakdown s told =>
      rw [Reading.after, Reading.after, ← List.append_assoc]
      exact .breakdown s (log ++ told)

end Reading.Mended

namespace Probe

/-- Nothing but the sensors reads the feed, and no probe is asked behind them. -/
theorem readFrom_mended {probes : List Probe} (h : SensorsLast probes) (last : Fault)
    (s : Surroundings) : (readFrom last probes s).Mended (readFrom last probes s.unbroken) := by
  induction h generalizing last with
  | nil => exact .fault last s []
  | sensors ramp =>
      have hnext : s.unbroken.feed.next = Component.Frame.unbroken s.feed.next :=
        s.feed.next_unbroken
      rw [readFrom_sensors, readFrom_sensors, hnext]
      cases s.feed.next with
      | none => exact .breakdown { s with feed := s.feed.advance } []
      | some found =>
          simp only [Component.Frame.unbroken, Option.getD_some, readFrame]
          cases Component.sample ramp found with
          | ok load => exact .load load { s with feed := s.feed.advance } _
          | error why => exact .fault why { s with feed := s.feed.advance } _
  | @cooling root probes rest ih =>
      have htree : s.unbroken.tree = s.tree := rfl
      cases hsample : Cooling.sample s.tree root with
      | ok load =>
          rw [readFrom_cooling_of_ok hsample,
            readFrom_cooling_of_ok (s := s.unbroken) (by rw [htree, hsample])]
          exact .load load s _
      | error why =>
          rw [readFrom_cooling_of_error hsample,
            readFrom_cooling_of_error (s := s.unbroken) (by rw [htree, hsample])]
          exact (ih why).after _

end Probe

/-- What one call told the log, and what it tells where no sensors are found in place of a
breakdown. -/
inductive Log.Mended : Log → Log → Prop
  | same (log : Log) : Mended log log
  | queryBroke (log : Log) :
      Mended (log ++ [.queryBroke])
        (log ++ [.sourceFailed Component.sourceName Component.nothingFound,
          .noReading Component.nothingFound])

namespace Host

def unbroken (h : Host) : Host := { h with surroundings := h.surroundings.unbroken }

namespace Call

def unbroken : Call → Call
  | setFrames frames => setFrames (frames.map Component.Frame.unbroken)
  | c => c

theorem needsGauge_unbroken (c : Call) : c.unbroken.needsGauge = c.needsGauge := by
  cases c <;> rfl

theorem environmentFrom_unbroken (e : Settings.Environment) (c : Call) :
    c.unbroken.environmentFrom e = c.environmentFrom e := by
  cases c <;> rfl

theorem environmentAfter_unbroken (e : Settings.Environment) (calls : List Call) :
    environmentAfter e (calls.map unbroken) = environmentAfter e calls := by
  rw [environmentAfter, List.foldl_map]
  simp only [environmentFrom_unbroken]
  rfl

theorem environmentAtSetUp_unbroken (e : Settings.Environment) (calls : List Call) :
    environmentAtSetUp e (calls.map unbroken) = environmentAtSetUp e calls := by
  have hneeds : (fun c : Call => !c.needsGauge) ∘ unbroken = fun c => !c.needsGauge := by
    funext c
    exact congrArg _ (needsGauge_unbroken c)
  rw [environmentAtSetUp, List.takeWhile_map, hneeds, environmentAfter_unbroken]
  rfl

theorem any_needsGauge_unbroken (calls : List Call) :
    (calls.map unbroken).any needsGauge = calls.any needsGauge := by
  rw [List.any_map]
  congr 1
  funext c
  exact needsGauge_unbroken c

section Gauges

variable {gauge : Gauge}

/-- Either the two are told the same, or the one to whom the sensors break down would be told the
sentinel by a query, as the other one is. -/
theorem readOrSentinel_mended (h : Probe.SensorsLast gauge.probes) (s : Surroundings) :
    (gauge.readOrSentinel s.unbroken).state = (gauge.readOrSentinel s).state.unbroken ∧
      ((∃ load, (gauge.readOrSentinel s).outcome = .load load ∧
          (gauge.readOrSentinel s.unbroken).outcome = .load load ∧
          (gauge.readOrSentinel s.unbroken).log = (gauge.readOrSentinel s).log) ∨
        ((gauge.readOrSentinel s).outcome = .breakdown ∧
          (gauge.readOrSentinel s.unbroken).outcome = .load .sentinel ∧
          (gauge.readOrSentinel s.unbroken).log = (gauge.readOrSentinel s).log ++
            [.sourceFailed Component.sourceName Component.nothingFound,
              .noReading Component.nothingFound])) := by
  have hmended := Probe.readFrom_mended h Source.noSources s
  rw [← Gauge.read_eq, ← Gauge.read_eq] at hmended
  simp only [Gauge.readOrSentinel]
  generalize gauge.read s = r, gauge.read s.unbroken = r' at hmended ⊢
  cases hmended with
  | load load s log => exact ⟨rfl, .inl ⟨load, rfl, rfl, rfl⟩⟩
  | fault why s log => exact ⟨rfl, .inl ⟨.sentinel, rfl, rfl, rfl⟩⟩
  | breakdown s log => exact ⟨rfl, .inr ⟨rfl, rfl, List.append_assoc ..⟩⟩

theorem surroundingsFrom_unbroken (h : Probe.SensorsLast gauge.probes) (s : Surroundings)
    (c : Call) :
    c.unbroken.surroundingsFrom gauge s.unbroken = (c.surroundingsFrom gauge s).unbroken := by
  cases c with
  | load => exact (readOrSentinel_mended h s).1
  | query => exact (readOrSentinel_mended h s).1
  | _ => rfl

theorem surroundingsAfter_unbroken (h : Probe.SensorsLast gauge.probes) (s : Surroundings)
    (calls : List Call) :
    surroundingsAfter gauge s.unbroken (calls.map unbroken) =
      (surroundingsAfter gauge s calls).unbroken := by
  rw [surroundingsAfter, List.foldl_map]
  exact List.foldl_hom Surroundings.unbroken fun s c => surroundingsFrom_unbroken h s c

theorem answer_unbroken (h : Probe.SensorsLast gauge.probes) (warnings : Log) (asked : Bool)
    (s : Surroundings) {c : Call} (hc : c ≠ load) :
    (c.unbroken.answer gauge warnings asked s.unbroken).1 = (c.answer gauge warnings asked s).1 ∧
      Log.Mended (c.answer gauge warnings asked s).2
        (c.unbroken.answer gauge warnings asked s.unbroken).2 := by
  cases c with
  | load => exact absurd rfl hc
  | query =>
      obtain ⟨-, ⟨load, hload, hload', hlog⟩ | ⟨hbroke, hload', hlog⟩⟩ :=
        readOrSentinel_mended h s
      · simp only [unbroken, answer, hload, hload', hlog]
        exact ⟨trivial, .same _⟩
      · simp only [unbroken, answer, hbroke, hload', hlog]
        rw [← List.append_assoc]
        exact ⟨trivial, .queryBroke _⟩
  | _ => exact ⟨rfl, .same _⟩

theorem exists_answer_query (gauge : Gauge) (warnings : Log) (asked : Bool) (s : Surroundings) :
    ∃ load log, query.answer gauge warnings asked s = (.load load, log) := by
  simp only [answer]
  split <;> exact ⟨_, _, rfl⟩

end Gauges

end Call

section Runs

variable {e : Settings.Environment} {s : Surroundings} {calls : List Call}

theorem exists_gauge?_run (e : Settings.Environment) (s : Surroundings)
    (hcalls : calls.any Call.needsGauge = true) :
    ∃ gauge, (run ⟨none, e, s⟩ calls).1.gauge? = some gauge ∧
      ((default : Settings).applyEnvironment (Call.environmentAtSetUp e calls)).1.build =
        .ok gauge := by
  obtain ⟨gauge, hbuild, -⟩ :=
    Settings.exists_build_applyEnvironment (Call.environmentAtSetUp e calls)
  refine ⟨gauge, ?_, hbuild⟩
  rw [run_fst_of_build hbuild, if_pos hcalls]

theorem fst_run_unbroken (e : Settings.Environment) (s : Surroundings) (calls : List Call) :
    (run ⟨none, e, s.unbroken⟩ (calls.map Call.unbroken)).1 =
      (run ⟨none, e, s⟩ calls).1.unbroken := by
  obtain ⟨gauge, hbuild, hlast⟩ :=
    Settings.exists_build_applyEnvironment (Call.environmentAtSetUp e calls)
  rw [run_fst_of_build hbuild]
  rw [← Call.environmentAtSetUp_unbroken] at hbuild
  rw [run_fst_of_build hbuild, Call.any_needsGauge_unbroken, Call.environmentAfter_unbroken,
    Call.surroundingsAfter_unbroken hlast]
  rfl

theorem getElem?_run_unbroken (e : Settings.Environment) (s : Surroundings) {c : Call} {i : Nat}
    (hi : calls[i]? = some c) (hc : c ≠ .load) :
    ∃ told told', (run ⟨none, e, s⟩ calls).2[i]? = some told ∧
      (run ⟨none, e, s.unbroken⟩ (calls.map Call.unbroken)).2[i]? = some told' ∧
      told'.1 = told.1 ∧ Log.Mended told.2 told'.2 := by
  obtain ⟨gauge, hbuild, hlast⟩ :=
    Settings.exists_build_applyEnvironment (Call.environmentAtSetUp e calls)
  have hanswer := Call.answer_unbroken hlast
    ((default : Settings).applyEnvironment (Call.environmentAtSetUp e calls)).2
    ((calls.take i).any Call.needsGauge) (Call.surroundingsAfter gauge s (calls.take i)) hc
  refine ⟨_, _, ?_, ?_, hanswer⟩
  · rw [getElem?_run_of_build hbuild, hi]
    rfl
  · have hbuild' := hbuild
    rw [← Call.environmentAtSetUp_unbroken] at hbuild'
    rw [getElem?_run_of_build hbuild', List.getElem?_map, hi, ← List.map_take,
      Call.any_needsGauge_unbroken, Call.surroundingsAfter_unbroken hlast,
      Call.environmentAtSetUp_unbroken]
    rfl

theorem exists_getElem?_run_query (e : Settings.Environment) (s : Surroundings) {i : Nat}
    (hi : calls[i]? = some .query) :
    ∃ load log, (run ⟨none, e, s⟩ calls).2[i]? = some (.load load, log) := by
  obtain ⟨gauge, hbuild, -⟩ :=
    Settings.exists_build_applyEnvironment (Call.environmentAtSetUp e calls)
  obtain ⟨load, log, hanswer⟩ := Call.exists_answer_query gauge
    ((default : Settings).applyEnvironment (Call.environmentAtSetUp e calls)).2
    ((calls.take i).any Call.needsGauge) (Call.surroundingsAfter gauge s (calls.take i))
  refine ⟨load, log, ?_⟩
  rw [getElem?_run_of_build hbuild, hi, Option.map_some, hanswer]

theorem getElem?_run_eq_none (e : Settings.Environment) (s : Surroundings) {i : Nat}
    (hi : calls[i]? = none) : (run ⟨none, e, s⟩ calls).2[i]? = none := by
  obtain ⟨gauge, hbuild, -⟩ :=
    Settings.exists_build_applyEnvironment (Call.environmentAtSetUp e calls)
  rw [getElem?_run_of_build hbuild, hi]
  rfl

end Runs

/-- Calls that contain a breakdown or cannot meet one are replied to as if no sensors had been found
instead, and leave the same host behind; the logs differ at most in how a query tells of it.  A
query always comes back with a load, and has set up the gauge from the variables at the first call
that needed it, whether or not the sensors broke down under it. -/
theorem run_unbroken (e : Settings.Environment) (s : Surroundings) (calls : List Call)
    (hcalls : .load ∉ calls) :
    let broken : Host × List (Reply × Log) := run ⟨none, e, s⟩ calls
    let whole : Host × List (Reply × Log) := run ⟨none, e, s.unbroken⟩ (calls.map Call.unbroken)
    whole.2.map Prod.fst = broken.2.map Prod.fst ∧ whole.1 = broken.1.unbroken ∧
      (∀ (i : Nat) (told told' : Reply × Log), broken.2[i]? = some told →
        whole.2[i]? = some told' → Log.Mended told.2 told'.2) ∧
      ∀ i : Nat, calls[i]? = some .query →
        (∃ load log, broken.2[i]? = some (.load load, log) ∧ load.percent ≤ 100) ∧
        ∃ gauge, (run ⟨none, e, s⟩ (calls.take (i + 1))).1.gauge? = some gauge ∧
          ((default : Settings).applyEnvironment
            (Call.environmentAtSetUp e (calls.take (i + 1)))).1.build = .ok gauge := by
  intro broken whole
  have hne : ∀ {i : Nat} {c : Call}, calls[i]? = some c → c ≠ .load := by
    rintro i c hi rfl
    exact hcalls (List.mem_of_getElem? hi)
  refine ⟨?_, fst_run_unbroken e s calls, ?_, ?_⟩
  · apply List.ext_getElem?
    intro i
    rw [List.getElem?_map, List.getElem?_map]
    cases hi : calls[i]? with
    | none =>
        have hnone : (calls.map Call.unbroken)[i]? = none := by rw [List.getElem?_map, hi]; rfl
        rw [getElem?_run_eq_none e s hi, getElem?_run_eq_none e s.unbroken hnone]
    | some c =>
        obtain ⟨told, told', htold, htold', hreply, -⟩ := getElem?_run_unbroken e s hi (hne hi)
        rw [htold, htold', Option.map_some, Option.map_some, hreply]
  · intro i told told' htold htold'
    cases hi : calls[i]? with
    | none =>
        rw [getElem?_run_eq_none e s hi] at htold
        cases htold
    | some c =>
        obtain ⟨_, _, htold₁, htold₁', -, hlog⟩ := getElem?_run_unbroken e s hi (hne hi)
        rw [htold₁] at htold
        rw [htold₁'] at htold'
        cases htold
        cases htold'
        exact hlog
  · intro i hi
    obtain ⟨load, log, hload⟩ := exists_getElem?_run_query e s hi
    refine ⟨⟨load, log, hload, load.percent_le⟩, exists_gauge?_run e s ?_⟩
    exact Call.any_needsGauge_take hi rfl (Nat.lt_succ_self i)

/-- The first query breaks down and sets up the gauge all the same. -/
theorem run_unbroken_of_query :
    let calls : List Call := [.query, .isRegistered, .query]
    let s : Surroundings := ⟨.empty, .ofFrames [none], []⟩
    let broken := run ⟨none, fun _ => none, s⟩ calls
    let whole := run ⟨none, fun _ => none, s.unbroken⟩ (calls.map Call.unbroken)
    .load ∉ calls ∧ whole.2.map Prod.fst = broken.2.map Prod.fst ∧
      broken.2.map Prod.fst = [.load .sentinel, .flag true, .load .sentinel] := by
  intro calls s broken whole
  have hcalls : .load ∉ calls := by simp [calls]
  exact ⟨hcalls, (run_unbroken _ s calls hcalls).1, by decide +kernel⟩

end Host

end ThermalGauge
