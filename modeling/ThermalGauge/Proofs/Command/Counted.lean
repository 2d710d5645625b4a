import ThermalGauge.Command.Pace
import ThermalGauge.Proofs.Attempts
import ThermalGauge.Proofs.Component
import ThermalGauge.Proofs.Cooling.Diagnostics
import ThermalGauge.Proofs.Results
import ThermalGauge.Proofs.Settings

/-!
# Runs that count their samples

The readings of a run are made one after the other, each in the state that the one before left.
As long as the sensors do not break down, a reading has either a load, which is printed, or a
fault, of which the log is told; the faults are remembered for the exit.  Nothing else that a
reading tells the log is an error.  The pace that is kept meanwhile never goes out of range.
-/

namespace ThermalGauge

namespace Reading

variable {σ : Type}

/-- What is printed of a reading. -/
def line? (r : Reading σ) : Option String :=
  match r.outcome with
  | .load load => some (toString load.percent)
  | _ => none

/-- What a run complains of. -/
def complaint? (r : Reading σ) : Option Notice :=
  match r.outcome with
  | .fault why => some (.complaint why)
  | _ => none

def IsFault (r : Reading σ) : Prop := ∃ why, r.outcome = .fault why

instance (r : Reading σ) : Decidable r.IsFault :=
  match h : r.outcome with
  | .fault why => isTrue ⟨why, h⟩
  | .load _ => isFalse fun ⟨_, hwhy⟩ => by cases h.symm.trans hwhy
  | .breakdown => isFalse fun ⟨_, hwhy⟩ => by cases h.symm.trans hwhy

/-- What the log is told of a reading in a run. -/
def told (r : Reading σ) : Log := r.log ++ r.complaint?.toList

end Reading

namespace Probe

theorem level_of_mem_log {p : Probe} {s : Surroundings} {n : Notice}
    (h : n ∈ (p.source.read s).log) : n.level ≠ .error := by
  cases p with
  | cooling root =>
      have hlog : n ∈ Cooling.log s.tree root := h
      simp [Cooling.level_of_mem_log hlog]
  | components ramp =>
      cases hnext : s.feed.next with
      | none =>
          simp only [source, readComponents, hnext] at h
          cases h
      | some found =>
          rw [read_components hnext] at h
          simp [level_of_mem_notices h]
  | scripted name number => cases h

end Probe

namespace Gauge

variable {g : Gauge} {s : Surroundings} {n : Nat} {r : Reading Surroundings}

theorem level_of_mem_log_read {notice : Notice} (h : notice ∈ (g.read s).log) :
    notice.level ≠ .error := by
  rw [read, Source.readFirst, Source.log_readFrom] at h
  obtain ⟨a, ha, htold⟩ := List.mem_flatMap.mp h
  rcases List.mem_append.mp htold with hlog | hverdict
  · have hsource : a.source ∈ g.sources :=
      (Source.attempts_isPrefix g.sources s).subset (List.mem_map_of_mem ha)
    obtain ⟨p, -, hp⟩ := List.mem_map.mp hsource
    rw [Source.Attempt.reading, ← hp] at hlog
    exact Probe.level_of_mem_log hlog
  · simp only [Source.Attempt.verdict, Source.Attempt.failure?, Source.Attempt.success?] at hverdict
    cases houtcome : a.reading.outcome <;> simp_all [Notice.level]

theorem frames_read (g : Gauge) (s : Surroundings) :
    (g.read s).state.feed.frames = s.feed.frames := by
  have hsentinel := g.frames_readOrSentinel s
  rwa [readOrSentinel, Reading.state_orSentinel] at hsentinel

/-- Readings made one after the other. -/
def readings (g : Gauge) : Nat → Surroundings → List (Reading Surroundings)
  | 0, _ => []
  | n + 1, s => g.read s :: readings g n (g.read s).state

@[simp] theorem length_readings (g : Gauge) (n : Nat) (s : Surroundings) :
    (g.readings n s).length = n := by
  induction n generalizing s with
  | zero => rfl
  | succ n ih => rw [readings, List.length_cons, ih]

/-- A reading is made in a state that has whatever readings do not take away. -/
theorem exists_read_of_mem_readings {P : Surroundings → Prop}
    (hkept : ∀ s, P s → P (g.read s).state) (hs : P s) (h : r ∈ g.readings n s) :
    ∃ s', P s' ∧ g.read s' = r := by
  induction n generalizing s with
  | zero => cases h
  | succ n ih =>
      rcases List.mem_cons.mp h with rfl | hlater
      · exact ⟨s, hs, rfl⟩
      · exact ih (hkept s hs) hlater

theorem level_of_mem_log_readings (h : r ∈ g.readings n s) {notice : Notice}
    (hnotice : notice ∈ r.log) : notice.level ≠ .error := by
  obtain ⟨s', -, rfl⟩ := exists_read_of_mem_readings (P := fun _ => True) (fun _ => id) trivial h
  exact level_of_mem_log_read hnotice

/-- No sensors that break down are among those that are asked. -/
theorem outcome_of_mem_readings (hg : Probe.SensorsLast g.probes)
    (hframes : ∀ frame ∈ s.feed.frames, frame ≠ none) (h : r ∈ g.readings n s) :
    r.outcome ≠ .breakdown := by
  have hkept : ∀ s : Surroundings, (∀ frame ∈ s.feed.frames, frame ≠ none) →
      ∀ frame ∈ (g.read s).state.feed.frames, frame ≠ none := by
    intro s hs
    rwa [frames_read]
  obtain ⟨s', hs', rfl⟩ := exists_read_of_mem_readings hkept hframes h
  exact Probe.outcome_readFrom_ne_breakdown hg _ (Component.Feed.next_ne_none hs')

end Gauge

namespace Reading

variable {r : Reading Surroundings} {rs : List (Reading Surroundings)}

theorem filter_told (h : ∀ notice ∈ r.log, notice.level ≠ .error) :
    r.told.filter (fun notice => notice.level = .error) = r.complaint?.toList := by
  have hlog : r.log.filter (fun notice => notice.level = .error) = [] := by
    simpa [List.filter_eq_nil_iff] using h
  rw [told, List.filter_append, hlog, List.nil_append, complaint?]
  cases r.outcome <;> rfl

theorem filter_flatMap_told (h : ∀ r ∈ rs, ∀ notice ∈ r.log, notice.level ≠ .error) :
    (rs.flatMap told).filter (fun notice => notice.level = .error) = rs.filterMap complaint? := by
  induction rs with
  | nil => rfl
  | cons r rs ih =>
      have hfirst := filter_told (h r (List.mem_cons_self ..))
      have hrest := ih fun other hother => h other (List.mem_cons_of_mem _ hother)
      rw [List.flatMap_cons, List.filter_append, hfirst, hrest, List.filterMap_cons]
      cases r.complaint? <;> rfl

/-- A line or a complaint for each. -/
theorem length_lines_add_length_complaints (h : ∀ r ∈ rs, r.outcome ≠ .breakdown) :
    (rs.filterMap line?).length + (rs.filterMap complaint?).length = rs.length := by
  induction rs with
  | nil => rfl
  | cons r rs ih =>
      have hrest := ih fun other hother => h other (List.mem_cons_of_mem _ hother)
      have hfirst := h r (List.mem_cons_self ..)
      simp only [List.filterMap_cons, line?, complaint?, List.length_cons]
      cases houtcome : r.outcome with
      | load load => simp only [List.length_cons]; omega
      | fault why => simp only [List.length_cons]; omega
      | breakdown => exact absurd houtcome hfirst

end Reading

namespace Command

section Samples

variable {g : Gauge} {s : Surroundings} {n : Nat} {exit : Exit}

/-- What one sample adds to a run that amounts to `exit` so far. -/
def sampled (r : Reading Surroundings) (exit : Exit) : Samples :=
  ⟨r.line?.toList, r.told, if r.IsFault then .failure else exit, r.state⟩

theorem takeSamples_succ (h : (g.read s).outcome ≠ .breakdown) (n : Nat) (exit : Exit) :
    takeSamples g (n + 1) exit s =
      (sampled (g.read s) exit).append
        (takeSamples g n (sampled (g.read s) exit).exit (g.read s).state) := by
  cases houtcome : (g.read s).outcome with
  | load load =>
      have hsound : ¬ (g.read s).IsFault := fun ⟨why, hwhy⟩ => by cases houtcome.symm.trans hwhy
      simp [takeSamples, sampled, Samples.append, Reading.line?, Reading.told, Reading.complaint?,
        houtcome, hsound]
  | fault why =>
      have hfault : (g.read s).IsFault := ⟨why, houtcome⟩
      simp [takeSamples, sampled, Samples.append, Reading.line?, Reading.told, Reading.complaint?,
        houtcome, hfault]
  | breakdown => exact absurd houtcome h

theorem takeSamples_one (h : (g.read s).outcome ≠ .breakdown) (exit : Exit) :
    takeSamples g 1 exit s = sampled (g.read s) exit := by
  rw [takeSamples_succ h]
  simp [takeSamples, sampled, Samples.append]

/-- The state in which some readings leave the surroundings. -/
def stateAfter (rs : List (Reading Surroundings)) (s : Surroundings) : Surroundings :=
  rs.foldl (fun _ r => r.state) s

theorem takeSamples_eq (h : ∀ r ∈ g.readings n s, r.outcome ≠ .breakdown) (exit : Exit) :
    takeSamples g n exit s =
      ⟨(g.readings n s).filterMap Reading.line?, (g.readings n s).flatMap Reading.told,
        if ∃ r ∈ g.readings n s, r.IsFault then .failure else exit,
        stateAfter (g.readings n s) s⟩ := by
  induction n generalizing s exit with
  | zero => simp [takeSamples, Gauge.readings, stateAfter]
  | succ n ih =>
      have hfirst : (g.read s).outcome ≠ .breakdown := h _ (List.mem_cons_self ..)
      have hrest := ih (fun r hr => h r (List.mem_cons_of_mem _ hr)) (sampled (g.read s) exit).exit
      rw [takeSamples_succ hfirst, hrest]
      simp only [sampled, Samples.append, Gauge.readings, List.filterMap_cons, List.flatMap_cons,
        List.mem_cons, exists_eq_or_imp, stateAfter, List.foldl_cons, Samples.mk.injEq, true_and,
        and_true]
      refine ⟨?_, ?_⟩
      · cases (g.read s).line? <;> rfl
      · by_cases hfault : (g.read s).IsFault <;> simp [hfault]

end Samples

section Pace

variable {g : Gauge} {s : Surroundings} {interval : Interval} {elapsed : Nat → Interval}
  {count index : UInt32} {n : Nat}

/-- The rest after sample `i` of `n`. -/
def restDue (interval : Interval) (elapsed : Nat → Interval) (n i : Nat) : Option Interval :=
  if i + 1 < n ∧ (elapsed i).nanoseconds < interval.nanoseconds then
    some ⟨interval.nanoseconds - (elapsed i).nanoseconds⟩
  else none

theorem left_of_lt {elapsed : Interval} (h : elapsed.nanoseconds < interval.nanoseconds) :
    left interval elapsed = .ok ⟨interval.nanoseconds - elapsed.nanoseconds⟩ := by
  rw [left, if_pos (Nat.le_of_lt h)]

/-- Below a count there is no greatest word. -/
theorem successor_of_lt (h : index < count) : successor index = .ok (index + 1) := by
  have hlt : index.toNat < count.toNat := UInt32.lt_iff_toNat_lt.mp h
  have hcount : count.toNat < countBound := count.toNat_lt
  have hbound : index.toNat + 1 < countBound := by omega
  rw [successor, if_pos hbound]

theorem restAfter_of_lt (h : index < count) :
    restAfter interval (elapsed index.toNat) count index =
      .ok (restDue interval elapsed count.toNat index.toNat) := by
  have hnext : index + 1 < count ↔ index.toNat + 1 < count.toNat := by
    rw [UInt32.lt_iff_toNat_lt, toNat_add_one h]
  simp only [restAfter, successor_of_lt h, restDue, hnext]
  split
  · next hdue => rw [left_of_lt hdue.2, Except.map]
  · rfl

/-- One round of the loop. -/
theorem takePaced_of_lt (h : index < count) (hfirst : (g.read s).outcome ≠ .breakdown)
    (exit : Exit) :
    takePaced g interval elapsed count index exit s =
      (takePaced g interval elapsed count (index + 1) (sampled (g.read s) exit).exit
        (g.read s).state).map fun later =>
          ⟨(sampled (g.read s) exit).append later.samples,
            restDue interval elapsed count.toNat index.toNat :: later.rests⟩ := by
  rw [takePaced, if_pos h]
  simp only [takeSamples_one hfirst, restAfter_of_lt h]
  cases houtcome : (g.read s).outcome with
  | load load => rfl
  | fault why => rfl
  | breakdown => exact absurd houtcome hfirst

/-- The loop over words is the recursion on the samples that are left. -/
theorem takePaced_eq (hn : count.toNat = index.toNat + n)
    (h : ∀ r ∈ g.readings n s, r.outcome ≠ .breakdown) (exit : Exit) :
    takePaced g interval elapsed count index exit s =
      .ok ⟨takeSamples g n exit s,
        (List.range' index.toNat n).map (restDue interval elapsed count.toNat)⟩ := by
  induction n generalizing index exit s with
  | zero =>
      have hend : ¬ index < count := by
        rw [UInt32.lt_iff_toNat_lt]
        omega
      rw [takePaced, if_neg hend]
      rfl
  | succ n ih =>
      have hlt : index < count := by
        rw [UInt32.lt_iff_toNat_lt]
        omega
      have hfirst : (g.read s).outcome ≠ .breakdown := h _ (List.mem_cons_self ..)
      have hnext : count.toNat = (index + 1).toNat + n := by
        rw [toNat_add_one hlt]
        omega
      have hlater := ih hnext (fun r hr => h r (List.mem_cons_of_mem _ hr))
        (sampled (g.read s) exit).exit
      rw [takePaced_of_lt hlt hfirst, hlater, takeSamples_succ hfirst, List.range'_succ,
        toNat_add_one hlt]
      rfl

end Pace

section Run

variable {arguments : List Octets} {a : Arguments} {g : Gauge} {s : Surroundings} {why : Fault}

theorem run_of_no_build (hparse : parse arguments = .ok a) (hbuild : a.settings.build = .error why)
    (events : Option (List Watch.Event)) (s : Surroundings) (handler : Except String Unit) :
    run arguments events s handler =
      ⟨.failure, [], [.argumentsTaken a.fields, .complaint why], none⟩ := by
  simp only [run, hparse, runArguments, hbuild]

theorem run_of_build (hparse : parse arguments = .ok a) (hcounted : a.watch = false)
    (hbuild : a.settings.build = .ok g)
    (hsound : ∀ r ∈ g.readings a.count.toNat s, r.outcome ≠ .breakdown)
    (events : Option (List Watch.Event)) (handler : Except String Unit) :
    run arguments events s handler =
      ⟨if ∃ r ∈ g.readings a.count.toNat s, r.IsFault then .failure else .success,
        (g.readings a.count.toNat s).filterMap Reading.line?,
        .argumentsTaken a.fields :: (g.readings a.count.toNat s).flatMap Reading.told, none⟩ := by
  simp [run, hparse, runArguments, hbuild, runGauge, hcounted, takeSamples_eq hsound]

/-- A run that counts takes as many readings as it counts, one after the other, and none of them
breaks down.  It prints the loads in order, and the faults in order are its only errors; it fails
where there is a fault.  The log is told of the arguments first.  The loop over words takes the
same samples, whatever time they take, and rests between them for what they leave of the interval.
Where no gauge is built, the log is told why and nothing is read. -/
theorem run_counted (hparse : parse arguments = .ok a) (hcounted : a.watch = false)
    (events : Option (List Watch.Event)) (s : Surroundings) (handler : Except String Unit)
    (hframes : ∀ frame ∈ s.feed.frames, frame ≠ none) :
    match a.settings.build with
    | .ok g =>
      let rs := g.readings a.count.toNat s
      let t := run arguments events s handler
      rs.length = a.count.toNat ∧ (∀ r ∈ rs, r.outcome ≠ .breakdown) ∧
        t = ⟨if ∃ r ∈ rs, r.IsFault then .failure else .success, rs.filterMap Reading.line?,
          .argumentsTaken a.fields :: rs.flatMap Reading.told, none⟩ ∧
        t.shownLog = rs.filterMap Reading.complaint? ∧
        t.lines.length + t.shownLog.length = a.count.toNat ∧
        ∀ elapsed, takePaced g a.interval elapsed a.count 0 .success s =
          .ok ⟨⟨t.lines, rs.flatMap Reading.told, t.exit, stateAfter rs s⟩,
            (List.range a.count.toNat).map (restDue a.interval elapsed a.count.toNat)⟩
    | .error why =>
      (∀ s', run arguments events s' handler =
          ⟨.failure, [], [.argumentsTaken a.fields, .complaint why], none⟩) ∧
        (run arguments events s handler).shownLog = [.complaint why] := by
  cases hbuild : a.settings.build with
  | error why =>
      refine ⟨fun s' => run_of_no_build hparse hbuild events s' handler, ?_⟩
      rw [run_of_no_build hparse hbuild]
      rfl
  | ok g =>
      have hsound : ∀ r ∈ g.readings a.count.toNat s, r.outcome ≠ .breakdown := fun r hr =>
        Gauge.outcome_of_mem_readings (Settings.sensorsLast_of_build hbuild) hframes hr
      have hrun := run_of_build hparse hcounted hbuild hsound events handler
      have hshown : (run arguments events s handler).shownLog =
          (g.readings a.count.toNat s).filterMap Reading.complaint? := by
        rw [hrun]
        exact Reading.filter_flatMap_told fun r hr _ => Gauge.level_of_mem_log_readings hr
      have hcount : (run arguments events s handler).lines.length +
          (run arguments events s handler).shownLog.length = a.count.toNat := by
        rw [hshown, hrun]
        exact (Reading.length_lines_add_length_complaints hsound).trans (g.length_readings _ s)
      refine ⟨g.length_readings _ s, hsound, hrun, hshown, hcount, ?_⟩
      intro elapsed
      have hzero : a.count.toNat = (0 : UInt32).toNat + a.count.toNat := (Nat.zero_add _).symm
      rw [takePaced_eq hzero hsound, takeSamples_eq hsound, hrun, List.range_eq_range']
      rfl

/-- Sensors that are at their limit, but for one reading in which there are none. -/
def flickering : Surroundings :=
  let hot : Component := ⟨"", some (.ofNat 100), some (.ofNat 100)⟩
  ⟨.empty, .ofFrames [some [hot], some [], some [hot]], []⟩

theorem run_counted_flickering :
    let arguments := ["--count=3", "-s", "components"].map Utf8.encode
    ∃ a, parse arguments = .ok a ∧ a.watch = false ∧
      (∀ frame ∈ flickering.feed.frames, frame ≠ none) ∧
      (run arguments none flickering).exit = .failure ∧
      (run arguments none flickering).lines = ["100", "100"] ∧
      (run arguments none flickering).shownLog = [.complaint (.noSensors "components")] := by
  intro arguments
  let a : Arguments := { (default : Arguments) with selection := .components, count := 3 }
  have hparse : parse arguments = .ok a := toOption_eq_some_iff.mp (by decide +kernel)
  have hframes : ∀ frame ∈ flickering.feed.frames, frame ≠ none := by decide +kernel
  have hbuild : a.settings.build = .ok ⟨.components, [.components default]⟩ := rfl
  have h := run_counted hparse rfl none flickering (.ok ()) hframes
  rw [hbuild] at h
  obtain ⟨-, -, hrun, hshown, -⟩ := h
  refine ⟨a, hparse, rfl, hframes, ?_, ?_, ?_⟩
  · rw [hrun]
    decide +kernel
  · rw [hrun]
    decide +kernel
  · rw [hshown]
    decide +kernel

end Run

end Command

end ThermalGauge
