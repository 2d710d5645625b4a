import ThermalGauge.Proofs.Gauge

/-!
# Sources asked in order

Each source is asked in the state that the one before it left, up to the first whose answer is no
fault.  A reading is put together from these attempts: the last of them decides its outcome and its
state, and each adds what the source tells the log and what is told of it.  So asking some sources
and then others is asking all of them, unless the first ones have an answer.
-/

namespace ThermalGauge

namespace Source

variable {σ : Type}

/-- A source that is asked, and the state in which it is. -/
structure Attempt (σ : Type) where
  source : Source σ
  state : σ

namespace Attempt

def reading (a : Attempt σ) : Reading σ := a.source.read a.state

/-- The record of a source that failed. -/
def failure? (a : Attempt σ) : Option Notice :=
  match a.reading.outcome with
  | .fault why => some (.sourceFailed a.source.name why)
  | _ => none

/-- The record of a source that has a load. -/
def success? (a : Attempt σ) : Option Notice :=
  match a.reading.outcome with
  | .load load => some (.sourceRead a.source.name load)
  | _ => none

/-- What the log is told of a source, besides what the source tells it. -/
def verdict (a : Attempt σ) : Log := a.failure?.toList ++ a.success?.toList

def told (a : Attempt σ) : Log := a.reading.log ++ a.verdict

theorem level_of_failure? {a : Attempt σ} {n : Notice} (h : a.failure? = some n) :
    n.level = .debug := by
  unfold failure? at h
  split at h
  · cases h
    rfl
  · cases h

end Attempt

/-- The attempts that are made. -/
def attempts : List (Source σ) → σ → List (Attempt σ)
  | [], _ => []
  | source :: sources, s =>
    match (source.read s).outcome with
    | .fault _ => ⟨source, s⟩ :: attempts sources (source.read s).state
    | _ => [⟨source, s⟩]

section OneSource

variable {source : Source σ} {s : σ} {why : Fault}

theorem verdict_of_failed (h : (source.read s).outcome = .fault why) :
    Attempt.verdict ⟨source, s⟩ = [.sourceFailed source.name why] := by
  simp [Attempt.verdict, Attempt.failure?, Attempt.success?, Attempt.reading, h]

theorem success?_of_failed (h : (source.read s).outcome = .fault why) :
    Attempt.success? ⟨source, s⟩ = none := by
  simp [Attempt.success?, Attempt.reading, h]

theorem attempts_cons_of_failed (h : (source.read s).outcome = .fault why)
    (sources : List (Source σ)) :
    attempts (source :: sources) s = ⟨source, s⟩ :: attempts sources (source.read s).state := by
  simp only [attempts, h]

theorem attempts_cons_of_answered (h : ∀ why, (source.read s).outcome ≠ .fault why)
    (sources : List (Source σ)) : attempts (source :: sources) s = [⟨source, s⟩] := by
  rw [attempts]
  split
  · rename_i why hwhy
    exact absurd hwhy (h why)
  · rfl

theorem readFrom_cons_of_failed (h : (source.read s).outcome = .fault why) (last : Fault)
    (sources : List (Source σ)) :
    readFrom last (source :: sources) s =
      (readFrom why sources (source.read s).state).after (Attempt.told ⟨source, s⟩) := by
  rw [readFrom_cons_of_fault h, Attempt.told, verdict_of_failed h]
  simp [Reading.after, Attempt.reading]

theorem readFrom_cons_of_answered (h : ∀ why, (source.read s).outcome ≠ .fault why) (last : Fault)
    (sources : List (Source σ)) :
    readFrom last (source :: sources) s =
      ⟨(source.read s).outcome, (source.read s).state, Attempt.told ⟨source, s⟩⟩ := by
  cases hread : source.read s with
  | mk outcome state log =>
      cases outcome with
      | fault why => exact absurd (congrArg Reading.outcome hread) (h why)
      | load load =>
          rw [readFrom_cons_of_load (congrArg Reading.outcome hread)]
          simp [Attempt.told, Attempt.verdict, Attempt.failure?, Attempt.success?,
            Attempt.reading, hread]
      | breakdown =>
          rw [readFrom_cons_of_breakdown (congrArg Reading.outcome hread)]
          simp [Attempt.told, Attempt.verdict, Attempt.failure?, Attempt.success?,
            Attempt.reading, hread]

end OneSource

section AllSources

variable {xs : List (Source σ)} {s : σ} {last why : Fault}

/-- The fault that stands at first makes no difference once a source is asked. -/
theorem readFrom_congr (h : xs ≠ []) (last last' : Fault) (s : σ) :
    readFrom last xs s = readFrom last' xs s := by
  cases xs with
  | nil => exact absurd rfl h
  | cons source sources => rfl

theorem append_of_fault (h : (readFrom last xs s).outcome = .fault why) (ys : List (Source σ)) :
    readFrom last (xs ++ ys) s =
        (readFrom why ys (readFrom last xs s).state).after (readFrom last xs s).log ∧
      attempts (xs ++ ys) s = attempts xs s ++ attempts ys (readFrom last xs s).state := by
  fun_induction attempts xs s generalizing last with
  | case1 s =>
      cases h
      exact ⟨rfl, rfl⟩
  | case2 source sources s first hfirst ih =>
      rw [readFrom_cons_of_failed hfirst] at h ⊢
      obtain ⟨hreading, hattempts⟩ := ih h
      rw [List.cons_append, readFrom_cons_of_failed hfirst, attempts_cons_of_failed hfirst,
        hreading, Reading.after_after, hattempts]
      exact ⟨rfl, rfl⟩
  | case3 source sources s hanswer =>
      rw [readFrom_cons_of_answered hanswer] at h
      exact absurd h (hanswer why)

theorem append_of_answered (h : ∀ why, (readFrom last xs s).outcome ≠ .fault why)
    (ys : List (Source σ)) :
    readFrom last (xs ++ ys) s = readFrom last xs s ∧ attempts (xs ++ ys) s = attempts xs s := by
  fun_induction attempts xs s generalizing last with
  | case1 s => exact absurd rfl (h last)
  | case2 source sources s first hfirst ih =>
      rw [readFrom_cons_of_failed hfirst] at h ⊢
      obtain ⟨hreading, hattempts⟩ := ih h
      rw [List.cons_append, readFrom_cons_of_failed hfirst, attempts_cons_of_failed hfirst,
        hreading, hattempts]
      exact ⟨rfl, rfl⟩
  | case3 source sources s hanswer =>
      rw [List.cons_append, readFrom_cons_of_answered hanswer, readFrom_cons_of_answered hanswer,
        attempts_cons_of_answered hanswer]
      exact ⟨rfl, rfl⟩

theorem readFirst_append_of_fault (h : (readFirst xs s).outcome = .fault why)
    (ys : List (Source σ)) :
    readFirst (xs ++ ys) s = if ys.isEmpty then readFirst xs s
      else (readFirst ys (readFirst xs s).state).after (readFirst xs s).log := by
  cases ys with
  | nil => rw [List.append_nil, List.isEmpty_nil, if_pos rfl]
  | cons source sources =>
      have hreading := (append_of_fault h (source :: sources)).1
      rw [readFirst, hreading, readFrom_congr (List.cons_ne_nil _ _) why noSources]
      rfl

theorem log_readFrom (last : Fault) (xs : List (Source σ)) (s : σ) :
    (readFrom last xs s).log = (attempts xs s).flatMap Attempt.told := by
  fun_induction attempts xs s generalizing last with
  | case1 s => rfl
  | case2 source sources s first hfirst ih =>
      rw [readFrom_cons_of_failed hfirst, List.flatMap_cons, ← ih first]
      rfl
  | case3 source sources s hanswer =>
      rw [readFrom_cons_of_answered hanswer, List.flatMap_singleton]

theorem attempts_isPrefix (xs : List (Source σ)) (s : σ) :
    (attempts xs s).map Attempt.source <+: xs := by
  fun_induction attempts xs s with
  | case1 s => exact List.prefix_rfl
  | case2 source sources s first hfirst ih =>
      rw [List.map_cons]
      exact List.cons_prefix_cons.mpr ⟨rfl, ih⟩
  | case3 source sources s hanswer => exact ⟨sources, rfl⟩

/-- Where no source has an answer, all are asked. -/
theorem map_source_attempts_of_fault (h : (readFrom last xs s).outcome = .fault why) :
    (attempts xs s).map Attempt.source = xs := by
  fun_induction attempts xs s generalizing last with
  | case1 s => rfl
  | case2 source sources s first hfirst ih =>
      rw [readFrom_cons_of_failed hfirst] at h
      rw [List.map_cons, ih h]
  | case3 source sources s hanswer =>
      rw [readFrom_cons_of_answered hanswer] at h
      exact absurd h (hanswer why)

/-- The records of the failures come in order, that of a success behind them. -/
theorem flatMap_verdict_attempts (xs : List (Source σ)) (s : σ) :
    (attempts xs s).flatMap Attempt.verdict =
      (attempts xs s).filterMap Attempt.failure? ++ (attempts xs s).filterMap Attempt.success? := by
  fun_induction attempts xs s with
  | case1 s => rfl
  | case2 source sources s first hfirst ih =>
      rw [List.flatMap_cons, ih, verdict_of_failed hfirst]
      simp [Attempt.failure?, Attempt.success?, Attempt.reading, hfirst]
  | case3 source sources s hanswer =>
      rw [List.flatMap_singleton, Attempt.verdict, List.filterMap_cons, List.filterMap_cons]
      cases Attempt.failure? ⟨source, s⟩ <;> cases Attempt.success? ⟨source, s⟩ <;> rfl

/-- The one record of a success is that of the source asked last. -/
theorem success?_of_load {load : Load} (h : (readFrom last xs s).outcome = .load load) :
    ∃ a, (attempts xs s).getLast? = some a ∧
      (attempts xs s).filterMap Attempt.success? = [.sourceRead a.source.name load] := by
  fun_induction attempts xs s generalizing last with
  | case1 s => cases h
  | case2 source sources s first hfirst ih =>
      rw [readFrom_cons_of_failed hfirst] at h
      obtain ⟨a, hlast, hsuccess⟩ := ih h
      refine ⟨a, by rw [List.getLast?_cons, hlast]; rfl, ?_⟩
      rw [List.filterMap_cons, success?_of_failed hfirst]
      exact hsuccess
  | case3 source sources s hanswer =>
      rw [readFrom_cons_of_answered hanswer] at h
      have hload : (source.read s).outcome = .load load := h
      have hsuccess : Attempt.success? ⟨source, s⟩ = some (.sourceRead source.name load) := by
        simp only [Attempt.success?, Attempt.reading, hload]
      exact ⟨⟨source, s⟩, rfl, by rw [List.filterMap_cons, hsuccess]; rfl⟩

theorem success?_of_ne_load (h : ∀ load, (readFrom last xs s).outcome ≠ .load load) :
    (attempts xs s).filterMap Attempt.success? = [] := by
  fun_induction attempts xs s generalizing last with
  | case1 s => rfl
  | case2 source sources s first hfirst ih =>
      rw [readFrom_cons_of_failed hfirst] at h
      rw [List.filterMap_cons, success?_of_failed hfirst]
      exact ih h
  | case3 source sources s hanswer =>
      rw [readFrom_cons_of_answered hanswer] at h
      have hnone : Attempt.success? ⟨source, s⟩ = none := by
        unfold Attempt.success?
        split
        · rename_i load hload
          exact absurd hload (h load)
        · rfl
      rw [List.filterMap_cons, hnone]
      rfl

/-- The source asked last has the outcome and leaves the state. -/
theorem exists_last_attempt (h : xs ≠ []) (last : Fault) (s : σ) :
    ∃ a, (attempts xs s).getLast? = some a ∧
      a.reading.outcome = (readFrom last xs s).outcome ∧
      a.reading.state = (readFrom last xs s).state := by
  fun_induction attempts xs s generalizing last with
  | case1 s => exact absurd rfl h
  | case2 source sources s first hfirst ih =>
      rw [readFrom_cons_of_failed hfirst]
      -- a failure is the last one if there is no other source
      cases sources with
      | nil => exact ⟨⟨source, s⟩, rfl, hfirst, rfl⟩
      | cons next sources =>
          obtain ⟨a, hlast, hreading⟩ := ih (List.cons_ne_nil _ _) first
          exact ⟨a, by rw [List.getLast?_cons, hlast]; rfl, hreading⟩
  | case3 source sources s hanswer =>
      rw [readFrom_cons_of_answered hanswer]
      exact ⟨⟨source, s⟩, rfl, rfl, rfl⟩

/-- Where `xs` have no answer, asking `xs` and then `ys` asks `ys` in the state that `xs` left and
behind their log; else `ys` are not asked.  The source asked last gives the outcome, its fault if it
has one, and leaves the state.  The log has a record for each source that failed, in order, and one
behind them where a source has a load.  The sentinel changes nothing but a fault, which it
records. -/
theorem readFirst_in_order (xs ys : List (Source σ)) (s : σ) :
    let r := readFirst xs s
    let asked := attempts xs s
    (match r.outcome with
      | .fault _ =>
        readFirst (xs ++ ys) s = (if ys.isEmpty then r else (readFirst ys r.state).after r.log) ∧
          attempts (xs ++ ys) s = asked ++ attempts ys r.state
      | _ => readFirst (xs ++ ys) s = r ∧ attempts (xs ++ ys) s = asked) ∧
    readFirst ([] : List (Source σ)) s = ⟨.fault (.noSensors "sampler"), s, []⟩ ∧
    (xs ≠ [] → ∃ a, asked.getLast? = some a ∧ a.reading.outcome = r.outcome ∧
      a.reading.state = r.state) ∧
    (asked.map Attempt.source <+: xs ∧
      r.log = asked.flatMap (fun a => a.reading.log ++ a.verdict) ∧
      asked.flatMap Attempt.verdict =
        asked.filterMap Attempt.failure? ++ asked.filterMap Attempt.success? ∧
      (∀ n ∈ asked.filterMap Attempt.failure?, n.level = .debug) ∧
      match r.outcome with
      | .load load => ∃ a, asked.getLast? = some a ∧
          asked.filterMap Attempt.success? = [.sourceRead a.source.name load] ∧
          (Notice.sourceRead a.source.name load).level = .trace
      | .fault _ => asked.filterMap Attempt.success? = [] ∧ asked.map Attempt.source = xs
      | .breakdown => asked.filterMap Attempt.success? = []) ∧
    match r.outcome with
    | .fault why =>
      r.orSentinel = ⟨.load .none, r.state, r.log ++ [.noReading why]⟩ ∧
        (Notice.noReading why).level = .warn
    | _ => r.orSentinel = r := by
  intro r asked
  refine ⟨?_, rfl, fun hxs => exists_last_attempt hxs _ s, ⟨attempts_isPrefix xs s,
    log_readFrom _ xs s, flatMap_verdict_attempts xs s, ?_, ?_⟩, ?_⟩
  · cases houtcome : r.outcome with
    | load load => exact append_of_answered (fun why h => by cases houtcome.symm.trans h) ys
    | breakdown => exact append_of_answered (fun why h => by cases houtcome.symm.trans h) ys
    | fault why => exact ⟨readFirst_append_of_fault houtcome ys, (append_of_fault houtcome ys).2⟩
  · intro n hn
    obtain ⟨a, -, hfailure⟩ := List.mem_filterMap.mp hn
    exact Attempt.level_of_failure? hfailure
  · cases houtcome : r.outcome with
    | load load =>
        obtain ⟨a, hlast, hsuccess⟩ := success?_of_load houtcome
        exact ⟨a, hlast, hsuccess, rfl⟩
    | breakdown => exact success?_of_ne_load (fun load h => by cases houtcome.symm.trans h)
    | fault why =>
        exact ⟨success?_of_ne_load (fun load h => by cases houtcome.symm.trans h),
          map_source_attempts_of_fault houtcome⟩
  · cases houtcome : r.outcome with
    | load load => simp only [Reading.orSentinel, houtcome]
    | breakdown => simp only [Reading.orSentinel, houtcome]
    | fault why =>
        refine ⟨?_, rfl⟩
        simp only [Reading.orSentinel, houtcome]
        rfl

end AllSources

end Source

end ThermalGauge
