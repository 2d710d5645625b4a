import ThermalGauge.Command.Run
import ThermalGauge.Proofs.Monitor.Performance

/-!
# What a watch prints

However the steps of a monitor and a printer are mixed, and whatever becomes of the files
meanwhile, the lines that are printed and the changes that are queued make up the changes of the
loads that were read.  Each line goes on from the load that the one before it came to.  A watch
ends with a failure if and only if its sensors broke down, and if nobody interrupts it, then it
has printed everything by then.  A run of the command that watches is such a mix of steps, if
interrupts can be handled.
-/

namespace ThermalGauge

/-- The load that a sample counts as; a breakdown counts as none. -/
def Outcome.counted? : Outcome → Option Load
  | load l => some l
  | fault _ => some .sentinel
  | breakdown => none

/-- The loads that samples count as, in order. -/
def countedLoads (samples : List Outcome) : List Load := samples.filterMap Outcome.counted?

theorem countedLoads_append (samples later : List Outcome) :
    countedLoads (samples ++ later) = countedLoads samples ++ countedLoads later :=
  List.filterMap_append ..

namespace Monitor.State

variable {σ : Type} {s : State σ} {sources : List (Source σ)} {load : Load}

theorem record_of_open (hready : s.channel.ready = true) (hreceiver : s.channel.receiver = true)
    (selection : Selection) (load : Load) :
    s.record selection load =
      { s with
        tracker := ⟨some load⟩
        channel := { s.channel with
          queue := s.channel.queue ++ (s.tracker.observe load selection).2.toList } } := by
  cases hchange : (s.tracker.observe load selection).2 with
  | none => simp [record_of_steady hchange]
  | some change =>
      rw [record_of_change hchange, deliver_of_open (by exact hready) (by exact hreceiver)]
      rfl

theorem exists_turn_of_counted (hready : s.channel.ready = true)
    (hreceiver : s.channel.receiver = true) (selection : Selection)
    (h : (Source.readFirst sources s.surroundings).outcome.counted? = some load) :
    ∃ surroundings log, s.turn sources selection =
      { s with
        surroundings
        log
        status := .testing
        tracker := ⟨some load⟩
        channel := { s.channel with
          queue := s.channel.queue ++ (s.tracker.observe load selection).2.toList } } := by
  unfold turn
  cases hread : (Source.readFirst sources s.surroundings).outcome with
  | load l =>
      rw [hread] at h
      cases h
      simp only [hread]
      rw [record_of_open (by exact hready) (by exact hreceiver)]
      exact ⟨_, _, rfl⟩
  | fault why =>
      rw [hread] at h
      cases h
      simp only [hread]
      rw [record_of_open (by exact hready) (by exact hreceiver)]
      exact ⟨_, _, rfl⟩
  | breakdown =>
      rw [hread] at h
      cases h

theorem exists_turn_of_breakdown (selection : Selection)
    (h : (Source.readFirst sources s.surroundings).outcome = .breakdown) :
    ∃ surroundings log, s.turn sources selection =
      { s with
        surroundings
        log
        status := .broken
        channel := s.channel.dropSender 0 } := by
  simp only [turn, h]
  exact ⟨_, _, rfl⟩

theorem isLooping_iff : s.isLooping = true ↔ s.status = .testing ∨ s.status = .sampling := by
  unfold isLooping
  cases s.status <;> decide

theorem isLooping_eq_false_iff :
    s.isLooping = false ↔ s.status = .left ∨ s.status = .broken := by
  unfold isLooping
  cases s.status <;> decide

end Monitor.State

namespace Command

namespace Watch

/-- What comes next: a step of one of the actors, or a change of the files and sensors, which are
`now` as they may be. -/
inductive Move where
  | actor (a : Actor)
  | surroundings (now : Surroundings)

namespace Move

def isPrinter : Move → Bool
  | actor .printer => true
  | _ => false

end Move

namespace State

def surround (s : State) (now : Surroundings) : State :=
  { s with monitor := { s.monitor with surroundings := now } }

def move (g : Gauge) (s : State) : Move → State
  | .actor a => s.step g a
  | .surroundings now => s.surround now

def play (g : Gauge) (s : State) (moves : List Move) : State := moves.foldl (move g) s

theorem play_map_actor (g : Gauge) (s : State) (schedule : List Actor) :
    s.play g (schedule.map .actor) = s.run g schedule :=
  List.foldl_map

/-- The outcome of the sample that a move takes, if it takes one. -/
def sample? (g : Gauge) (s : State) : Move → Option Outcome
  | .actor .monitor =>
    if s.monitor.status = .sampling then some (g.read s.monitor.surroundings).outcome else none
  | _ => none

/-- The outcomes of all samples that some moves take. -/
def samples (g : Gauge) (s : State) : List Move → List Outcome
  | [] => []
  | m :: moves => (s.sample? g m).toList ++ (s.move g m).samples g moves

end State

/-- What a move can do, together with the sample that it takes. -/
inductive Happens (g : Gauge) (s : State) : Move → Option Outcome → State → Prop
  | interrupt :
      Happens g s (.actor .interrupt) none ((s.tell .interrupted).setRunning false)
  | surround (now : Surroundings) : Happens g s (.surroundings now) none (s.surround now)
  | goOn (h : s.monitor.status = .testing) (hrunning : s.monitor.running = true) :
      Happens g s (.actor .monitor) none
        { s with monitor := { s.monitor with status := .sampling } }
  | leave (h : s.monitor.status = .testing) (hrunning : s.monitor.running = false) :
      Happens g s (.actor .monitor) none { s with monitor := s.monitor.leave }
  | count (h : s.monitor.status = .sampling) {outcome : Outcome} {load : Load}
      (hload : outcome.counted? = some load) (surroundings : Surroundings) (log : Log) :
      Happens g s (.actor .monitor) (some outcome)
        { s with monitor := { s.monitor with
            surroundings
            log
            status := .testing
            tracker := ⟨some load⟩
            channel := { s.monitor.channel with
              queue := s.monitor.channel.queue ++
                (s.monitor.tracker.observe load g.selection).2.toList } } }
  | breakDown (h : s.monitor.status = .sampling) (surroundings : Surroundings) (log : Log) :
      Happens g s (.actor .monitor) (some .breakdown)
        { s with monitor := { s.monitor with
            surroundings
            log
            status := .broken
            channel := s.monitor.channel.dropSender 0 } }
  | rest (h : s.monitor.isLooping = false) : Happens g s (.actor .monitor) none s
  | look (h : s.printer = .testing) (hrunning : s.monitor.running = true) :
      Happens g s (.actor .printer) none { s with printer := .receiving }
  | close (h : s.printer = .testing ∧ s.monitor.running = false ∨
        s.printer = .receiving ∧ s.monitor.channel.queue = [] ∧
          s.monitor.channel.hasSender = false) :
      Happens g s (.actor .printer) none s.close
  | print (h : s.printer = .receiving) {change : Change} {queue : List Change}
      (hqueue : s.monitor.channel.queue = change :: queue) :
      Happens g s (.actor .printer) none
        { s with
          monitor := { s.monitor with channel := { s.monitor.channel with queue } }
          printer := .testing
          lines := s.lines ++ [change.line] }
  | timeOut (h : s.printer = .receiving) (hqueue : s.monitor.channel.queue = [])
      (hsender : s.monitor.channel.hasSender = true) :
      Happens g s (.actor .printer) none { s with printer := .testing }
  | wait (h : s.printer = .joining) (hlooping : s.monitor.isLooping = true) :
      Happens g s (.actor .printer) none s
  | exit (h : s.printer = .joining) (hended : s.monitor.isLooping = false) {failed : Bool}
      (hfailed : failed = true ↔ s.monitor.status = .broken) (log : Log) :
      Happens g s (.actor .printer) none
        { s with
          monitor := { s.monitor with log }
          printer := .done failed }
  | stay {failed : Bool} (h : s.printer = .done failed) : Happens g s (.actor .printer) none s

section Moves

variable {g : Gauge} {s : State}

theorem happens_monitor (hready : s.monitor.channel.ready = true)
    (hreceiver : s.monitor.channel.receiver = true) :
    Happens g s (.actor .monitor) (s.sample? g (.actor .monitor)) (s.move g (.actor .monitor)) := by
  cases h : s.monitor.status with
  | testing =>
      cases hrunning : s.monitor.running with
      | true =>
          simpa [State.move, State.step, State.sample?, Monitor.State.step, Monitor.State.test, h,
            hrunning] using Happens.goOn (g := g) h hrunning
      | false =>
          simpa [State.move, State.step, State.sample?, Monitor.State.step, Monitor.State.test, h,
            hrunning] using Happens.leave (g := g) h hrunning
  | sampling =>
      have hsample : s.sample? g (.actor .monitor) =
          some (Source.readFirst g.sources s.monitor.surroundings).outcome := by
        simp only [State.sample?, h, if_true, Gauge.read]
      have hmove : s.move g (.actor .monitor) =
          { s with monitor := s.monitor.turn g.sources g.selection } := by
        simp only [State.move, State.step, Monitor.State.step, h]
      rw [hsample, hmove]
      cases hload : (Source.readFirst g.sources s.monitor.surroundings).outcome.counted? with
      | some load =>
          obtain ⟨surroundings, log, hturn⟩ :=
            Monitor.State.exists_turn_of_counted hready hreceiver g.selection hload
          rw [hturn]
          exact .count h hload surroundings log
      | none =>
          have hbreakdown : (Source.readFirst g.sources s.monitor.surroundings).outcome =
              .breakdown := by
            revert hload
            cases (Source.readFirst g.sources s.monitor.surroundings).outcome <;>
              simp [Outcome.counted?]
          obtain ⟨surroundings, log, hturn⟩ :=
            Monitor.State.exists_turn_of_breakdown g.selection hbreakdown
          rw [hbreakdown, hturn]
          exact .breakDown h surroundings log
  | left =>
      simpa [State.move, State.step, State.sample?, Monitor.State.step, h] using
        Happens.rest (g := g) (Monitor.State.isLooping_eq_false_iff.mpr (.inl h))
  | broken =>
      simpa [State.move, State.step, State.sample?, Monitor.State.step, h] using
        Happens.rest (g := g) (Monitor.State.isLooping_eq_false_iff.mpr (.inr h))

theorem happens_printer (g : Gauge) (s : State) :
    Happens g s (.actor .printer) none (s.move g (.actor .printer)) := by
  simp only [State.move, State.step, State.stepPrinter]
  cases h : s.printer with
  | testing =>
      cases hrunning : s.monitor.running with
      | true => exact .look h hrunning
      | false => exact .close (.inl ⟨h, hrunning⟩)
  | receiving =>
      simp only [Channel.await]
      cases hqueue : s.monitor.channel.queue with
      | cons change queue => exact .print h hqueue
      | nil =>
          cases hsender : s.monitor.channel.hasSender with
          | true => exact .timeOut h hqueue hsender
          | false => exact .close (.inr ⟨h, hqueue, hsender⟩)
  | joining =>
      cases hstatus : s.monitor.status with
      | left =>
          have hended := Monitor.State.isLooping_eq_false_iff.mpr (.inl hstatus)
          exact .exit h hended (by simp [hstatus]) _
      | broken =>
          have hended := Monitor.State.isLooping_eq_false_iff.mpr (.inr hstatus)
          exact .exit h hended (by simp [hstatus]) _
      | testing => exact .wait h (Monitor.State.isLooping_iff.mpr (.inl hstatus))
      | sampling => exact .wait h (Monitor.State.isLooping_iff.mpr (.inr hstatus))
  | done failed => exact .stay h

theorem happens (hready : s.monitor.channel.ready = true)
    (hreceiver : s.monitor.channel.receiver = true) (m : Move) :
    Happens g s m (s.sample? g m) (s.move g m) := by
  cases m with
  | surroundings now => exact .surround now
  | actor a =>
      cases a with
      | monitor => exact happens_monitor hready hreceiver
      | printer => exact happens_printer g s
      | interrupt => exact .interrupt

end Moves

/-- What was printed and what is queued are the changes of the loads that were read. -/
structure Books (g : Gauge) (samples : List Outcome) (s : State) : Prop where
  tracker : s.monitor.tracker = ⟨(countedLoads samples).getLast?⟩
  ready : s.monitor.channel.ready = true
  receiver : s.monitor.channel.receiver = true
  balanced : ∃ printed : List Change, s.lines = printed.map Change.line ∧
    printed ++ s.monitor.channel.queue =
      Tracker.fresh.changes g.selection (countedLoads samples)

/-- The sender is there as long as the monitor goes on, and a watch that is over tells how the
monitor ended. -/
structure Ends (samples : List Outcome) (s : State) : Prop where
  senders : s.monitor.channel.senders = [s.monitor.isLooping]
  broken : s.monitor.status = .broken ↔ .breakdown ∈ samples
  done : ∀ failed, s.printer = .done failed →
    s.monitor.isLooping = false ∧ (failed = true ↔ s.monitor.status = .broken)

section Step

variable {g : Gauge} {s s' : State} {m : Move} {outcome : Option Outcome} {samples : List Outcome}

theorem Books.next (h : Books g samples s) (hs : Happens g s m outcome s') :
    Books g (samples ++ outcome.toList) s' := by
  obtain ⟨printed, hlines, hbalanced⟩ := h.balanced
  cases hs with
  | count hstatus hload surroundings log =>
      rename_i sampled load
      have hloads : countedLoads (samples ++ [sampled]) = countedLoads samples ++ [load] := by
        rw [countedLoads_append]
        simp [countedLoads, hload]
      refine ⟨?_, h.ready, h.receiver, printed, hlines, ?_⟩
      · rw [Option.toList_some, hloads, List.getLast?_concat]
      · rw [Option.toList_some, hloads, Tracker.changes_concat, ← hbalanced, h.tracker,
          List.append_assoc]
        simp [Tracker.fresh]
  | breakDown hstatus surroundings log =>
      have hloads : countedLoads (samples ++ [.breakdown]) = countedLoads samples := by
        rw [countedLoads_append]
        simp [countedLoads, Outcome.counted?]
      rw [← hloads] at hbalanced
      exact ⟨by rw [Option.toList_some, hloads]; exact h.tracker, h.ready, h.receiver, printed,
        hlines, hbalanced⟩
  | print hprinter hqueue =>
      rename_i change queue
      rw [Option.toList_none, List.append_nil]
      refine ⟨h.tracker, h.ready, h.receiver, printed ++ [change], ?_, ?_⟩
      · rw [hlines, List.map_append, List.map_singleton]
      · rw [← hbalanced, hqueue, List.append_assoc, List.singleton_append]
  | _ =>
      rw [Option.toList_none, List.append_nil]
      exact ⟨h.tracker, h.ready, h.receiver, printed, hlines, hbalanced⟩

theorem Ends.not_done (h : Ends samples s) (hlooping : s.monitor.isLooping = true) (failed : Bool) :
    s.printer ≠ .done failed := by
  intro hdone
  rw [(h.done failed hdone).1] at hlooping
  cases hlooping

theorem Ends.next (h : Ends samples s) (hs : Happens g s m outcome s') :
    Ends (samples ++ outcome.toList) s' := by
  have hbroken := h.broken
  cases hs with
  | goOn hstatus hrunning =>
      have hlooping := Monitor.State.isLooping_iff.mpr (.inl hstatus)
      rw [Option.toList_none, List.append_nil]
      refine ⟨?_, ?_, fun failed hdone => absurd hdone (h.not_done hlooping failed)⟩
      · rw [h.senders, hlooping]
        rfl
      · simpa [hstatus] using hbroken
  | leave hstatus hrunning =>
      have hlooping := Monitor.State.isLooping_iff.mpr (.inl hstatus)
      rw [Option.toList_none, List.append_nil]
      refine ⟨?_, ?_, fun failed hdone => absurd hdone (h.not_done hlooping failed)⟩
      · simp [Monitor.State.leave, Monitor.State.tell, Channel.dropSender, h.senders,
          Monitor.State.isLooping]
      · simpa [hstatus, Monitor.State.leave] using hbroken
  | count hstatus hload surroundings log =>
      rename_i sampled load
      have hlooping := Monitor.State.isLooping_iff.mpr (.inr hstatus)
      have hsampled : Outcome.breakdown ≠ sampled := by
        rintro rfl
        cases hload
      refine ⟨?_, ?_, fun failed hdone => absurd hdone (h.not_done hlooping failed)⟩
      · exact h.senders.trans (by rw [hlooping]; rfl)
      · simpa [hstatus, hsampled] using hbroken
  | breakDown hstatus surroundings log =>
      have hlooping := Monitor.State.isLooping_iff.mpr (.inr hstatus)
      refine ⟨?_, by simp, fun failed hdone => absurd hdone (h.not_done hlooping failed)⟩
      simp [Channel.dropSender, h.senders, Monitor.State.isLooping]
  | exit hprinter hended hfailed log =>
      rw [Option.toList_none, List.append_nil]
      refine ⟨h.senders, hbroken, ?_⟩
      rintro _ ⟨⟩
      exact ⟨hended, hfailed⟩
  | look | close | print | timeOut =>
      rw [Option.toList_none, List.append_nil]
      refine ⟨h.senders, hbroken, ?_⟩
      rintro failed ⟨⟩
  | _ =>
      rw [Option.toList_none, List.append_nil]
      exact ⟨h.senders, hbroken, h.done⟩

end Step

/-- Nobody has interrupted the watch: the printer goes on while the monitor does, and has stopped
only where the sensors broke down and nothing is queued. -/
inductive Calm (s : State) : Prop
  | going (hprinter : s.printer = .testing ∨ s.printer = .receiving)
      (hrunning : s.monitor.running = true) (hstatus : s.monitor.status ≠ .left)
  | past (hprinter : s.printer = .joining ∨ ∃ failed, s.printer = .done failed)
      (hstatus : s.monitor.status = .broken) (hqueue : s.monitor.channel.queue = [])

/-- How many steps the printer makes at most once the monitor has ended. -/
def patience (s : State) : Nat :=
  match s.printer with
  | .testing => 2 * s.monitor.channel.queue.length + 3
  | .receiving => 2 * s.monitor.channel.queue.length + 2
  | .joining => 1
  | .done _ => 0

section Step

variable {g : Gauge} {s s' : State} {m : Move} {outcome : Option Outcome} {samples : List Outcome}

theorem Ends.hasSender (h : Ends samples s) :
    s.monitor.channel.hasSender = s.monitor.isLooping := by
  rw [Channel.hasSender, h.senders]
  cases s.monitor.isLooping <;> rfl

theorem Calm.next (h : Calm s) (hends : Ends samples s) (hs : Happens g s m outcome s')
    (hm : m ≠ .actor .interrupt) : Calm s' := by
  cases h with
  | going hprinter hrunning hstatus =>
      cases hs with
      | interrupt => exact absurd rfl hm
      | leave _ hstopped => exact absurd hrunning (Bool.eq_false_iff.mp hstopped)
      | goOn | count | breakDown => exact .going hprinter hrunning nofun
      | surround | rest => exact .going hprinter hrunning hstatus
      | look => exact .going (.inr rfl) hrunning hstatus
      | print | timeOut => exact .going (.inl rfl) hrunning hstatus
      | close hclose =>
          rcases hclose with ⟨-, hstopped⟩ | ⟨-, hqueue, hsender⟩
          · exact absurd hrunning (Bool.eq_false_iff.mp hstopped)
          · -- without a sender the monitor has ended, and it never left
            rw [hends.hasSender, Monitor.State.isLooping_eq_false_iff] at hsender
            exact .past (.inl rfl) (hsender.resolve_left hstatus) hqueue
      | wait h | exit h | stay h =>
          rcases hprinter with hprinter | hprinter <;> rw [hprinter] at h <;> cases h
  | past hprinter hstatus hqueue =>
      cases hs with
      | interrupt => exact absurd rfl hm
      | goOn h | leave h | count h | breakDown h =>
          rw [hstatus] at h
          cases h
      | surround | rest | wait | stay => exact .past hprinter hstatus hqueue
      | exit => exact .past (.inr ⟨_, rfl⟩) hstatus hqueue
      | look h | print h | timeOut h =>
          rcases hprinter with hprinter | ⟨failed, hprinter⟩ <;> rw [hprinter] at h <;> cases h
      | close => exact .past (.inl rfl) hstatus hqueue

/-- A monitor that has ended stays so, and each step of the printer brings it nearer to its own
end. -/
theorem Happens.patience_le (hs : Happens g s m outcome s') (hends : Ends samples s)
    (hended : s.monitor.isLooping = false) :
    s'.monitor.isLooping = false ∧
      patience s' ≤ patience s - if m.isPrinter then 1 else 0 := by
  have hstatus := Monitor.State.isLooping_eq_false_iff.mp hended
  cases hs with
  | goOn h | leave h | count h | breakDown h =>
      rw [h] at hstatus
      rcases hstatus with hstatus | hstatus <;> cases hstatus
  | timeOut _ _ hsender =>
      rw [hends.hasSender, hended] at hsender
      cases hsender
  | wait _ hlooping =>
      rw [hended] at hlooping
      cases hlooping
  | interrupt | surround | rest => exact ⟨hended, Nat.le_refl _⟩
  | look h => exact ⟨hended, by simp [patience, h, Move.isPrinter]⟩
  | close h =>
      refine ⟨hended, ?_⟩
      rcases h with ⟨h, -⟩ | ⟨h, -, -⟩ <;>
        simp [patience, h, Move.isPrinter, State.close]
  | print h hqueue =>
      refine ⟨hended, ?_⟩
      simp only [patience, h, hqueue, Move.isPrinter, List.length_cons, if_true]
      omega
  | exit h => exact ⟨hended, by simp [patience]⟩
  | stay h => exact ⟨hended, by simp [patience, h]⟩

end Step

/-- What holds of a watch all along. -/
structure Kept (g : Gauge) (samples : List Outcome) (s : State) : Prop where
  books : Books g samples s
  ends : Ends samples s

section Runs

variable {g : Gauge} {s : State} {samples : List Outcome}

theorem kept_start (g : Gauge) (interval : Interval) (surroundings : Surroundings) :
    Kept g [] (start interval surroundings) :=
  ⟨⟨rfl, rfl, rfl, [], rfl, rfl⟩, ⟨rfl, by simp [start, Monitor.start], nofun⟩⟩

theorem Kept.happens (h : Kept g samples s) (m : Move) :
    Happens g s m (s.sample? g m) (s.move g m) :=
  Watch.happens h.books.ready h.books.receiver m

theorem Kept.move (h : Kept g samples s) (m : Move) :
    Kept g (samples ++ (s.sample? g m).toList) (s.move g m) :=
  ⟨h.books.next (h.happens m), h.ends.next (h.happens m)⟩

theorem Kept.play (h : Kept g samples s) (moves : List Move) :
    Kept g (samples ++ s.samples g moves) (s.play g moves) := by
  induction moves generalizing samples s with
  | nil =>
      rw [State.samples, List.append_nil]
      exact h
  | cons m moves ih =>
      rw [State.samples, ← List.append_assoc]
      exact ih (h.move m)

theorem Kept.calm_play (h : Kept g samples s) (hcalm : Calm s) {moves : List Move}
    (hmoves : .actor .interrupt ∉ moves) : Calm (s.play g moves) := by
  induction moves generalizing samples s with
  | nil => exact hcalm
  | cons m moves ih =>
      have hm : m ≠ .actor .interrupt := (List.ne_of_not_mem_cons hmoves).symm
      exact ih (h.move m) (hcalm.next h.ends (h.happens m) hm) (List.not_mem_of_not_mem_cons hmoves)

theorem Kept.patience_play (h : Kept g samples s) (hended : s.monitor.isLooping = false)
    (moves : List Move) :
    patience (s.play g moves) ≤ patience s - moves.countP Move.isPrinter := by
  induction moves generalizing samples s with
  | nil => exact Nat.le_refl _
  | cons m moves ih =>
      obtain ⟨hended', hle⟩ := (h.happens m).patience_le h.ends hended
      have hrest := ih (h.move m) hended'
      have hplay : s.play g (m :: moves) = (s.move g m).play g moves := rfl
      rw [hplay, List.countP_cons]
      omega

theorem isDone_of_patience (h : patience s = 0) : s.isDone = true := by
  unfold patience at h
  unfold State.isDone
  split at h <;> simp_all

/-- The lines of a watch are those of the first changes of the loads that were read, each going on
from the load of the one before.  A watch that is over failed if and only if the sensors broke
down; if nobody interrupted it, then they did, and all changes up to then are printed.  Once the
monitor has ended, the watch is over as soon as the printer has made two steps for each change in
the queue and three more. -/
theorem play_prints_changes (g : Gauge) (interval : Interval) (surroundings : Surroundings)
    (moves : List Move) :
    let first := start interval surroundings
    let s := first.play g moves
    let samples := first.samples g moves
    let changes := Tracker.fresh.changes g.selection (countedLoads samples)
    (∃ printed, printed <+: changes ∧ s.lines = printed.map Change.line ∧
      s.lines = Change.linesFrom none (printed.map Change.load) ∧
      (printed.map Change.load).IsChain (· ≠ ·)) ∧
    (∀ failed, s.printer = .done failed → (failed = true ↔ .breakdown ∈ samples)) ∧
    (.actor .interrupt ∉ moves → ∀ failed, s.printer = .done failed →
      failed = true ∧ s.lines = changes.map Change.line) ∧
    (s.monitor.isLooping = false → ∀ later,
      2 * s.monitor.channel.queue.length + 3 ≤ later.countP Move.isPrinter →
        (s.play g later).isDone = true) := by
  intro first s samples changes
  have hkept : Kept g samples s := (kept_start g interval surroundings).play moves
  obtain ⟨printed, hlines, hbalanced⟩ := hkept.books.balanced
  have hinitial : printed <+: changes := ⟨_, hbalanced⟩
  have hlinked : Change.Linked none printed :=
    (Change.linked_changes Tracker.fresh g.selection _).of_initial hinitial
  refine ⟨⟨printed, hinitial, hlines, ?_, hlinked.isChain⟩, ?_, ?_, ?_⟩
  · rw [hlines, hlinked.map_line]
  · intro failed hdone
    rw [(hkept.ends.done failed hdone).2, hkept.ends.broken]
  · intro hmoves failed hdone
    have hcalm : Calm s :=
      (kept_start g interval surroundings).calm_play (.going (.inl rfl) rfl nofun) hmoves
    cases hcalm with
    | going hprinter => rcases hprinter with hprinter | hprinter <;> cases hdone.symm.trans hprinter
    | past _ hstatus hqueue =>
        refine ⟨(hkept.ends.done failed hdone).2.mpr hstatus, ?_⟩
        rw [hqueue, List.append_nil] at hbalanced
        rw [hlines, hbalanced]
  · intro hended later hlater
    apply isDone_of_patience
    have hle := hkept.patience_play hended later
    have hpatience : patience s ≤ 2 * s.monitor.channel.queue.length + 3 := by
      unfold patience
      split <;> omega
    omega

end Runs

section Plays

variable (g : Gauge)

theorem State.play_append (s : State) (moves later : List Move) :
    s.play g (moves ++ later) = (s.play g moves).play g later :=
  List.foldl_append

theorem exists_play_settle (count rounds : Nat) (s : State) :
    ∃ moves, s.settle g count rounds = s.play g moves := by
  induction rounds generalizing s with
  | zero => exact ⟨[], rfl⟩
  | succ rounds ih =>
      rw [State.settle]
      split
      · exact ⟨[], rfl⟩
      · obtain ⟨moves, hmoves⟩ := ih (s.run g State.round)
        refine ⟨State.round.map .actor ++ moves, ?_⟩
        rw [hmoves, State.play_append, State.play_map_actor]

theorem exists_play_follow (rounds : Nat) (events : List Event) (s : State) :
    ∃ moves, follow g rounds events s = s.play g moves := by
  induction events generalizing s with
  | nil => exact ⟨[], rfl⟩
  | cons event events ih =>
      let edited := s.edit event.edit
      let change := Move.surroundings (s.monitor.surroundings.edit event.edit)
      have hedited : edited = s.play g [change] := rfl
      have hsettled : ∃ moves, (if event.quiet then edited
          else edited.settle g s.lines.length rounds) = edited.play g moves := by
        split
        · exact ⟨[], rfl⟩
        · exact exists_play_settle g _ rounds edited
      obtain ⟨settled, hsettled⟩ := hsettled
      obtain ⟨later, hlater⟩ := ih (edited.play g settled)
      refine ⟨[change] ++ settled ++ later, ?_⟩
      rw [State.play_append, State.play_append, ← hedited, ← hlater, ← hsettled, follow]

theorem exists_play_runToEnd (rounds : Nat) (events : Option (List Event)) (s : State) :
    ∃ moves, runToEnd g rounds events s = s.play g moves := by
  cases events with
  | none => exact exists_play_settle g rounds rounds s
  | some events =>
      obtain ⟨first, hfirst⟩ := exists_play_settle g 0 rounds s
      obtain ⟨followed, hfollowed⟩ := exists_play_follow g rounds events (s.play g first)
      let late := (s.play g first).play g followed
      obtain ⟨last, hlast⟩ := exists_play_settle g (late.lines.length + rounds) rounds
        (late.play g [.actor .interrupt])
      refine ⟨first ++ followed ++ [.actor .interrupt] ++ last, ?_⟩
      rw [State.play_append, State.play_append, State.play_append, ← hlast, runToEnd, hfirst,
        hfollowed]
      rfl

end Plays

end Watch

/-- A run that watches is a play from the start of a watch.  If interrupts cannot be handled, then
nothing starts, and the log is told no more than that. -/
theorem run_of_watch {arguments : List Octets} {a : Arguments} {g : Gauge}
    (hparse : parse arguments = .ok a) (hwatch : a.watch = true) (hbuild : a.settings.build = .ok g)
    (events : Option (List Watch.Event)) (s : Surroundings) :
    (∃ moves, let w := (Watch.start a.interval s).play g moves
      run arguments events s (.ok ()) =
        ⟨w.exit, w.lines, .argumentsTaken a.fields :: w.monitor.log, none⟩) ∧
    ∀ why, run arguments events s (.error why) =
      ⟨.failure, [], [.argumentsTaken a.fields, .handlerRefused why], none⟩ := by
  have hrun : ∀ handler, run arguments events s handler =
      { runWatch g a.interval events s handler with
        log := .argumentsTaken a.fields :: (runWatch g a.interval events s handler).log } := by
    intro handler
    simp only [run, hparse, runArguments, hbuild, runGauge, if_pos hwatch]
  refine ⟨?_, fun why => hrun (.error why)⟩
  obtain ⟨moves, hmoves⟩ :=
    Watch.exists_play_runToEnd g (roundsFor s) events (Watch.start a.interval s)
  refine ⟨moves, ?_⟩
  rw [hrun]
  simp only [runWatch, Watch.setUp, hmoves]

end Command

end ThermalGauge
