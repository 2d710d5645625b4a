import ThermalGauge.Proofs.Monitor.Rounds

/-!
# Rehearsals follow their rounds

A rehearsal goes through the rounds of its scenes up to the first that finds nobody, or to the
first test that finds the flag cleared.  What others set is what their acts alone make of it,
the log tells round for round what happened, and the books of the channel balance: what was
taken out and what is queued are the changes put in, as long as there is a receiver.
-/

namespace ThermalGauge

namespace Monitor

variable {σ : Type}

namespace State

def gate (s : State σ) : Gate := ⟨s.running, s.channel.ready, s.channel.receiver⟩

theorem deliver_of_open {s : State σ} (hready : s.channel.ready = true)
    (hreceiver : s.channel.receiver = true) (change : Change) :
    s.deliver change =
      { s with channel := { s.channel with queue := s.channel.queue ++ [change] } } := by
  simp [deliver, Channel.send_of_open hready hreceiver]

theorem deliver_of_refusing {s : State σ} (hready : s.channel.ready = false)
    (change : Change) : s.deliver change = s.tell [.sinkRefused change.load] := by
  simp [deliver, Channel.send_of_not_ready hready, tell]

theorem deliver_of_deserted {s : State σ} (hready : s.channel.ready = true)
    (hreceiver : s.channel.receiver = false) (change : Change) :
    s.deliver change = (s.tell [.sinkGone]).leave := by
  simp [deliver, Channel.send_of_dropped hready hreceiver, tell]

theorem record_of_steady {s : State σ} {selection : Selection} {load : Load}
    (h : (s.tracker.observe load selection).2 = none) :
    s.record selection load = { s with tracker := ⟨some load⟩ } := by
  simp only [record, h]
  rfl

theorem record_of_change {s : State σ} {selection : Selection} {load : Load} {change : Change}
    (h : (s.tracker.observe load selection).2 = some change) :
    s.record selection load = { s with tracker := ⟨some load⟩ }.deliver change := by
  simp only [record, h]
  rfl

end State

namespace Session

/-- What the receiver got out of the channel. -/
def takenOut (s : Session σ) : List Change := s.received.filterMap id

def queue (s : Session σ) : List Change := s.monitor.channel.queue

def given (s : Session σ) : List Change := s.takenOut ++ s.queue

/-- The changes `put` went into the channel.  The receiver takes them out in order, and while
it is there the others are queued. -/
structure Accounts (s : Session σ) (put : List Change) : Prop where
  inOrder : s.given <+: put
  balanced : s.monitor.channel.receiver = true → s.given = put

/-- The session when the monitor has found the flag set. -/
def sampling (s : Session σ) : Session σ :=
  { s with monitor := { s.monitor with status := .sampling } }

theorem Accounts.withMonitor {s : Session σ} {put : List Change} (h : s.Accounts put)
    {m : State σ} (hqueue : m.channel.queue = s.queue)
    (hreceiver : m.channel.receiver = s.monitor.channel.receiver) :
    Accounts { s with monitor := m } put := by
  refine ⟨?_, fun halive => ?_⟩
  · change s.takenOut ++ m.channel.queue <+: put
    rw [hqueue]
    exact h.inOrder
  · change s.takenOut ++ m.channel.queue = put
    rw [hqueue]
    exact h.balanced (hreceiver.symm.trans halive)

theorem act_of_dropped {s : Session σ} (h : s.monitor.channel.receiver = false) {a : Act}
    (ha : a ≠ .stop) : s.act a = s := by
  cases a <;> simp_all [act]

/-- An act changes the flag and the channel, and nothing else of the monitor. -/
theorem monitor_act (s : Session σ) (a : Act) :
    ∃ channel running, (s.act a).monitor = { s.monitor with channel, running } := by
  cases h : s.monitor.channel.receiver <;> cases a <;> simp only [act, h] <;>
    exact ⟨_, _, rfl⟩

theorem gate_act (s : Session σ) (a : Act) : (s.act a).monitor.gate = s.monitor.gate.act a := by
  cases h : s.monitor.channel.receiver <;> cases a <;>
    simp [act, withChannel, State.gate, Gate.act, h, Channel.setReady, Channel.dropReceiver]
  unfold Channel.take
  split <;> simp [h]

/-- A receiver does not come back. -/
theorem receiver_of_receiver_act {s : Session σ} {a : Act}
    (h : (s.act a).monitor.channel.receiver = true) : s.monitor.channel.receiver = true := by
  cases hreceiver : s.monitor.channel.receiver with
  | true => rfl
  | false =>
      have hgone := (Gate.act_of_dropped (g := s.monitor.gate) hreceiver a).1
      rw [← gate_act] at hgone
      exact absurd h (Bool.eq_false_iff.mp hgone)

theorem takenOut_act {s : Session σ} {a : Act} (h : a ≠ .receive) :
    (s.act a).takenOut = s.takenOut := by
  cases hreceiver : s.monitor.channel.receiver <;> cases a <;>
    simp_all [act, takenOut, withChannel]

/-- Looking into the channel moves a change from one side of the books to the other. -/
theorem given_act {s : Session σ} {a : Act} (h : a ≠ .dropReceiver) :
    (s.act a).given = s.given := by
  cases hreceiver : s.monitor.channel.receiver with
  | false =>
      by_cases ha : a = .stop
      · subst a
        rfl
      · rw [act_of_dropped hreceiver ha]
  | true =>
      cases a with
      | ready => simp [act, hreceiver, withChannel, given, takenOut, queue, Channel.setReady]
      | notReady => simp [act, hreceiver, withChannel, given, takenOut, queue, Channel.setReady]
      | receive =>
          cases hqueue : s.monitor.channel.queue <;>
            simp [act, hreceiver, withChannel, given, takenOut, queue, Channel.take, hqueue]
      | dropReceiver => exact absurd rfl h
      | stop => rfl

theorem Accounts.act {s : Session σ} {put : List Change} (h : s.Accounts put) (a : Act) :
    (s.act a).Accounts put := by
  by_cases ha : a = .dropReceiver
  · subst a
    cases hreceiver : s.monitor.channel.receiver with
    | false =>
        rw [act_of_dropped hreceiver (by simp)]
        exact h
    | true =>
        refine ⟨?_, fun hlater => ?_⟩
        · have hqueue : (s.act .dropReceiver).queue = [] := by
            simp [Session.act, hreceiver, queue, withChannel, Channel.dropReceiver]
          rw [given, takenOut_act (by simp), hqueue, List.append_nil]
          exact (List.prefix_append _ _).trans h.inOrder
        · simp [Session.act, hreceiver, withChannel, Channel.dropReceiver] at hlater
  · have hsame := given_act (s := s) ha
    refine ⟨hsame ▸ h.inOrder, fun hlater => ?_⟩
    exact hsame.trans (h.balanced (receiver_of_receiver_act hlater))

theorem monitor_acts (s : Session σ) (acts : List Act) :
    ∃ channel running, (acts.foldl act s).monitor = { s.monitor with channel, running } := by
  induction acts generalizing s with
  | nil => exact ⟨_, _, rfl⟩
  | cons a acts ih =>
      obtain ⟨channel, running, hact⟩ := monitor_act s a
      obtain ⟨channel', running', hacts⟩ := ih (s.act a)
      exact ⟨channel', running', by rw [List.foldl_cons, hacts, hact]⟩

theorem gate_acts (s : Session σ) (acts : List Act) :
    (acts.foldl act s).monitor.gate = s.monitor.gate.after acts := by
  induction acts generalizing s with
  | nil => rfl
  | cons a acts ih => rw [List.foldl_cons, ih, gate_act, Gate.after_cons]

theorem Accounts.acts {s : Session σ} {put : List Change} (h : s.Accounts put)
    (acts : List Act) : (acts.foldl Session.act s).Accounts put := by
  induction acts generalizing s with
  | nil => exact h
  | cons a acts ih => exact ih (h.act a)

end Session

/-- What a turn makes of a monitor, where `r` is its round. -/
structure Turned (name : String) (r : Round) (s s' : State Unit) : Prop where
  gate : s'.gate = s.gate
  tracker : s'.tracker = ⟨some r.scene.load⟩
  status : s'.status = if r.findsNobody then .left else .testing
  log : s'.log = s.log ++ r.notices name ++ if r.findsNobody then [.monitorLeft] else []
  queue : s'.channel.queue = s.channel.queue ++ r.put?.toList

theorem turn_scene (name : String) (selection : Selection) (scene : Scene) (s : State Unit) :
    s.turn [scene.cue.source name] selection =
      { s.tell (scene.notices name) with status := .testing }.record selection scene.load := by
  cases h : scene.answer <;>
    simp [State.turn, Source.readFirst, Source.readFrom, Cue.source, Scene.cue, h,
      Outcome.ofExcept, State.tell, Scene.notices, Scene.load]

theorem turned (name : String) (selection : Selection) (scene : Scene) (s : State Unit) :
    Turned name ⟨scene, (s.tracker.observe scene.load selection).2, s.gate⟩ s
      (s.turn [scene.cue.source name] selection) := by
  rw [turn_scene]
  cases hchange : (s.tracker.observe scene.load selection).2 with
  | none =>
      rw [State.record_of_steady (by exact hchange)]
      constructor <;>
        simp [State.gate, State.tell, Round.findsNobody, Round.notices, Round.isRefused,
          Round.put?]
  | some change =>
      have hload : change.load = scene.load :=
        congrArg Change.load (Tracker.observe_eq_some_iff.mp hchange).2
      rw [State.record_of_change (by exact hchange)]
      cases hready : s.channel.ready with
      | false =>
          rw [State.deliver_of_refusing (by exact hready)]
          constructor <;>
            simp [hload, hready, State.gate, State.tell, Round.findsNobody, Round.notices,
              Round.isRefused, Round.put?]
      | true =>
          cases hreceiver : s.channel.receiver with
          | false =>
              rw [State.deliver_of_deserted (by exact hready) (by exact hreceiver)]
              constructor <;>
                simp [hready, hreceiver, State.gate, State.tell, State.leave,
                  Channel.dropSender, Round.findsNobody, Round.notices, Round.isRefused,
                  Round.put?]
          | true =>
              rw [State.deliver_of_open (by exact hready) (by exact hreceiver)]
              constructor <;>
                simp [hready, hreceiver, State.gate, State.tell, Round.findsNobody,
                  Round.notices, Round.isRefused, Round.put?]

theorem Turned.accounts {name : String} {r : Round} {s : Session Unit} {s' : State Unit}
    (h : Turned name r s.monitor s') (hgate : r.gate = s.monitor.gate) {put : List Change}
    (hput : s.Accounts put) : Session.Accounts { s with monitor := s' } (put ++ r.put?.toList) := by
  have hreceiver : s'.channel.receiver = s.monitor.channel.receiver :=
    congrArg Gate.receiver h.gate
  have hbooks : s.takenOut ++ s'.channel.queue = s.given ++ r.put?.toList := by
    rw [h.queue, Session.given, Session.queue, List.append_assoc]
  cases hr : s.monitor.channel.receiver with
  | true =>
      have hall : s.takenOut ++ s'.channel.queue = put ++ r.put?.toList := by
        rw [hbooks, hput.balanced hr]
      exact ⟨hall ▸ List.prefix_refl _, fun _ => hall⟩
  | false =>
      have hnone : r.put? = none := by
        simp [Round.put?, hgate, State.gate, hr]
      refine ⟨?_, fun halive => ?_⟩
      · change s.takenOut ++ s'.channel.queue <+: _
        simpa [hbooks, hnone] using hput.inOrder
      · change s'.channel.receiver = true at halive
        simp [hreceiver, hr] at halive

/-- What a performance makes of a session, where `r` is its round. -/
structure Performed (name : String) (r : Round) (s s' : Session Unit) : Prop where
  gate : s'.monitor.gate = r.gate
  tracker : s'.monitor.tracker = ⟨some r.scene.load⟩
  status : s'.monitor.status = if r.findsNobody then .left else .testing
  log : s'.monitor.log =
    s.monitor.log ++ r.notices name ++ if r.findsNobody then [.monitorLeft] else []
  accounts : ∀ {put : List Change}, s.Accounts put → s'.Accounts (put ++ r.put?.toList)

theorem performed (name : String) (selection : Selection) (scene : Scene) (s : Session Unit) :
    Performed name (roundOf selection s.monitor.tracker s.monitor.gate scene) s
      (perform name selection scene.cue s) := by
  -- The acts come first; the round is that of the turn behind them.
  let m := scene.acts.foldl Session.act s
  obtain ⟨channel, running, hm⟩ := Session.monitor_acts s scene.acts
  have hgate : m.monitor.gate = s.monitor.gate.after scene.acts := Session.gate_acts s scene.acts
  have htracker : m.monitor.tracker = s.monitor.tracker := by simp only [m, hm]
  have hlog : m.monitor.log = s.monitor.log := by simp only [m, hm]
  have hround : roundOf selection s.monitor.tracker s.monitor.gate scene =
      ⟨scene, (m.monitor.tracker.observe scene.load selection).2, m.monitor.gate⟩ := by
    rw [roundOf, htracker, hgate]
  have hturn := turned name selection scene m.monitor
  rw [← hround] at hturn
  refine ⟨?_, hturn.tracker, hturn.status, ?_, fun {put} hput => ?_⟩
  · exact hturn.gate.trans hgate
  · exact hlog ▸ hturn.log
  · exact hturn.accounts hgate.symm (hput.acts scene.acts)

theorem Performed.of_sampling {name : String} {r : Round} {s s' : Session Unit}
    (h : Performed name r s.sampling s') : Performed name r s s' :=
  ⟨h.gate, h.tracker, h.status, h.log, fun hput => h.accounts (hput.withMonitor rfl rfl)⟩

/-- Where a rehearsal with the rounds `rs` leads from `s`. -/
structure Follows (name : String) (s s' : Session Unit) (rs : List Round) : Prop where
  gate : s'.monitor.gate =
    s.monitor.gate.after ((rs.take (roundsUntilEnd s.monitor.gate rs)).flatMap (·.scene.acts))
  status : s'.monitor.status =
    if roundsUntilEnd s.monitor.gate rs ≤ rs.length then .left else .sampling
  log : s'.monitor.log = s.monitor.log ++
    (rs.take (roundsUntilEnd s.monitor.gate rs)).flatMap (Round.notices name) ++
      if roundsUntilEnd s.monitor.gate rs ≤ rs.length then [.monitorLeft] else []
  accounts : ∀ {put : List Change}, s.Accounts put →
    s'.Accounts (put ++ (rs.take (roundsUntilEnd s.monitor.gate rs)).filterMap Round.put?)

section Rehearse

variable {name : String} {selection : Selection}

theorem rehearse_of_left {s : Session Unit} (h : s.monitor.status = .left) (cues : List Cue) :
    rehearse name selection cues s = s := by
  rw [rehearse.eq_1]
  simp [h]

theorem rehearse_of_stopped {s : Session Unit} (h : s.monitor.status = .testing)
    (hstopped : s.monitor.running = false) (cues : List Cue) :
    rehearse name selection cues s = { s with monitor := s.monitor.leave } := by
  rw [rehearse.eq_1]
  cases cues <;> simp [h, State.test, hstopped, State.leave]

theorem rehearse_nil {s : Session Unit} (h : s.monitor.status = .testing)
    (hrunning : s.monitor.running = true) :
    rehearse name selection [] s = s.sampling := by
  rw [rehearse.eq_1]
  simp [h, State.test, hrunning, Session.sampling]

theorem rehearse_cons {s : Session Unit} (h : s.monitor.status = .testing)
    (hrunning : s.monitor.running = true) (cue : Cue) (cues : List Cue) :
    rehearse name selection (cue :: cues) s =
      rehearse name selection cues (perform name selection cue s.sampling) := by
  rw [rehearse.eq_1]
  simp only [h, State.test, hrunning, if_true, Session.sampling]

theorem follows_of_stopped {s : Session Unit} (h : s.monitor.status = .testing)
    (hstopped : s.monitor.running = false) (cues : List Cue) (rs : List Round) :
    Follows name s (rehearse name selection cues s) rs := by
  rw [rehearse_of_stopped h hstopped]
  have hn : roundsUntilEnd s.monitor.gate rs = 0 := roundsUntilEnd_of_stopped hstopped
  refine ⟨?_, ?_, ?_, fun {put} hput => ?_⟩ <;> simp only [hn]
  · rfl
  · simp [State.leave]
  · simp [State.leave, State.tell]
  · rw [List.take_zero, List.filterMap_nil, List.append_nil]
    exact hput.withMonitor rfl rfl

theorem Performed.follows_of_findsNobody {r : Round} {s s' : Session Unit}
    (h : Performed name r s s') (hrunning : s.monitor.running = true)
    (hgate : r.gate = s.monitor.gate.after r.scene.acts) (hr : r.findsNobody = true)
    (rs : List Round) : Follows name s s' (r :: rs) := by
  have hn : roundsUntilEnd s.monitor.gate (r :: rs) = 1 :=
    roundsUntilEnd_of_findsNobody hrunning hr
  refine ⟨?_, ?_, ?_, fun {put} hput => ?_⟩ <;> simp only [hn]
  · simpa [hgate] using h.gate
  · simpa [hr] using h.status
  · simpa [hr] using h.log
  · simpa [Round.filterMap_put?_cons] using h.accounts hput

theorem Performed.follows {r : Round} {s s₁ s' : Session Unit} (h : Performed name r s s₁)
    (hrunning : s.monitor.running = true) (hgate : r.gate = s.monitor.gate.after r.scene.acts)
    (hr : r.findsNobody = false) {rs : List Round} (hrs : Follows name s₁ s' rs) :
    Follows name s s' (r :: rs) := by
  have hn : roundsUntilEnd s.monitor.gate (r :: rs) =
      roundsUntilEnd s₁.monitor.gate rs + 1 := by
    rw [h.gate]
    exact roundsUntilEnd_cons hrunning hr
  refine ⟨?_, ?_, ?_, fun {put} hput => ?_⟩ <;> simp only [hn]
  · simpa [h.gate, hgate] using hrs.gate
  · simpa using hrs.status
  · simpa [h.log, hr] using hrs.log
  · simpa [Round.filterMap_put?_cons] using hrs.accounts (h.accounts hput)

end Rehearse

theorem rehearse_follows (name : String) (selection : Selection) {s : Session Unit}
    (h : s.monitor.status = .testing) (scenes : List Scene) :
    Follows name s (rehearse name selection (scenes.map Scene.cue) s)
      (rounds selection s.monitor.tracker s.monitor.gate scenes) := by
  induction scenes generalizing s with
  | nil =>
      cases hrunning : s.monitor.running with
      | false => exact follows_of_stopped h hrunning _ _
      | true =>
          have hn : roundsUntilEnd s.monitor.gate [] = 1 := roundsUntilEnd_nil hrunning
          rw [List.map_nil, rehearse_nil h hrunning, rounds_nil]
          refine ⟨?_, ?_, ?_, fun {put} hput => ?_⟩ <;> simp only [hn]
          · rfl
          · simp [Session.sampling]
          · simp [Session.sampling]
          · rw [List.take_nil, List.filterMap_nil, List.append_nil]
            exact hput.withMonitor rfl rfl
  | cons scene scenes ih =>
      cases hrunning : s.monitor.running with
      | false => exact follows_of_stopped h hrunning _ _
      | true =>
          rw [List.map_cons, rehearse_cons h hrunning, rounds_cons]
          have hp : Performed name (roundOf selection s.monitor.tracker s.monitor.gate scene) s
              (perform name selection scene.cue s.sampling) :=
            (performed name selection scene s.sampling).of_sampling
          cases hr : (roundOf selection s.monitor.tracker s.monitor.gate scene).findsNobody with
          | true =>
              have hleft := hp.status
              rw [hr, if_pos rfl] at hleft
              rw [rehearse_of_left hleft]
              exact hp.follows_of_findsNobody hrunning rfl hr _
          | false =>
              have htesting := hp.status
              rw [hr] at htesting
              have hrest := ih htesting
              rw [hp.tracker, hp.gate] at hrest
              exact hp.follows hrunning rfl hr hrest

def opening (interval : Interval) (g : Gate) : Session Unit :=
  ⟨start interval () g.channel g.running, []⟩

theorem gate_opening (interval : Interval) (g : Gate) :
    (opening interval g).monitor.gate = g := by
  obtain ⟨running, ready, receiver⟩ := g
  cases receiver <;> rfl

theorem accounts_opening (interval : Interval) (g : Gate) : (opening interval g).Accounts [] := by
  have hqueue : (opening interval g).queue = [] := by
    obtain ⟨running, ready, receiver⟩ := g
    cases receiver <;> rfl
  have hempty : (opening interval g).given = [] := by
    rw [Session.given, hqueue]
    rfl
  exact ⟨hempty ▸ List.prefix_refl _, fun _ => hempty⟩

def rehearsal (name : String) (selection : Selection) (interval : Interval) (g : Gate)
    (scenes : List Scene) : Session Unit :=
  rehearse name selection (scenes.map Scene.cue) (opening interval g)

theorem rehearsal_follows (name : String) (selection : Selection) (interval : Interval)
    (g : Gate) (scenes : List Scene) :
    Follows name (opening interval g) (rehearsal name selection interval g scenes)
      (rounds selection .fresh g scenes) := by
  have h := rehearse_follows name selection (s := opening interval g) rfl scenes
  rw [gate_opening] at h
  exact h

end Monitor

end ThermalGauge
