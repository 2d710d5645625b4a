import ThermalGauge.Channel

/-!
# Histories of a channel

An event is an act and its result.  The events alone tell how the flags of a channel stand, and,
while the receiver is there, that it took or will take every value that was sent, in order and
once.  A sender looks at the receiver's flag before it looks for the receiver: what it is told
is right as long as the receiver is there.
-/

namespace ThermalGauge

namespace Channel

variable {α β : Type}

abbrev Event (α : Type) := Act α × Result α

def history (c : Channel α) (acts : List (Act α)) : List (Event α) := acts.zip (c.run acts).2

/-- The last value that `f` reads off a history, or else the one at the start. -/
def latest (f : Event α → Option β) (start : β) (h : List (Event α)) : β :=
  (h.filterMap f).getLast?.getD start

/-- The value of a send that went through. -/
def sent? : Event α → Option α
  | (.send _ value, .sent .delivered) => some value
  | _ => none

/-- The value that the receiver got. -/
def taken? : Event α → Option α
  | (_, .taken value) => value
  | (_, .awaited (.ok value)) => some value
  | _ => none

/-- Whether values are taken from now on. -/
def setting? : Event α → Option Bool
  | (.setReady ready, .done) => some ready
  | _ => none

/-- Whether a sender is there from now on. -/
def standing? (sender : Nat) : Event α → Option Bool
  | (.clone _, .cloned new) => if new = sender then some true else none
  | (.dropSender old, _) => if old = sender then some false else none
  | _ => none

section Histories

variable {c : Channel α} {a : Act α} {acts : List (Act α)}

@[simp] theorem history_nil (c : Channel α) : c.history [] = [] := rfl

@[simp] theorem history_cons (c : Channel α) (a : Act α) (acts : List (Act α)) :
    c.history (a :: acts) = (a, (c.act a).2) :: (c.act a).1.history acts := rfl

@[simp] theorem channel_run_nil (c : Channel α) : (c.run []).1 = c := rfl

@[simp] theorem channel_run_cons (c : Channel α) (a : Act α) (acts : List (Act α)) :
    (c.run (a :: acts)).1 = ((c.act a).1.run acts).1 := rfl

@[simp] theorem latest_nil (f : Event α → Option β) (start : β) : latest f start [] = start :=
  rfl

theorem latest_cons (f : Event α → Option β) (start : β) (e : Event α) (h : List (Event α)) :
    latest f start (e :: h) = latest f ((f e).getD start) h := by
  cases hf : f e with
  | none => simp [latest, hf]
  | some value => simp [latest, hf, List.getLast?_cons]

/-- What every act leaves as its event says stands at the end as the history says. -/
theorem run_eq_latest {g : Channel α → β} {f : Event α → Option β}
    (hact : ∀ (c : Channel α) (a : Act α), g (c.act a).1 = (f (a, (c.act a).2)).getD (g c))
    (c : Channel α) (acts : List (Act α)) :
    g (c.run acts).1 = latest f (g c) (c.history acts) := by
  induction acts generalizing c with
  | nil => rfl
  | cons a acts ih => rw [channel_run_cons, ih, history_cons, latest_cons, hact]

end Histories

section Acts

/-- A send touches the queue alone, and only if the receiver is ready and there. -/
theorem send_fst (c : Channel α) (value : α) :
    (c.send value).1 =
      { c with queue := c.queue ++ if c.ready && c.receiver then [value] else [] } := by
  obtain ⟨queue, ready, receiver, senders⟩ := c
  cases ready <;> cases receiver <;> simp [send]

theorem send_eq_delivered_iff {c : Channel α} {value : α} :
    (c.send value).2 = .delivered ↔ c.ready = true ∧ c.receiver = true := by
  cases hready : c.ready <;> cases hreceiver : c.receiver <;> simp [send, hready, hreceiver]

theorem send_eq_refused_iff {c : Channel α} {value back : α} {why : Refusal} :
    (c.send value).2 = .refused why back ↔
      value = back ∧
        (.notReady = why ∧ c.ready = false ∨
          .disconnected = why ∧ c.ready = true ∧ c.receiver = false) := by
  cases hready : c.ready with
  | false => simp [send_of_not_ready hready, and_comm]
  | true =>
      cases hreceiver : c.receiver with
      | false => simp [send_of_dropped hready hreceiver, and_comm]
      | true => simp [send_of_open hready hreceiver]

theorem take_eq (c : Channel α) :
    c.take = ({ c with queue := c.queue.tail }, c.queue.head?) := by
  obtain ⟨queue, ready, receiver, senders⟩ := c
  cases queue <;> rfl

theorem await_eq (c : Channel α) :
    c.await = ({ c with queue := c.queue.tail },
      match c.queue.head? with
      | some value => .ok value
      | none => .error (if c.hasSender then .timeout else .disconnected)) := by
  obtain ⟨queue, ready, receiver, senders⟩ := c
  cases queue <;> rfl

theorem ready_act (c : Channel α) (a : Act α) :
    (c.act a).1.ready = (setting? (a, (c.act a).2)).getD c.ready := by
  cases a with
  | dropSender sender => rfl
  | dropReceiver => rfl
  | _ =>
      simp only [act]
      split <;> simp [setting?, send_fst, addSender, setReady, take_eq, await_eq]

theorem receiver_act {c : Channel α} {a : Act α} :
    (c.act a).1.receiver = true ↔ c.receiver = true ∧ a ≠ .dropReceiver := by
  cases a with
  | dropSender sender => simp [act, dropSender]
  | dropReceiver => simp [act, dropReceiver]
  | _ =>
      simp only [act]
      split <;> simp [send_fst, addSender, setReady, take_eq, await_eq]

theorem isSender_addSender (c : Channel α) (sender : Nat) :
    c.addSender.isSender sender =
      if c.senders.length = sender then true else c.isSender sender := by
  simp only [isSender, addSender, List.getD_eq_getElem?_getD]
  split
  · rename_i h
    simp [h]
  · rename_i h
    have hsame : (c.senders ++ [true])[sender]? = c.senders[sender]? := by
      rcases Nat.lt_or_gt_of_ne h with h | h
      · rw [List.getElem?_eq_none (Nat.le_of_lt h), List.getElem?_eq_none]
        rw [List.length_append]
        exact h
      · exact List.getElem?_append_left h
    rw [hsame]

theorem isSender_dropSender (c : Channel α) (old sender : Nat) :
    (c.dropSender old).isSender sender =
      if old = sender then false else c.isSender sender := by
  simp only [isSender, dropSender, List.getD_eq_getElem?_getD, List.getElem?_set]
  split
  · split <;> rfl
  · rfl

theorem isSender_act (sender : Nat) (c : Channel α) (a : Act α) :
    (c.act a).1.isSender sender =
      (standing? sender (a, (c.act a).2)).getD (c.isSender sender) := by
  cases a with
  | dropSender old =>
      simp only [act, standing?, isSender_dropSender]
      split <;> rfl
  | dropReceiver => rfl
  | clone old =>
      simp only [act]
      split
      · simp only [standing?, isSender_addSender]
        split <;> rfl
      · rfl
  | _ =>
      simp only [act]
      split <;> simp [standing?, isSender, send_fst, setReady, take_eq, await_eq]

/-- While the receiver is there, a value is queued when it is sent, and taken from the front. -/
theorem queue_act {c : Channel α} {a : Act α} (h : (c.act a).1.receiver = true) :
    (taken? (a, (c.act a).2)).toList ++ (c.act a).1.queue =
      c.queue ++ (sent? (a, (c.act a).2)).toList := by
  obtain ⟨hreceiver, hstays⟩ := receiver_act.mp h
  cases a with
  | send sender value =>
      simp only [act]
      split
      · cases hready : c.ready with
        | false => simp [send_of_not_ready hready, taken?, sent?]
        | true => simp [send_of_open hready hreceiver, taken?, sent?]
      · simp [taken?, sent?]
  | take =>
      simp only [act, hreceiver, take_eq, if_true, taken?, sent?]
      cases c.queue <;> simp
  | await =>
      simp only [act, hreceiver, await_eq, if_true]
      cases c.queue <;> simp [taken?, sent?]
  | dropReceiver => exact absurd rfl hstays
  | dropSender sender => simp [act, dropSender, taken?, sent?]
  | _ =>
      simp only [act]
      split <;> simp [taken?, sent?, addSender, setReady]

end Acts

section Runs

variable {acts : List (Act α)}

theorem receiver_run (c : Channel α) (acts : List (Act α)) :
    (c.run acts).1.receiver = true ↔ c.receiver = true ∧ .dropReceiver ∉ acts := by
  induction acts generalizing c with
  | nil => simp
  | cons a acts ih =>
      rw [channel_run_cons, ih, receiver_act, List.mem_cons, not_or, and_assoc, ne_comm]

theorem ready_run (c : Channel α) (acts : List (Act α)) :
    (c.run acts).1.ready = latest setting? c.ready (c.history acts) :=
  run_eq_latest ready_act c acts

theorem isSender_run (c : Channel α) (acts : List (Act α)) (sender : Nat) :
    (c.run acts).1.isSender sender =
      latest (standing? sender) (c.isSender sender) (c.history acts) :=
  run_eq_latest (g := fun c => c.isSender sender) (isSender_act sender) c acts

theorem filterMap_cons_toList (f : Event α → Option β) (e : Event α) (h : List (Event α)) :
    (e :: h).filterMap f = (f e).toList ++ h.filterMap f := by
  cases hf : f e <;> simp [hf]

theorem queue_run {c : Channel α} {acts : List (Act α)} (h : (c.run acts).1.receiver = true) :
    (c.history acts).filterMap taken? ++ (c.run acts).1.queue =
      c.queue ++ (c.history acts).filterMap sent? := by
  induction acts generalizing c with
  | nil => simp
  | cons a acts ih =>
      have hfirst : (c.act a).1.receiver = true := ((receiver_run _ acts).mp h).1
      rw [history_cons, channel_run_cons, filterMap_cons_toList, filterMap_cons_toList,
        List.append_assoc, ih (c := (c.act a).1) h, ← List.append_assoc, queue_act hfirst,
        List.append_assoc]

theorem hasSender_eq_false_iff {c : Channel α} :
    c.hasSender = false ↔ ∀ sender, c.isSender sender = false := by
  rw [hasSender, List.any_eq_false]
  constructor
  · intro h sender
    rw [isSender, List.getD_eq_getElem?_getD]
    cases hs : c.senders[sender]? with
    | none => rfl
    | some there => simpa using h there (List.mem_of_getElem? hs)
  · intro h there hthere
    obtain ⟨sender, hs⟩ := List.getElem?_of_mem hthere
    have hgone := h sender
    rw [isSender, List.getD_eq_getElem?_getD, hs] at hgone
    simpa using hgone

theorem isSender_fresh (sender : Nat) : (fresh : Channel α).isSender sender = (sender == 0) := by
  cases sender <;> rfl

theorem act_send_of_isSender {c : Channel α} {sender : Nat} (h : c.isSender sender = true)
    (value : α) : c.act (.send sender value) = ((c.send value).1, .sent (c.send value).2) := by
  simp [act, h]

theorem act_isReady_of_isSender {c : Channel α} {sender : Nat} (h : c.isSender sender = true) :
    c.act (.isReady sender) = (c, .ready c.ready) := by
  simp [act, h]

end Runs

section Refusals

/-- A send by whom it may be hands back what it does not send, and does nothing else. -/
theorem act_send_refused {c : Channel α} {sender : Nat} {value back : α} {why : Refusal}
    (h : (c.act (.send sender value)).2 = .sent (.refused why back)) :
    back = value ∧ (c.act (.send sender value)).1 = c := by
  cases hs : c.isSender sender with
  | false => simp [act, hs] at h
  | true =>
      rw [act_send_of_isSender hs] at h ⊢
      obtain ⟨hback, hwhy⟩ := send_eq_refused_iff.mp (Result.sent.inj h)
      refine ⟨hback.symm, ?_⟩
      rcases hwhy with ⟨-, hready⟩ | ⟨-, hready, hreceiver⟩
      · simp only [send_of_not_ready hready]
      · simp only [send_of_dropped hready hreceiver]

theorem act_take_of_receiver {c : Channel α} (h : c.receiver = true) :
    (c.act .take).2 = .taken c.queue.head? := by
  simp [act, h, take_eq]

theorem act_await_iff {c : Channel α} (h : c.receiver = true) :
    (∀ value, (c.act .await).2 = .awaited (.ok value) ↔ c.queue.head? = some value) ∧
      ((c.act .await).2 = .awaited (.error .timeout) ↔
        c.queue = [] ∧ ∃ sender, c.isSender sender = true) ∧
      ((c.act .await).2 = .awaited (.error .disconnected) ↔
        c.queue = [] ∧ ∀ sender, c.isSender sender = false) := by
  have hsome : (∃ sender, c.isSender sender = true) ↔ c.hasSender = true := by
    have hnone := not_congr (hasSender_eq_false_iff (c := c))
    simpa using hnone.symm
  rw [hsome, ← hasSender_eq_false_iff]
  simp only [act, h, if_true, await_eq, Result.awaited.injEq]
  cases c.queue with
  | nil => cases c.hasSender <;> simp
  | cons value rest => simp

/-- Whether values are taken is nothing to what is queued. -/
theorem act_setReady (c : Channel α) (ready : Bool) :
    (c.act (.setReady ready)).1.queue = c.queue ∧
      ((c.act (.setReady ready)).1.act .take).2 = (c.act .take).2 ∧
      ((c.act (.setReady ready)).1.act .await).2 = (c.act .await).2 := by
  simp only [act]
  split
  · rename_i h
    simp [setReady, h, take_eq, await_eq, hasSender]
  · simp_all

end Refusals

/-- In a run from the start, the values that the receiver got and those that are queued are the
values of the sends that went through.  A send that does not go through changes nothing and
hands its value back.  The receiver's latest setting is what all senders see, and it keeps no
queued value from the receiver, who waits in vain only if there is none. -/
theorem run_conserves (acts : List (Act α)) :
    let c := (fresh.run acts).1
    let h := fresh.history acts
    let setting := latest setting? true h
    let standing := fun sender => latest (standing? sender) (sender == 0) h
    (.dropReceiver ∉ acts → h.filterMap taken? ++ c.queue = h.filterMap sent?) ∧
    (∀ sender value why back, (c.act (.send sender value)).2 = .sent (.refused why back) →
      back = value ∧ (c.act (.send sender value)).1 = c) ∧
    (∀ ready, (c.act (.setReady ready)).1.queue = c.queue ∧
      ((c.act (.setReady ready)).1.act .take).2 = (c.act .take).2 ∧
      ((c.act (.setReady ready)).1.act .await).2 = (c.act .await).2) ∧
    (∀ sender, standing sender = true →
      (c.act (.isReady sender)).2 = .ready setting ∧
      ∀ value, (c.act (.send sender value)).2 = .sent (.refused .notReady value) ↔
        setting = false) ∧
    (.dropReceiver ∉ acts →
      (c.act .take).2 = .taken c.queue.head? ∧
      (∀ value, (c.act .await).2 = .awaited (.ok value) ↔ c.queue.head? = some value) ∧
      ((c.act .await).2 = .awaited (.error .timeout) ↔
        c.queue = [] ∧ ∃ sender, standing sender = true) ∧
      ((c.act .await).2 = .awaited (.error .disconnected) ↔
        c.queue = [] ∧ ∀ sender, standing sender = false)) := by
  intro c h setting standing
  have hready : c.ready = setting := ready_run fresh acts
  have hstanding : ∀ sender, c.isSender sender = standing sender := by
    intro sender
    have hrun := isSender_run fresh acts sender
    rwa [isSender_fresh] at hrun
  have hreceiver : .dropReceiver ∉ acts → c.receiver = true := fun hstays =>
    (receiver_run fresh acts).mpr ⟨rfl, hstays⟩
  refine ⟨?_, fun _ _ _ _ => act_send_refused, act_setReady c, ?_, ?_⟩
  · intro hstays
    exact queue_run (hreceiver hstays)
  · intro sender hsender
    rw [← hstanding] at hsender
    refine ⟨?_, fun value => ?_⟩
    · rw [act_isReady_of_isSender hsender, hready]
    · rw [act_send_of_isSender hsender, Result.sent.injEq, send_eq_refused_iff, hready]
      simp
  · intro hstays
    have hthere := hreceiver hstays
    have hawait := act_await_iff hthere
    simp only [hstanding] at hawait
    exact ⟨act_take_of_receiver hthere, hawait⟩

/-- What a send tells is right of a receiver that is `gone` or not, and `refusing` or not. -/
structure Sent.Truthful (sent : Sent α) (value : α) (gone refusing : Prop) : Prop where
  disconnected : sent = .refused .disconnected value ↔ gone
  notReady : sent = .refused .notReady value ↔ ¬ gone ∧ refusing
  delivered : sent = .delivered ↔ ¬ gone ∧ ¬ refusing

theorem truthful_send_iff {c : Channel α} {value : α} :
    (c.send value).2.Truthful value (c.receiver = false) (c.ready = false) ↔
      ¬ (c.receiver = false ∧ c.ready = false) := by
  constructor
  · rintro h ⟨hreceiver, hready⟩
    have hsent := h.disconnected.mpr hreceiver
    simp [send_of_not_ready hready] at hsent
  · intro h
    refine ⟨?_, ?_, ?_⟩
    · rw [send_eq_refused_iff]
      simp_all
    · rw [send_eq_refused_iff]
      cases hready : c.ready <;> simp_all
    · simp [send_eq_delivered_iff, and_comm]

/-- In a run from the start, what a sender is told of its send is right unless the receiver was
dropped while it refused, and the flag tells whether a send goes through unless the receiver was
dropped while it did not. -/
theorem send_truthful_iff (acts : List (Act α)) (sender : Nat) (value : α)
    (hsender : latest (standing? sender) (sender == 0) (fresh.history acts) = true) :
    let c := (fresh.run acts).1
    let gone := .dropReceiver ∈ acts
    let refusing := latest setting? true (fresh.history acts) = false
    ∃ sent, (c.act (.send sender value)).2 = .sent sent ∧
      (sent.Truthful value gone refusing ↔ ¬ (gone ∧ refusing)) ∧
      (((c.act (.isReady sender)).2 = .ready true ↔ sent = .delivered) ↔
        ¬ (gone ∧ ¬ refusing)) := by
  intro c gone refusing
  have hthere : c.isSender sender = true := by
    rw [isSender_run, isSender_fresh]
    exact hsender
  have hgone : gone ↔ c.receiver = false := by
    have hrun : c.receiver = true ↔ fresh.receiver = true ∧ ¬ gone := receiver_run fresh acts
    rw [← Bool.not_eq_true, hrun]
    simp [fresh]
  have hrefusing : refusing ↔ c.ready = false := by
    rw [ready_run]
    rfl
  refine ⟨(c.send value).2, ?_, ?_, ?_⟩
  · rw [act_send_of_isSender hthere]
  · rw [propext hgone, propext hrefusing]
    exact truthful_send_iff
  · rw [act_isReady_of_isSender hthere, send_eq_delivered_iff, hgone, hrefusing]
    cases c.ready <;> cases c.receiver <;> simp

/-- The receiver refused when it was dropped: the sender is told that it refuses. -/
theorem send_truthful_iff_of_refusing :
    let acts : List (Act Nat) := [.setReady false, .dropReceiver]
    let c := (fresh.run acts).1
    let gone := .dropReceiver ∈ acts
    let refusing := latest setting? true (fresh.history acts) = false
    latest (standing? 0) (0 == 0) (fresh.history acts) = true ∧
      ∃ sent, (c.act (.send 0 7)).2 = .sent sent ∧
        (sent.Truthful 7 gone refusing ↔ ¬ (gone ∧ refusing)) ∧
        (((c.act (.isReady 0)).2 = .ready true ↔ sent = .delivered) ↔ ¬ (gone ∧ ¬ refusing)) :=
  ⟨rfl, send_truthful_iff [.setReady false, .dropReceiver] 0 7 rfl⟩

theorem exists_send_not_truthful :
    ¬ ∀ (acts : List (Act Nat)) (sender value : Nat),
      latest (standing? sender) (sender == 0) (fresh.history acts) = true →
      let c := (fresh.run acts).1
      let gone := .dropReceiver ∈ acts
      let refusing := latest setting? true (fresh.history acts) = false
      ∃ sent, (c.act (.send sender value)).2 = .sent sent ∧
        sent.Truthful value gone refusing ∧
        ((c.act (.isReady sender)).2 = .ready true ↔ sent = .delivered) := by
  intro h
  obtain ⟨sent, hsent, htruthful, -⟩ := h [.setReady false, .dropReceiver] 0 7 rfl
  have hgone : sent = .refused .disconnected 7 := htruthful.disconnected.mpr (by simp)
  have htold : Result.sent (.refused .notReady 7) = .sent sent := hsent
  rw [hgone] at htold
  cases htold

end Channel

end ThermalGauge
