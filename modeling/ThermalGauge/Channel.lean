/-!
# Channels that can refuse

Any number of senders share a channel with one receiver, which can refuse values without
going away.  A sender looks at the receiver's flag first, and only then finds out whether
the receiver is still there.  A value that is not sent is handed back.
-/

namespace ThermalGauge

/-- The queued values, the oldest first; whether the receiver takes values, and whether it is
still there; and of each sender whether it is. -/
structure Channel (α : Type) where
  queue : List α
  ready : Bool
  receiver : Bool
  senders : List Bool
  deriving Repr

namespace Channel

variable {α : Type}

def fresh : Channel α := ⟨[], true, true, [true]⟩

inductive Refusal where
  | disconnected
  | notReady
  deriving DecidableEq, Repr

def Refusal.name : Refusal → String
  | disconnected => "Disconnected"
  | notReady => "NotReady"

def Refusal.text (r : Refusal) : String := r.name ++ "(..)"

inductive Sent (α : Type) where
  | delivered
  | refused (why : Refusal) (value : α)
  deriving DecidableEq, Repr

def send (c : Channel α) (value : α) : Channel α × Sent α :=
  if c.ready then
    if c.receiver then ({ c with queue := c.queue ++ [value] }, .delivered)
    else (c, .refused .disconnected value)
  else (c, .refused .notReady value)

theorem send_of_open {c : Channel α} (hr : c.ready = true) (hc : c.receiver = true) (value : α) :
    c.send value = ({ c with queue := c.queue ++ [value] }, .delivered) := by
  simp [send, hr, hc]

theorem send_of_dropped {c : Channel α} (hr : c.ready = true) (hc : c.receiver = false)
    (value : α) : c.send value = (c, .refused .disconnected value) := by
  simp [send, hr, hc]

theorem send_of_not_ready {c : Channel α} (hr : c.ready = false) (value : α) :
    c.send value = (c, .refused .notReady value) := by
  simp [send, hr]

def take (c : Channel α) : Channel α × Option α :=
  match c.queue with
  | [] => (c, none)
  | value :: rest => ({ c with queue := rest }, some value)

def hasSender (c : Channel α) : Bool := c.senders.any id

inductive Starved where
  | timeout
  | disconnected
  deriving DecidableEq, Repr

def Starved.name : Starved → String
  | timeout => "Timeout"
  | disconnected => "Disconnected"

/-- Takes the oldest value, or waits for one in vain. -/
def await (c : Channel α) : Channel α × Except Starved α :=
  match c.queue with
  | [] => (c, .error (if c.hasSender then .timeout else .disconnected))
  | value :: rest => ({ c with queue := rest }, .ok value)

def setReady (c : Channel α) (ready : Bool) : Channel α := { c with ready }

/-- Without a receiver, what is queued is lost. -/
def dropReceiver (c : Channel α) : Channel α := { c with queue := [], receiver := false }

def dropSender (c : Channel α) (sender : Nat) : Channel α :=
  { c with senders := c.senders.set sender false }

def addSender (c : Channel α) : Channel α := { c with senders := c.senders ++ [true] }

def isSender (c : Channel α) (sender : Nat) : Bool := c.senders.getD sender false

/-- What the holders of the two halves can do. -/
inductive Act (α : Type) where
  | send (sender : Nat) (value : α)
  | isReady (sender : Nat)
  | clone (sender : Nat)
  | dropSender (sender : Nat)
  | setReady (ready : Bool)
  | take
  | await
  | dropReceiver
  deriving Repr

inductive Result (α : Type) where
  | sent (result : Sent α)
  | ready (ready : Bool)
  | cloned (sender : Nat)
  | done
  | taken (value : Option α)
  | awaited (result : Except Starved α)
  /-- The half that is needed is not there. -/
  | gone

/-- Dropping what is gone does nothing. -/
def act (c : Channel α) : Act α → Channel α × Result α
  | .send sender value =>
    if c.isSender sender then let (c, r) := c.send value; (c, .sent r) else (c, .gone)
  | .isReady sender => if c.isSender sender then (c, .ready c.ready) else (c, .gone)
  | .clone sender =>
    if c.isSender sender then (c.addSender, .cloned c.senders.length) else (c, .gone)
  | .dropSender sender => (c.dropSender sender, .done)
  | .setReady ready => if c.receiver then (c.setReady ready, .done) else (c, .gone)
  | .take => if c.receiver then let (c, r) := c.take; (c, .taken r) else (c, .gone)
  | .await => if c.receiver then let (c, r) := c.await; (c, .awaited r) else (c, .gone)
  | .dropReceiver => (c.dropReceiver, .done)

/-- The results of some acts, one after the other, and the channel after them. -/
def run (c : Channel α) : List (Act α) → Channel α × List (Result α)
  | [] => (c, [])
  | a :: acts =>
    let (c, r) := c.act a
    let (c, rs) := c.run acts
    (c, r :: rs)

end Channel

end ThermalGauge
