import ThermalGauge.Monitor
import ThermalGauge.Proofs.Change

/-!
# The rounds of a monitor

A scene is a cue that is answered with a load or a fault.  What a monitor sees in its rounds
follows from the scenes and from the gate at the start alone: the flag, the receiver and its
readiness are set by others, and the tracker is shown one load a round.  An act between the
answer to a sample and the next test of the flag is put before the answer if it stops the
monitor, and behind the test if it concerns the channel: nothing in between looks at it.
-/

namespace ThermalGauge

namespace Monitor

/-- A cue that is answered with a load or a fault. -/
structure Scene where
  acts : List Act
  answer : Except Fault Load

namespace Scene

def cue (scene : Scene) : Cue := ⟨scene.acts, .ofExcept scene.answer⟩

/-- The load that the answer counts as. -/
def load (scene : Scene) : Load :=
  match scene.answer with
  | .ok load => load
  | .error _ => .sentinel

def notices (name : String) (scene : Scene) : Log :=
  match scene.answer with
  | .ok load => [.sourceRead name load]
  | .error why => [.sourceFailed name why, .samplingFailed why]

end Scene

/-- What a monitor looks at and others set. -/
structure Gate where
  running : Bool
  ready : Bool
  receiver : Bool
  deriving DecidableEq

namespace Gate

def act (g : Gate) : Act → Gate
  | .ready => if g.receiver then { g with ready := true } else g
  | .notReady => if g.receiver then { g with ready := false } else g
  | .receive => g
  | .dropReceiver => { g with receiver := false }
  | .stop => { g with running := false }

def after (g : Gate) (acts : List Act) : Gate := acts.foldl act g

@[simp] theorem after_nil (g : Gate) : g.after [] = g := rfl

@[simp] theorem after_cons (g : Gate) (a : Act) (acts : List Act) :
    g.after (a :: acts) = (g.act a).after acts := rfl

@[simp] theorem after_append (g : Gate) (acts later : List Act) :
    g.after (acts ++ later) = (g.after acts).after later := by
  simp [after]

theorem act_of_dropped {g : Gate} (h : g.receiver = false) (a : Act) :
    (g.act a).receiver = false ∧ (g.act a).ready = g.ready := by
  cases a <;> simp [act, h]

/-- Nobody can set the readiness of a receiver that is gone. -/
theorem after_of_dropped {g : Gate} (h : g.receiver = false) (acts : List Act) :
    (g.after acts).receiver = false ∧ (g.after acts).ready = g.ready := by
  induction acts generalizing g with
  | nil => exact ⟨h, rfl⟩
  | cons a acts ih =>
      obtain ⟨hreceiver, hready⟩ := act_of_dropped h a
      obtain ⟨hlater, hsame⟩ := ih hreceiver
      exact ⟨hlater, hsame.trans hready⟩

/-- Nobody sets the flag again. -/
theorem running_after_iff {g : Gate} {acts : List Act} :
    (g.after acts).running = true ↔ g.running = true ∧ .stop ∉ acts := by
  induction acts generalizing g with
  | nil => simp
  | cons a acts ih =>
      have hact : (g.act a).running = true ↔ g.running = true ∧ a ≠ .stop := by
        cases a <;> cases h : g.receiver <;> simp [act, h]
      rw [after_cons, ih, hact, List.mem_cons, not_or, and_assoc, ne_comm]

/-- The channel as the receiver left it before the start. -/
def channel (g : Gate) : Channel Change :=
  let c := Channel.fresh.setReady g.ready
  if g.receiver then c else c.dropReceiver

end Gate

/-- A round of a monitor: its scene, the change that the load made, and the gate at the
time. -/
structure Round where
  scene : Scene
  change : Option Change
  gate : Gate

namespace Round

def put? (r : Round) : Option Change :=
  if r.gate.ready && r.gate.receiver then r.change else none

/-- The round has a change, and the receiver refuses it. -/
def isRefused (r : Round) : Bool := r.change.isSome && !r.gate.ready

/-- The round has a change, and finds the receiver ready and gone. -/
def findsNobody (r : Round) : Bool := r.change.isSome && r.gate.ready && !r.gate.receiver

def notices (name : String) (r : Round) : Log :=
  r.scene.notices name ++
    if r.isRefused then [.sinkRefused r.scene.load]
    else if r.findsNobody then [.sinkGone]
    else []

theorem filterMap_put?_cons (r : Round) (rs : List Round) :
    (r :: rs).filterMap put? = r.put?.toList ++ rs.filterMap put? := by
  cases h : r.put? <;> simp [h]

end Round

def roundOf (selection : Selection) (t : Tracker) (g : Gate) (scene : Scene) : Round :=
  ⟨scene, (t.observe scene.load selection).2, g.after scene.acts⟩

/-- The rounds of a script, for a monitor that never leaves. -/
def rounds (selection : Selection) : Tracker → Gate → List Scene → List Round
  | _, _, [] => []
  | t, g, scene :: scenes =>
    let r := roundOf selection t g scene
    r :: rounds selection ⟨some scene.load⟩ r.gate scenes

/-- The number of rounds after which the monitor leaves: it does so in the first round that
finds nobody, or at the first test that finds the flag cleared.  One more than there are, if it
does neither. -/
def roundsUntilEnd (g : Gate) (rs : List Round) : Nat :=
  min (rs.findIdx Round.findsNobody + 1) ((g :: rs.map Round.gate).findIdx fun g => !g.running)

section Rounds

variable {selection : Selection}

@[simp] theorem rounds_nil (t : Tracker) (g : Gate) : rounds selection t g [] = [] := rfl

@[simp] theorem rounds_cons (t : Tracker) (g : Gate) (scene : Scene) (scenes : List Scene) :
    rounds selection t g (scene :: scenes) = roundOf selection t g scene ::
      rounds selection ⟨some scene.load⟩ (g.after scene.acts) scenes := rfl

@[simp] theorem length_rounds (t : Tracker) (g : Gate) (scenes : List Scene) :
    (rounds selection t g scenes).length = scenes.length := by
  induction scenes generalizing t g with
  | nil => rfl
  | cons scene scenes ih => simp [ih]

@[simp] theorem map_scene_rounds (t : Tracker) (g : Gate) (scenes : List Scene) :
    (rounds selection t g scenes).map Round.scene = scenes := by
  induction scenes generalizing t g with
  | nil => rfl
  | cons scene scenes ih => simp [ih, roundOf]

theorem flatMap_acts_rounds (t : Tracker) (g : Gate) (scenes : List Scene) :
    (rounds selection t g scenes).flatMap (·.scene.acts) = scenes.flatMap Scene.acts := by
  have h := List.flatMap_map Round.scene Scene.acts (rounds selection t g scenes)
  rw [map_scene_rounds] at h
  exact h.symm

theorem map_change_rounds (t : Tracker) (g : Gate) (scenes : List Scene) :
    (rounds selection t g scenes).map Round.change =
      t.observeAll (scenes.map fun scene => (scene.load, selection)) := by
  induction scenes generalizing t g with
  | nil => rfl
  | cons scene scenes ih =>
      simp only [rounds_cons, List.map_cons, ih]
      rfl

theorem rounds_append (t : Tracker) (g : Gate) (scenes later : List Scene) :
    rounds selection t g (scenes ++ later) = rounds selection t g scenes ++
      rounds selection ⟨(scenes.getLast?.map Scene.load).or t.last⟩
        (g.after (scenes.flatMap Scene.acts)) later := by
  induction scenes generalizing t g with
  | nil => simp
  | cons scene scenes ih =>
      have hlast : ((scenes.getLast?.map Scene.load).or (some scene.load)) =
          (((scene :: scenes).getLast?.map Scene.load).or t.last) := by
        rw [List.getLast?_cons]
        cases scenes.getLast? <;> rfl
      rw [List.cons_append, rounds_cons, rounds_cons, ih, hlast, List.cons_append,
        List.flatMap_cons, Gate.after_append]

theorem take_rounds (t : Tracker) (g : Gate) (scenes : List Scene) (n : Nat) :
    (rounds selection t g scenes).take n = rounds selection t g (scenes.take n) := by
  induction scenes generalizing t g n with
  | nil => simp
  | cons scene scenes ih =>
      cases n with
      | zero => rfl
      | succ n => simp [ih]

end Rounds

section End

variable {g : Gate} {r : Round} {rs : List Round}

theorem roundsUntilEnd_of_stopped (h : g.running = false) : roundsUntilEnd g rs = 0 := by
  simp [roundsUntilEnd, List.findIdx_cons, h]

theorem roundsUntilEnd_nil (h : g.running = true) : roundsUntilEnd g [] = 1 := by
  simp [roundsUntilEnd, List.findIdx_cons, h]

theorem roundsUntilEnd_of_findsNobody (h : g.running = true) (hr : r.findsNobody = true) :
    roundsUntilEnd g (r :: rs) = 1 := by
  simp only [roundsUntilEnd, List.map_cons, List.findIdx_cons, h, hr, cond_true,
    Bool.not_true, cond_false]
  omega

theorem roundsUntilEnd_cons (h : g.running = true) (hr : r.findsNobody = false) :
    roundsUntilEnd g (r :: rs) = roundsUntilEnd r.gate rs + 1 := by
  simp only [roundsUntilEnd, List.map_cons, List.findIdx_cons, h, hr, Bool.not_true, cond_false]
  omega

/-- The monitor goes on through all rounds if no test finds the flag cleared, and no round
finds nobody. -/
theorem length_lt_roundsUntilEnd_iff :
    rs.length < roundsUntilEnd g rs ↔
      g.running = true ∧ ∀ r ∈ rs, r.findsNobody = false ∧ r.gate.running = true := by
  induction rs generalizing g with
  | nil =>
      cases hg : g.running with
      | false => simp [roundsUntilEnd_of_stopped hg]
      | true => simp [roundsUntilEnd_nil hg]
  | cons r rs ih =>
      cases hg : g.running with
      | false => simp [roundsUntilEnd_of_stopped hg]
      | true =>
          cases hr : r.findsNobody with
          | true => simp [roundsUntilEnd_of_findsNobody hg hr, hr]
          | false =>
              rw [roundsUntilEnd_cons hg hr, List.length_cons, Nat.add_lt_add_iff_right, ih]
              simp [hr]

end End

end Monitor

end ThermalGauge
