import ThermalGauge.Proofs.Monitor.Performance

/-!
# What a monitor delivers

Every change is put into the channel, refused, or finds nobody, and the log tells the latter
two.  The receiver gets what was put into the channel, in order and without loss or repetition.
-/

namespace ThermalGauge

def Notice.isRefusal : Notice → Bool
  | .sinkRefused _ => true
  | _ => false

namespace Monitor

namespace Scene

theorem countP_isRefusal_notices (name : String) (scene : Scene) :
    (scene.notices name).countP Notice.isRefusal = 0 := by
  cases h : scene.answer <;> simp [notices, h, Notice.isRefusal]

theorem count_sinkGone_notices (name : String) (scene : Scene) :
    (scene.notices name).count .sinkGone = 0 := by
  cases h : scene.answer <;> simp [notices, h]

end Scene

namespace Round

/-- A round with a change has one of three outcomes, a round without has none of them. -/
theorem length_put?_add_counts (name : String) (r : Round) :
    r.put?.toList.length + (r.notices name).countP Notice.isRefusal +
      (r.notices name).count .sinkGone = r.change.toList.length := by
  obtain ⟨scene, change, running, ready, receiver⟩ := r
  simp only [notices, List.countP_append, List.count_append, scene.countP_isRefusal_notices,
    scene.count_sinkGone_notices]
  cases change with
  | none => simp [put?, isRefused, findsNobody]
  | some change =>
      cases ready <;> cases receiver <;>
        simp [put?, isRefused, findsNobody, Notice.isRefusal]

theorem filterMap_change_cons (r : Round) (rs : List Round) :
    (r :: rs).filterMap change = r.change.toList ++ rs.filterMap change := by
  cases h : r.change <;> simp [h]

theorem length_puts_add_counts (name : String) (rs : List Round) :
    (rs.filterMap put?).length + (rs.flatMap (notices name)).countP Notice.isRefusal +
      (rs.flatMap (notices name)).count .sinkGone = (rs.filterMap change).length := by
  induction rs with
  | nil => rfl
  | cons r rs ih =>
      have hr := r.length_put?_add_counts name
      rw [filterMap_put?_cons, filterMap_change_cons, List.flatMap_cons, List.countP_append,
        List.count_append, List.length_append, List.length_append]
      omega

/-- The log of a whole rehearsal tells of as many changes as there were, but for those put into
the channel. -/
theorem length_puts_add_counts_log {name : String} {interval : Interval} {rs : List Round}
    {left : Prop} [Decidable left] {log : Log}
    (h : log = [.monitorStarted interval] ++ rs.flatMap (notices name) ++
      if left then [.monitorLeft] else []) :
    (rs.filterMap put?).length + log.countP Notice.isRefusal + log.count .sinkGone =
      (rs.filterMap change).length := by
  have hcounts := length_puts_add_counts name rs
  have hstarted : ([.monitorStarted interval] : Log).countP Notice.isRefusal = 0 ∧
      ([.monitorStarted interval] : Log).count .sinkGone = 0 := by
    simp [Notice.isRefusal]
  have hleft : (if left then [.monitorLeft] else [] : Log).countP Notice.isRefusal = 0 ∧
      (if left then [.monitorLeft] else [] : Log).count .sinkGone = 0 := by
    split <;> simp [Notice.isRefusal]
  rw [h, List.countP_append, List.countP_append, List.count_append, List.count_append,
    hstarted.1, hstarted.2, hleft.1, hleft.2]
  omega

end Round

/-- The changes that a rehearsal puts into the channel are those of the rounds that find the
receiver ready and there.  While it is there, it has taken out some of them and the others are
queued; when it is gone, it has taken out those that came first. -/
theorem rehearsal_delivers (name : String) (selection : Selection) (interval : Interval)
    (g : Gate) (scenes : List Scene) :
    let s := rehearsal name selection interval g scenes
    let n := roundsUntilEnd g (rounds selection .fresh g scenes)
    let taken := (rounds selection .fresh g scenes).take n
    let put := taken.filterMap Round.put?
    taken.map Round.change =
        Tracker.fresh.observeAll ((scenes.take n).map fun scene => (scene.load, selection)) ∧
      (s.monitor.channel.receiver = true → s.takenOut ++ s.queue = put) ∧
      (s.monitor.channel.receiver = false → s.takenOut <+: put) ∧
      s.monitor.status = (if n ≤ scenes.length then .left else .sampling) ∧
      s.monitor.gate = g.after ((scenes.take n).flatMap Scene.acts) ∧
      s.monitor.log = [.monitorStarted interval] ++ taken.flatMap (Round.notices name) ++
        (if n ≤ scenes.length then [.monitorLeft] else []) ∧
      put.length + s.monitor.log.countP Notice.isRefusal + s.monitor.log.count .sinkGone =
        (taken.filterMap Round.change).length := by
  intro s n taken put
  have h := rehearsal_follows name selection interval g scenes
  have hgate := h.gate
  have hstatus := h.status
  have hlog := h.log
  have haccounts := h.accounts (accounts_opening interval g)
  rw [gate_opening] at hgate haccounts
  rw [gate_opening, length_rounds] at hstatus hlog
  have htaken : taken = rounds selection .fresh g (scenes.take n) :=
    take_rounds _ _ _ _
  refine ⟨?_, haccounts.balanced, ?_, hstatus, ?_, hlog, ?_⟩
  · rw [htaken]
    exact map_change_rounds _ _ _
  · intro _
    exact (List.prefix_append _ _).trans haccounts.inOrder
  · have hacts : taken.flatMap (·.scene.acts) = (scenes.take n).flatMap Scene.acts := by
      rw [htaken]
      exact flatMap_acts_rounds _ _ _
    exact hacts ▸ hgate
  · exact Round.length_puts_add_counts_log hlog

end Monitor

end ThermalGauge
