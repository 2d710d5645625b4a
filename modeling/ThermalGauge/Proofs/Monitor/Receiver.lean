import ThermalGauge.Proofs.Monitor.Performance

/-!
# What a receiver knows, and who misses it

A change that is refused is lost, and a load that stays as it is makes no other: the receiver
knows the load as far as it took values at the latest change.  A receiver that is gone is missed
by a change alone, and only if it was ready when it went.
-/

namespace ThermalGauge

namespace Monitor

variable {name : String} {selection : Selection} {interval : Interval} {g : Gate}

section Reached

variable {scenes : List Scene}

/-- A rehearsal that ends in a sample went through all of its scenes. -/
theorem status_rehearsal_eq_sampling_iff :
    (rehearsal name selection interval g scenes).monitor.status = .sampling ↔
      g.running = true ∧
        ∀ r ∈ rounds selection .fresh g scenes, r.findsNobody = false ∧ r.gate.running = true := by
  have h := (rehearsal_follows name selection interval g scenes).status
  rw [gate_opening] at h
  rw [h, ← length_lt_roundsUntilEnd_iff]
  split
  · rename_i hle
    exact iff_of_false (by simp) (Nat.not_lt.mpr hle)
  · rename_i hlt
    exact iff_of_true rfl (Nat.lt_of_not_le hlt)

theorem status_rehearsal_eq_left_of_ne
    (h : (rehearsal name selection interval g scenes).monitor.status ≠ .sampling) :
    (rehearsal name selection interval g scenes).monitor.status = .left := by
  have hstatus := (rehearsal_follows name selection interval g scenes).status
  split at hstatus
  · exact hstatus
  · exact absurd hstatus h

theorem length_le_roundsUntilEnd_concat {rs : List Round} (r : Round)
    (h : rs.length < roundsUntilEnd g rs) :
    (rs ++ [r]).length ≤ roundsUntilEnd g (rs ++ [r]) := by
  induction rs generalizing g with
  | nil =>
      have hrunning : g.running = true := (length_lt_roundsUntilEnd_iff.mp h).1
      cases hr : r.findsNobody with
      | true => simp [roundsUntilEnd_of_findsNobody hrunning hr]
      | false => simp [roundsUntilEnd_cons hrunning hr]
  | cons r' rs ih =>
      obtain ⟨hrunning, hall⟩ := length_lt_roundsUntilEnd_iff.mp h
      have hr' : r'.findsNobody = false := (hall r' (by simp)).1
      rw [roundsUntilEnd_cons hrunning hr'] at h
      rw [List.cons_append, roundsUntilEnd_cons hrunning hr', List.length_cons]
      exact Nat.succ_le_succ (ih (Nat.lt_of_succ_lt_succ h))

theorem follows_all (name : String) (interval : Interval)
    (h : scenes.length ≤ roundsUntilEnd g (rounds selection .fresh g scenes)) :
    let s := rehearsal name selection interval g scenes
    s.monitor.gate = g.after (scenes.flatMap Scene.acts) ∧
      s.Accounts ((rounds selection .fresh g scenes).filterMap Round.put?) ∧
      (rounds selection .fresh g scenes).flatMap (Round.notices name) ⊆ s.monitor.log := by
  intro s
  have hs := rehearsal_follows name selection interval g scenes
  have hall : (rounds selection .fresh g scenes).take
      (roundsUntilEnd g (rounds selection .fresh g scenes)) = rounds selection .fresh g scenes := by
    rw [List.take_of_length_le]
    rw [length_rounds]
    exact h
  have hgate := hs.gate
  have haccounts := hs.accounts (accounts_opening interval g)
  have hlog := hs.log
  rw [gate_opening, hall] at hgate haccounts hlog
  refine ⟨?_, haccounts, ?_⟩
  · rw [flatMap_acts_rounds] at hgate
    exact hgate
  · intro notice hnotice
    rw [hlog]
    simp [hnotice]

/-- The rehearsal of the scenes before it having come to a sample, a scene is gone through. -/
theorem length_le_of_reached (scene : Scene)
    (h : (rehearsal name selection interval g scenes).monitor.status = .sampling) :
    (scenes ++ [scene]).length ≤
      roundsUntilEnd g (rounds selection .fresh g (scenes ++ [scene])) := by
  have hlt := length_lt_roundsUntilEnd_iff.mpr (status_rehearsal_eq_sampling_iff.mp h)
  have hrounds : rounds selection .fresh g (scenes ++ [scene]) =
      rounds selection .fresh g scenes ++ [_] := rounds_append .fresh g scenes [scene]
  have hlength : (rounds selection .fresh g (scenes ++ [scene])).length =
      (scenes ++ [scene]).length := length_rounds _ _ _
  rw [← hlength, hrounds]
  exact length_le_roundsUntilEnd_concat _ hlt

theorem reached_of_append {later : List Scene}
    (h : (rehearsal name selection interval g (scenes ++ later)).monitor.status = .sampling) :
    (rehearsal name selection interval g scenes).monitor.status = .sampling := by
  rw [status_rehearsal_eq_sampling_iff, rounds_append] at h
  refine status_rehearsal_eq_sampling_iff.mpr ⟨h.1, ?_⟩
  intro r hr
  exact h.2 r (List.mem_append_left _ hr)

theorem given_of_reached
    (hreached : (rehearsal name selection interval g scenes).monitor.status = .sampling)
    (hreceiver : (g.after (scenes.flatMap Scene.acts)).receiver = true) :
    (rehearsal name selection interval g scenes).given =
      (rounds selection .fresh g scenes).filterMap Round.put? := by
  have hlt := length_lt_roundsUntilEnd_iff.mpr (status_rehearsal_eq_sampling_iff.mp hreached)
  rw [length_rounds] at hlt
  obtain ⟨hgate, haccounts, -⟩ := follows_all name interval (Nat.le_of_lt hlt)
  apply haccounts.balanced
  rw [← hgate] at hreceiver
  exact hreceiver

end Reached

theorem receiver_of_after {acts : List Act} (h : (g.after acts).receiver = true) :
    g.receiver = true := by
  cases hgone : g.receiver with
  | true => rfl
  | false => exact absurd h (by simp [(Gate.after_of_dropped hgone acts).1])

theorem filterMap_put?_rounds_of_steady {load : Load} {scenes : List Scene}
    (h : ∀ scene ∈ scenes, scene.load = load) (g : Gate) :
    (rounds selection ⟨some load⟩ g scenes).filterMap Round.put? = [] := by
  induction scenes generalizing g with
  | nil => rfl
  | cons scene scenes ih =>
      have hload : scene.load = load := h scene (by simp)
      have hchange : (Tracker.observe ⟨some load⟩ scene.load selection).2 = none :=
        Tracker.observe_eq_none_iff.mpr (congrArg some hload.symm)
      rw [rounds_cons, Round.filterMap_put?_cons, hload, ih fun other hother =>
        h other (List.mem_cons_of_mem _ hother)]
      simp [Round.put?, roundOf, hchange]

/-- The round of a scene in a script that begins with `earlier`. -/
def roundAfter (selection : Selection) (g : Gate) (earlier : List Scene) (scene : Scene) :
    Round :=
  roundOf selection ⟨earlier.getLast?.map Scene.load⟩ (g.after (earlier.flatMap Scene.acts)) scene

theorem gate_roundAfter (earlier : List Scene) (scene : Scene) :
    (roundAfter selection g earlier scene).gate =
      g.after ((earlier ++ [scene]).flatMap Scene.acts) := by
  simp [roundAfter, roundOf]

theorem rounds_split (g : Gate) (earlier : List Scene) (scene : Scene) (later : List Scene) :
    rounds selection .fresh g (earlier ++ scene :: later) =
      rounds selection .fresh g earlier ++ roundAfter selection g earlier scene ::
        rounds selection ⟨some scene.load⟩ (roundAfter selection g earlier scene).gate later := by
  rw [rounds_append]
  simp only [Tracker.fresh, Option.or_none]
  rfl

/-- A script splits where its load changed to the last one. -/
structure LatestChange (script earlier : List Scene) (first : Scene) (same : List Scene) :
    Prop where
  split : script = earlier ++ first :: same
  steady : ∀ scene ∈ same, scene.load = first.load
  changed : earlier.getLast?.map Scene.load ≠ some first.load

theorem exists_latestChange (scenes : List Scene) (scene : Scene) :
    ∃ earlier first same, LatestChange (scenes ++ [scene]) earlier first same ∧
      first.load = scene.load := by
  induction scenes with
  | nil => exact ⟨[], scene, [], ⟨rfl, by simp, by simp⟩, rfl⟩
  | cons s scenes ih =>
      obtain ⟨earlier, first, same, h, hfirst⟩ := ih
      have hsplit : s :: scenes ++ [scene] = s :: earlier ++ first :: same :=
        congrArg (s :: ·) h.split
      cases earlier with
      | cons s' earlier =>
          refine ⟨s :: s' :: earlier, first, same, ⟨hsplit, h.steady, ?_⟩, hfirst⟩
          rw [List.getLast?_cons_cons]
          exact h.changed
      | nil =>
          by_cases hload : s.load = first.load
          · refine ⟨[], s, first :: same, ⟨hsplit, ?_, by simp⟩, hload.trans hfirst⟩
            intro other hother
            rcases List.mem_cons.mp hother with rfl | hother
            · exact hload.symm
            · exact (h.steady other hother).trans hload.symm
          · exact ⟨[s], first, same, ⟨hsplit, h.steady, by simpa using hload⟩, hfirst⟩

namespace LatestChange

variable {script earlier same : List Scene} {first : Scene}

theorem change (h : LatestChange script earlier first same) :
    (roundAfter selection g earlier first).change =
      some ⟨first.load, earlier.getLast?.map Scene.load, selection⟩ :=
  Tracker.observe_eq_some_iff.mpr ⟨h.changed, rfl⟩

/-- The latest change is the latest one that can go into the channel. -/
theorem filterMap_put? (h : LatestChange script earlier first same) :
    (rounds selection .fresh g script).filterMap Round.put? =
      (rounds selection .fresh g earlier).filterMap Round.put? ++
        (roundAfter selection g earlier first).put?.toList := by
  rw [h.split, rounds_split, List.filterMap_append, Round.filterMap_put?_cons,
    filterMap_put?_rounds_of_steady h.steady, List.append_nil]

theorem sinkRefused_mem (h : LatestChange script earlier first same)
    (hrefusing : (roundAfter selection g earlier first).gate.ready = false) :
    .sinkRefused first.load ∈
      (rounds selection .fresh g script).flatMap (Round.notices name) := by
  have hrefused : (roundAfter selection g earlier first).isRefused = true := by
    simp [Round.isRefused, h.change, hrefusing]
  have hnotice : .sinkRefused first.load ∈
      (roundAfter selection g earlier first).notices name := by
    rw [Round.notices, hrefused, if_pos rfl]
    exact List.mem_append_right _ (List.mem_singleton.mpr rfl)
  rw [h.split, rounds_split]
  exact List.mem_flatMap.mpr ⟨_, by simp, hnotice⟩

end LatestChange

/-- After every sample, the receiver that is still there knows the load if it took values when
the load changed to what it is now; else that change is lost, and the receiver was given
nothing since. -/
theorem rehearsal_given_latest (scenes : List Scene) (scene : Scene)
    (hreached : (rehearsal name selection interval g scenes).monitor.status = .sampling)
    (hreceiver :
      (rehearsal name selection interval g (scenes ++ [scene])).monitor.channel.receiver = true) :
    let s := rehearsal name selection interval g (scenes ++ [scene])
    ∃ earlier first same, LatestChange (scenes ++ [scene]) earlier first same ∧
      first.load = scene.load ∧
      let gate := g.after ((earlier ++ [first]).flatMap Scene.acts)
      (gate.ready = true →
        ∃ change, s.given.getLast? = some change ∧ change.load = scene.load) ∧
      (gate.ready = false →
        s.given = (rehearsal name selection interval g earlier).given ∧
          .sinkRefused scene.load ∈ s.monitor.log) := by
  intro s
  obtain ⟨earlier, first, same, hlatest, hfirst⟩ := exists_latestChange scenes scene
  refine ⟨earlier, first, same, hlatest, hfirst, ?_⟩
  intro gate
  rw [← hfirst]
  let r := roundAfter selection g earlier first
  have hround : r.gate = gate := gate_roundAfter _ _
  obtain ⟨hgate, haccounts, hlog⟩ :=
    follows_all name interval (length_le_of_reached scene hreached)
  have hgiven : s.given =
      (rounds selection .fresh g earlier).filterMap Round.put? ++ r.put?.toList :=
    (haccounts.balanced hreceiver).trans hlatest.filterMap_put?
  -- The receiver was there when the load changed, and at every time before.
  have halive : gate.receiver = true := by
    have hend : (g.after ((scenes ++ [scene]).flatMap Scene.acts)).receiver = true :=
      (congrArg Gate.receiver hgate).symm.trans hreceiver
    rw [hlatest.split, List.append_cons, List.flatMap_append, Gate.after_append] at hend
    exact receiver_of_after hend
  refine ⟨fun hready => ?_, fun hrefusing => ⟨?_, ?_⟩⟩
  · have hput : r.put? = some ⟨first.load, earlier.getLast?.map Scene.load, selection⟩ := by
      rw [Round.put?, hround, hready, halive]
      exact hlatest.change
    rw [hgiven, hput]
    exact ⟨_, List.getLast?_concat, rfl⟩
  · have hput : r.put? = none := by
      rw [Round.put?, hround, hrefusing]
      rfl
    have hscenes : scenes = earlier ++ (first :: same).dropLast := by
      have h := congrArg List.dropLast hlatest.split
      rwa [List.dropLast_concat, List.dropLast_append_cons] at h
    have hbefore : (g.after (earlier.flatMap Scene.acts)).receiver = true := by
      have h := halive
      simp only [gate, List.flatMap_append, Gate.after_append] at h
      exact receiver_of_after h
    rw [hgiven, hput, given_of_reached (reached_of_append (hscenes ▸ hreached)) hbefore]
    exact List.append_nil _
  · apply hlog
    exact hlatest.sinkRefused_mem (hround ▸ hrefusing)

/-- The first change is refused, and the second one is not. -/
theorem rehearsal_given_latest_of_opened :
    let quiet : Scene := ⟨[], .ok (.atMost 5)⟩
    let opened : Scene := ⟨[.ready], .ok (.atMost 7)⟩
    let g : Gate := ⟨true, false, true⟩
    let s := rehearsal "" .auto ⟨0⟩ g [quiet, opened]
    (rehearsal "" .auto ⟨0⟩ g [quiet]).monitor.status = .sampling ∧
      s.monitor.channel.receiver = true ∧
      ∃ earlier first same, LatestChange [quiet, opened] earlier first same ∧
        first.load = .atMost 7 ∧
        let gate := g.after ((earlier ++ [first]).flatMap Scene.acts)
        (gate.ready = true →
          ∃ change, s.given.getLast? = some change ∧ change.load = .atMost 7) ∧
        (gate.ready = false →
          s.given = (rehearsal "" .auto ⟨0⟩ g earlier).given ∧
            .sinkRefused (.atMost 7) ∈ s.monitor.log) := by
  intro quiet opened g
  refine ⟨by decide, by decide, ?_⟩
  exact rehearsal_given_latest [quiet] opened (by decide) (by decide)

/-- A change that is refused is not made again when the receiver takes values. -/
theorem exists_ready_not_given_current :
    ¬ ∀ (name : String) (selection : Selection) (interval : Interval) (g : Gate)
      (scenes : List Scene) (scene : Scene),
      g.receiver = true → (∀ s ∈ scenes ++ [scene], .dropReceiver ∉ s.acts) →
      (rehearsal name selection interval g scenes).monitor.status = .sampling →
      let s := rehearsal name selection interval g (scenes ++ [scene])
      s.monitor.channel.ready = true →
        ∃ change, s.given.getLast? = some change ∧ change.load = scene.load := by
  intro h
  let quiet : Scene := ⟨[], .ok (.atMost 5)⟩
  let opened : Scene := ⟨[.ready], .ok (.atMost 5)⟩
  obtain ⟨change, hgiven, -⟩ := h "" .auto ⟨0⟩ ⟨true, false, true⟩ [quiet] opened rfl
    (by simp [quiet, opened]) (by decide) (by decide)
  have hnothing : (rehearsal "" .auto ⟨0⟩ ⟨true, false, true⟩ [quiet, opened]).given = [] := by
    decide
  simp [hnothing] at hgiven

theorem forall_running_rounds_iff {t : Tracker} {scenes : List Scene} (h : g.running = true) :
    (∀ r ∈ rounds selection t g scenes, r.gate.running = true) ↔
      ∀ scene ∈ scenes, .stop ∉ scene.acts := by
  induction scenes generalizing t g with
  | nil => simp
  | cons scene scenes ih =>
      have hone : (roundOf selection t g scene).gate.running = true ↔ .stop ∉ scene.acts :=
        Gate.running_after_iff.trans (and_iff_right h)
      rw [rounds_cons, List.forall_mem_cons, List.forall_mem_cons, hone]
      refine and_congr_right fun hscene => ?_
      exact ih (hone.mpr hscene)

theorem forall_change_rounds_iff {t : Tracker} {scenes : List Scene} :
    (∀ r ∈ rounds selection t g scenes, r.change = none) ↔
      ∀ scene ∈ scenes, t.last = some scene.load := by
  induction scenes generalizing t g with
  | nil => simp
  | cons scene scenes ih =>
      have hone : (roundOf selection t g scene).change = none ↔ t.last = some scene.load :=
        Tracker.observe_eq_none_iff
      rw [rounds_cons, List.forall_mem_cons, List.forall_mem_cons, hone, ih]
      refine and_congr_right fun hscene => ?_
      rw [hscene]

theorem gate_of_mem_rounds_of_dropped {t : Tracker} {scenes : List Scene}
    (h : g.receiver = false) {r : Round} (hr : r ∈ rounds selection t g scenes) :
    r.gate.receiver = false ∧ r.gate.ready = g.ready := by
  induction scenes generalizing t g with
  | nil => cases hr
  | cons scene scenes ih =>
      have hone := Gate.after_of_dropped h scene.acts
      rcases List.mem_cons.mp hr with rfl | hr
      · exact hone
      · obtain ⟨hreceiver, hready⟩ := ih hone.1 hr
        exact ⟨hreceiver, hready.trans hone.2⟩

/-- Rounds that find the receiver gone miss it where it was ready and the load changes. -/
theorem forall_findsNobody_rounds_iff {t : Tracker} {scenes : List Scene} {ready : Bool}
    (h : ∀ r ∈ rounds selection t g scenes, r.gate.receiver = false ∧ r.gate.ready = ready) :
    (∀ r ∈ rounds selection t g scenes, r.findsNobody = false) ↔
      ready = false ∨ ∀ scene ∈ scenes, t.last = some scene.load := by
  cases ready with
  | false =>
      refine iff_of_true (fun r hr => ?_) (Or.inl rfl)
      simp [Round.findsNobody, (h r hr).2]
  | true =>
      have hone : ∀ r ∈ rounds selection t g scenes, (r.findsNobody = false ↔ r.change = none) := by
        intro r hr
        obtain ⟨hreceiver, hready⟩ := h r hr
        simp [Round.findsNobody, hreceiver, hready]
      have hall : (∀ r ∈ rounds selection t g scenes, r.findsNobody = false) ↔
          ∀ scene ∈ scenes, t.last = some scene.load :=
        (forall₂_congr hone).trans forall_change_rounds_iff
      simpa using hall

/-- Once the receiver is gone, the monitor goes on as long as nobody stops it and the load
stays as it was, and with any loads if the receiver refused values when it went. -/
theorem status_after_drop_eq_sampling_iff (scenes : List Scene) (scene : Scene)
    (later : List Scene)
    (hreached : (rehearsal name selection interval g scenes).monitor.status = .sampling)
    (hgone :
      (rehearsal name selection interval g (scenes ++ [scene])).monitor.channel.receiver = false) :
    let s := rehearsal name selection interval g (scenes ++ scene :: later)
    let ready := (rehearsal name selection interval g (scenes ++ [scene])).monitor.channel.ready
    (s.monitor.status = .sampling ↔
        (∀ other ∈ scene :: later, .stop ∉ other.acts) ∧
          (ready = false ∨
            ∀ other ∈ scene :: later, scenes.getLast?.map Scene.load = some other.load)) ∧
      (s.monitor.status ≠ .sampling → s.monitor.status = .left) ∧
      ∀ acts more, (scenes ++ [scene]).flatMap Scene.acts = acts ++ more →
        (g.after acts).receiver = false → ready = (g.after acts).ready := by
  intro s ready
  obtain ⟨hgate, -, -⟩ := follows_all name interval (length_le_of_reached scene hreached)
  have hreceiver : (g.after ((scenes ++ [scene]).flatMap Scene.acts)).receiver = false :=
    (congrArg Gate.receiver hgate).symm.trans hgone
  have hready : ready = (g.after ((scenes ++ [scene]).flatMap Scene.acts)).ready :=
    congrArg Gate.ready hgate
  refine ⟨?_, status_rehearsal_eq_left_of_ne, ?_⟩
  · let t : Tracker := ⟨scenes.getLast?.map Scene.load⟩
    let g' := g.after (scenes.flatMap Scene.acts)
    have hbefore := status_rehearsal_eq_sampling_iff.mp hreached
    have hrunning : g'.running = true := by
      have hnever := (forall_running_rounds_iff hbefore.1).mp fun r hr => (hbefore.2 r hr).2
      exact Gate.running_after_iff.mpr ⟨hbefore.1, by simpa using hnever⟩
    have hrounds : rounds selection .fresh g (scenes ++ scene :: later) =
        rounds selection .fresh g scenes ++ rounds selection t g' (scene :: later) := by
      rw [rounds_append]
      simp only [Tracker.fresh, Option.or_none]
      rfl
    have hdropped : ∀ r ∈ rounds selection t g' (scene :: later),
        r.gate.receiver = false ∧ r.gate.ready = ready := by
      have hscene : g'.after scene.acts = g.after ((scenes ++ [scene]).flatMap Scene.acts) := by
        simp [g']
      rw [rounds_cons, List.forall_mem_cons, hscene, hready]
      refine ⟨?_, fun r hr => gate_of_mem_rounds_of_dropped hreceiver hr⟩
      change (g'.after scene.acts).receiver = false ∧ (g'.after scene.acts).ready = _
      rw [hscene]
      exact ⟨hreceiver, rfl⟩
    rw [status_rehearsal_eq_sampling_iff, hrounds, List.forall_mem_append,
      and_iff_right hbefore.1, and_iff_right hbefore.2,
      ← forall_findsNobody_rounds_iff hdropped, ← forall_running_rounds_iff hrunning]
    simp only [imp_and, forall_and]
    exact and_comm
  · intro acts more hacts hdropped
    rw [hready, hacts, Gate.after_append]
    exact (Gate.after_of_dropped hdropped more).2

/-- The receiver goes while it refuses values, and the load changes twice more. -/
theorem status_after_drop_of_refusing :
    let quiet : Scene := ⟨[], .ok (.atMost 5)⟩
    let gone : Scene := ⟨[.notReady, .dropReceiver], .ok (.atMost 7)⟩
    let g : Gate := ⟨true, true, true⟩
    let s := rehearsal "" .auto ⟨0⟩ g ([quiet] ++ gone :: [quiet])
    let m := (rehearsal "" .auto ⟨0⟩ g ([quiet] ++ [gone])).monitor
    (rehearsal "" .auto ⟨0⟩ g [quiet]).monitor.status = .sampling ∧
      m.channel.receiver = false ∧
      (s.monitor.status = .sampling ↔
        (∀ other ∈ [gone, quiet], .stop ∉ other.acts) ∧
          (m.channel.ready = false ∨
            ∀ other ∈ [gone, quiet], some (Load.atMost 5) = some other.load)) ∧
      (s.monitor.status ≠ .sampling → s.monitor.status = .left) ∧
      ∀ acts more, ([quiet] ++ [gone]).flatMap Scene.acts = acts ++ more →
        (g.after acts).receiver = false → m.channel.ready = (g.after acts).ready := by
  intro quiet gone g
  refine ⟨by decide, by decide, ?_⟩
  exact status_after_drop_eq_sampling_iff [quiet] gone [quiet] (by decide) (by decide)

/-- A receiver that went while it refused values is not missed. -/
theorem exists_dropped_not_left :
    ¬ ∀ (name : String) (selection : Selection) (interval : Interval) (g : Gate)
      (scenes : List Scene) (scene : Scene),
      (rehearsal name selection interval g scenes).monitor.status = .sampling →
      let s := rehearsal name selection interval g (scenes ++ [scene])
      s.monitor.channel.receiver = false → s.monitor.status = .left := by
  intro h
  have hleft := h "" .auto ⟨0⟩ ⟨true, true, true⟩
    [⟨[.notReady, .dropReceiver], .ok (.atMost 5)⟩] ⟨[], .ok (.atMost 7)⟩ (by decide) (by decide)
  exact absurd hleft (by decide)

end Monitor

end ThermalGauge
