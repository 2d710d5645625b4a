import ThermalGauge.Host
import ThermalGauge.Proofs.Gauge
import ThermalGauge.Proofs.Settings

/-!
# Runs of a host

The replies of a host are told from its calls alone.  The first call that needs the gauge sets
it up from the variables as they are then.  From there on every load is one that a new gauge
from the same variables has of the surroundings as they are.
-/

namespace ThermalGauge

namespace Host

namespace Call

def needsGauge : Call → Bool
  | register | registerQuietly | load | query => true
  | _ => false

def environmentFrom (e : Settings.Environment) : Call → Settings.Environment
  | setEnvironment environment => environment
  | _ => e

def environmentAfter (e : Settings.Environment) (calls : List Call) : Settings.Environment :=
  calls.foldl environmentFrom e

/-- The variables when the gauge is needed for the first time. -/
def environmentAtSetUp (e : Settings.Environment) (calls : List Call) : Settings.Environment :=
  environmentAfter e (calls.takeWhile fun c => !c.needsGauge)

/-- The surroundings after a call, where loads are read from the gauge. -/
def surroundingsFrom (gauge : Gauge) (s : Surroundings) : Call → Surroundings
  | edit e => s.edit e
  | setFrames frames => s.withFrames frames
  | load | query => (gauge.readOrSentinel s).state
  | _ => s

def surroundingsAfter (gauge : Gauge) (s : Surroundings) (calls : List Call) : Surroundings :=
  calls.foldl (surroundingsFrom gauge) s

def treeFrom (t : FileTree) : Call → FileTree
  | edit e => t.apply e
  | _ => t

def framesFrom (frames : List Component.Frame) : Call → List Component.Frame
  | setFrames frames => frames
  | _ => frames

def treeAfter (t : FileTree) (calls : List Call) : FileTree := calls.foldl treeFrom t

def framesAfter (frames : List Component.Frame) (calls : List Call) : List Component.Frame :=
  calls.foldl framesFrom frames

/-- What a call is told by a gauge that is `asked` already, or else set up for it if it needs
one, with the warnings of the set-up. -/
def answer (gauge : Gauge) (warnings : Log) (asked : Bool) (s : Surroundings) (c : Call) :
    Reply × Log :=
  let first := if asked then [] else warnings
  let registration := if asked then [.alreadyRegistered]
    else warnings ++ [.registered gauge.description]
  let r := gauge.readOrSentinel s
  match c with
  | register => (.flag (!asked), registration)
  | registerQuietly => (.done, registration)
  | isRegistered => (.flag asked, [])
  | selection => (.selection (if asked then some gauge.selection else none), [])
  | load => match r.outcome with
    | .load l => (.load l, first ++ r.log)
    | _ => (.broke, first ++ r.log)
  | query => match r.outcome with
    | .load l => (.load l, first ++ r.log)
    | _ => (.load .sentinel, first ++ r.log ++ [.queryBroke])
  | setEnvironment _ | edit _ | setFrames _ => (.done, [])

theorem tree_surroundingsFrom (gauge : Gauge) (s : Surroundings) (c : Call) :
    (surroundingsFrom gauge s c).tree = treeFrom s.tree c := by
  cases c with
  | load => exact gauge.tree_readOrSentinel s
  | query => exact gauge.tree_readOrSentinel s
  | _ => rfl

theorem frames_surroundingsFrom (gauge : Gauge) (s : Surroundings) (c : Call) :
    (surroundingsFrom gauge s c).feed.frames = framesFrom s.feed.frames c := by
  cases c with
  | load => exact gauge.frames_readOrSentinel s
  | query => exact gauge.frames_readOrSentinel s
  | _ => rfl

theorem tree_surroundingsAfter (gauge : Gauge) (s : Surroundings) (calls : List Call) :
    (surroundingsAfter gauge s calls).tree = treeAfter s.tree calls := by
  symm
  apply List.foldl_hom Surroundings.tree
  exact fun s c => (tree_surroundingsFrom gauge s c).symm

theorem frames_surroundingsAfter (gauge : Gauge) (s : Surroundings) (calls : List Call) :
    (surroundingsAfter gauge s calls).feed.frames = framesAfter s.feed.frames calls := by
  symm
  apply List.foldl_hom fun s : Surroundings => s.feed.frames
  exact fun s c => (frames_surroundingsFrom gauge s c).symm

end Call

variable {h : Host} {gauge : Gauge} {warnings : Log}

section OneCall

theorem register_eq {first : Bool} (hfirst : h.gauge?.isNone = first)
    (hensure : h.ensure = ({ h with gauge? := some gauge }, gauge, warnings)) :
    h.register = ({ h with gauge? := some gauge }, first,
      warnings ++ [if first then .registered gauge.description else .alreadyRegistered]) := by
  simp only [register, hensure, hfirst]

theorem load_eq (hensure : h.ensure = ({ h with gauge? := some gauge }, gauge, warnings)) :
    h.load =
      let r := gauge.readOrSentinel h.surroundings
      ({ h with gauge? := some gauge, surroundings := r.state },
        match r.outcome with
        | .load l => some l
        | _ => none,
        warnings ++ r.log) := by
  simp only [load, hensure]
  split <;> simp_all

theorem surroundings_ensure (h : Host) : h.ensure.1.surroundings = h.surroundings := by
  cases hg : h.gauge? with
  | some gauge => rw [ensure_of_some hg]
  | none => rw [ensure_of_none hg]

theorem outcome_load (h : Host) :
    h.load.2.1 =
      match (h.ensure.2.1.readOrSentinel h.surroundings).outcome with
      | .load l => some l
      | _ => none := by
  simp only [load, surroundings_ensure]
  split <;> simp_all

theorem gauge?_load (h : Host) : h.load.1.gauge? = some h.ensure.2.1 := by
  simp only [load]
  split <;> exact gauge?_ensure h

/-- A call that needs the gauge, to a host that has it after `warnings`. -/
theorem call_of_needsGauge {asked : Bool} (hasked : h.gauge?.isSome = asked)
    (hensure : h.ensure = ({ h with gauge? := some gauge }, gauge, if asked then [] else warnings))
    {c : Call} (hc : c.needsGauge = true) :
    h.call c =
      (⟨some gauge, h.environment, c.surroundingsFrom gauge h.surroundings⟩,
        c.answer gauge warnings asked h.surroundings) := by
  have hfirst : h.gauge?.isNone = !asked := by
    rw [← hasked]
    cases h.gauge? <;> rfl
  cases c with
  | register =>
      simp only [call, register_eq hfirst hensure, Call.answer, Call.surroundingsFrom]
      cases asked <;> rfl
  | registerQuietly =>
      simp only [call, register_eq hfirst hensure, Call.answer, Call.surroundingsFrom]
      cases asked <;> rfl
  | load =>
      simp only [call, load_eq hensure, Call.answer, Call.surroundingsFrom]
      cases (gauge.readOrSentinel h.surroundings).outcome <;> rfl
  | query =>
      simp only [call, query, load_eq hensure, Call.answer, Call.surroundingsFrom]
      cases (gauge.readOrSentinel h.surroundings).outcome <;> rfl
  | _ => cases hc

theorem call_of_not_needsGauge {asked : Bool}
    (hgauge : h.gauge? = if asked then some gauge else none) {c : Call}
    (hc : c.needsGauge = false) :
    h.call c =
      (⟨h.gauge?, c.environmentFrom h.environment, c.surroundingsFrom gauge h.surroundings⟩,
        c.answer gauge warnings asked h.surroundings) := by
  have hasked : h.gauge?.isSome = asked := by
    rw [hgauge]
    cases asked <;> rfl
  have hselection : h.gauge?.map Gauge.selection =
      if asked then some gauge.selection else none := by
    rw [hgauge]
    cases asked <;> rfl
  cases c with
  | isRegistered =>
      simp only [call, hasked]
      rfl
  | selection =>
      simp only [call, hselection]
      rfl
  | setEnvironment environment => rfl
  | edit edit => rfl
  | setFrames frames => rfl
  | _ => cases hc

/-- What a call makes of a host and what it is told, where `asked` says whether the host has its
gauge before the call. -/
theorem call_eq {asked : Bool} (hgauge : h.gauge? = if asked then some gauge else none)
    {c : Call} (hsetUp : asked = false → c.needsGauge = true →
      setUp h.environment = (gauge, warnings)) :
    h.call c =
      (⟨if asked || c.needsGauge then some gauge else none, c.environmentFrom h.environment,
          c.surroundingsFrom gauge h.surroundings⟩,
        c.answer gauge warnings asked h.surroundings) := by
  cases hc : c.needsGauge with
  | false => rw [call_of_not_needsGauge hgauge hc, hgauge, Bool.or_false]
  | true =>
      have henvironment : c.environmentFrom h.environment = h.environment := by
        cases c with
        | setEnvironment environment => cases hc
        | _ => rfl
      rw [Bool.or_true, if_pos rfl, henvironment]
      cases asked with
      | false =>
          refine call_of_needsGauge (by simp [hgauge]) ?_ hc
          rw [ensure_of_none hgauge, hsetUp rfl hc]
          rfl
      | true =>
          refine call_of_needsGauge (by simp [hgauge]) ?_ hc
          have hsome : h.gauge? = some gauge := hgauge
          rw [ensure_of_some hsome, if_pos rfl, ← hsome]

end OneCall

theorem Call.environmentAtSetUp_cons (e : Settings.Environment) (c : Call) (calls : List Call) :
    environmentAtSetUp e (c :: calls) =
      if c.needsGauge then e else environmentAtSetUp (c.environmentFrom e) calls := by
  cases h : c.needsGauge <;> simp [environmentAtSetUp, environmentAfter, h]

/-- The first call of a run, and what the rest of it starts from. -/
theorem exists_call_eq {asked : Bool} (hgauge : h.gauge? = if asked then some gauge else none)
    {c : Call} {calls : List Call} (hsetUp : asked = false →
      setUp (Call.environmentAtSetUp h.environment (c :: calls)) = (gauge, warnings)) :
    ∃ h' : Host, h.call c = (h', c.answer gauge warnings asked h.surroundings) ∧
      (h'.gauge? = if asked || c.needsGauge then some gauge else none) ∧
      h'.environment = c.environmentFrom h.environment ∧
      h'.surroundings = c.surroundingsFrom gauge h.surroundings ∧
      ((asked || c.needsGauge) = false →
        setUp (Call.environmentAtSetUp h'.environment calls) = (gauge, warnings)) := by
  rw [Call.environmentAtSetUp_cons] at hsetUp
  refine ⟨_, call_eq hgauge ?_, rfl, rfl, rfl, ?_⟩
  · intro hasked hc
    simpa [hc] using hsetUp hasked
  · intro hlater
    obtain ⟨hasked, hc⟩ := Bool.or_eq_false_iff.mp hlater
    simpa [hc] using hsetUp hasked

/-- A run is told what its calls and the start make of it. -/
theorem getElem?_run {asked : Bool} (hgauge : h.gauge? = if asked then some gauge else none)
    {calls : List Call} (hsetUp : asked = false →
      setUp (Call.environmentAtSetUp h.environment calls) = (gauge, warnings)) (i : Nat) :
    (h.run calls).2[i]? = calls[i]?.map
      (Call.answer gauge warnings (asked || (calls.take i).any Call.needsGauge)
        (Call.surroundingsAfter gauge h.surroundings (calls.take i))) := by
  induction calls generalizing h asked i with
  | nil => simp [run]
  | cons c calls ih =>
      obtain ⟨h', hcall, hgauge', -, hsurroundings, hlater⟩ := exists_call_eq hgauge hsetUp
      have hreplies : (h.run (c :: calls)).2 = (h.call c).2 :: ((h.call c).1.run calls).2 := rfl
      rw [hreplies, hcall]
      cases i with
      | zero => simp [Call.surroundingsAfter]
      | succ i =>
          have hrest := ih hgauge' hlater i
          rw [hsurroundings] at hrest
          rw [List.getElem?_cons_succ, List.getElem?_cons_succ, hrest, List.take_succ_cons,
            List.any_cons, Bool.or_assoc]
          rfl

/-- The host that a run leaves behind. -/
theorem run_fst {asked : Bool} (hgauge : h.gauge? = if asked then some gauge else none)
    {calls : List Call} (hsetUp : asked = false →
      setUp (Call.environmentAtSetUp h.environment calls) = (gauge, warnings)) :
    (h.run calls).1 =
      ⟨if asked || calls.any Call.needsGauge then some gauge else none,
        Call.environmentAfter h.environment calls,
        Call.surroundingsAfter gauge h.surroundings calls⟩ := by
  induction calls generalizing h asked with
  | nil =>
      rw [List.any_nil, Bool.or_false, ← hgauge]
      rfl
  | cons c calls ih =>
      obtain ⟨h', hcall, hgauge', henvironment, hsurroundings, hlater⟩ :=
        exists_call_eq hgauge hsetUp
      have hhost : (h.run (c :: calls)).1 = ((h.call c).1.run calls).1 := rfl
      rw [hhost, hcall, ih hgauge' hlater, henvironment, hsurroundings, List.any_cons,
        Bool.or_assoc]
      rfl

theorem setUp_of_build {e : Settings.Environment}
    (h : ((default : Settings).applyEnvironment e).1.build = .ok gauge) :
    setUp e = (gauge, ((default : Settings).applyEnvironment e).2) := by
  simp only [setUp, buildOrUnavailable, h, List.append_nil]

section FromNone

variable {e : Settings.Environment} {calls : List Call}

theorem getElem?_run_of_build
    (h : ((default : Settings).applyEnvironment (Call.environmentAtSetUp e calls)).1.build =
      .ok gauge) (s : Surroundings) (i : Nat) :
    (run ⟨none, e, s⟩ calls).2[i]? = calls[i]?.map
      (Call.answer gauge
        ((default : Settings).applyEnvironment (Call.environmentAtSetUp e calls)).2
        ((calls.take i).any Call.needsGauge) (Call.surroundingsAfter gauge s (calls.take i))) := by
  have hnone : (⟨none, e, s⟩ : Host).gauge? = if false then some gauge else none := rfl
  have hrun := getElem?_run hnone (fun _ => setUp_of_build h) i
  rwa [Bool.false_or] at hrun

theorem run_fst_of_build
    (h : ((default : Settings).applyEnvironment (Call.environmentAtSetUp e calls)).1.build =
      .ok gauge) (s : Surroundings) :
    (run ⟨none, e, s⟩ calls).1 =
      ⟨if calls.any Call.needsGauge then some gauge else none, Call.environmentAfter e calls,
        Call.surroundingsAfter gauge s calls⟩ := by
  have hnone : (⟨none, e, s⟩ : Host).gauge? = if false then some gauge else none := rfl
  have hrun := run_fst hnone fun _ => setUp_of_build h
  rwa [Bool.false_or] at hrun

end FromNone

theorem Call.any_needsGauge_take {c : Call} {calls : List Call} {i j : Nat}
    (hi : calls[i]? = some c) (hc : c.needsGauge = true) (hij : i < j) :
    (calls.take j).any needsGauge = true := by
  have hmem : c ∈ calls.take j := by
    apply List.mem_of_getElem?
    rw [List.getElem?_take_of_lt hij]
    exact hi
  exact List.any_eq_true.mpr ⟨c, hmem, hc⟩

/-- In a run of a host without a gauge, the gauge is built from the variables at the first call
that needs it.  Every reply is what that gauge has to say of the surroundings at the time, of
which the tree and the frames are as the calls before left them.  Of the calls to register, one
at most is told that it was the first. -/
theorem run_answers (e : Settings.Environment) (s : Surroundings) (calls : List Call) :
    let configured := (default : Settings).applyEnvironment (Call.environmentAtSetUp e calls)
    let replies : List (Reply × Log) := (run ⟨none, e, s⟩ calls).2
    ∃ gauge, configured.1.build = .ok gauge ∧ gauge.selection = configured.1.selection ∧
      (∀ i : Nat,
        let before := calls.take i
        let now := Call.surroundingsAfter gauge s before
        replies[i]? = calls[i]?.map
            (Call.answer gauge configured.2 (before.any Call.needsGauge) now) ∧
          now.tree = Call.treeAfter s.tree before ∧
          now.feed.frames = Call.framesAfter s.feed.frames before) ∧
      ∀ (i j : Nat) (first second : Log),
        calls[i]? = some .register → calls[j]? = some .register →
          replies[i]? = some (.flag true, first) → replies[j]? = some (.flag true, second) →
            i = j := by
  intro configured replies
  obtain ⟨gauge, hbuild, hselection⟩ :=
    (Settings.usable_default.applyEnvironment (Call.environmentAtSetUp e calls)).exists_build
  have hreplies : ∀ i : Nat, replies[i]? = calls[i]?.map
      (Call.answer gauge configured.2 ((calls.take i).any Call.needsGauge)
        (Call.surroundingsAfter gauge s (calls.take i))) := by
    intro i
    have hnone : (⟨none, e, s⟩ : Host).gauge? = if false then some gauge else none := rfl
    have h := getElem?_run hnone (fun _ => setUp_of_build hbuild) i
    rwa [Bool.false_or] at h
  refine ⟨gauge, hbuild, hselection, ?_, ?_⟩
  · intro i before now
    exact ⟨hreplies i, Call.tree_surroundingsAfter _ _ _, Call.frames_surroundingsAfter _ _ _⟩
  · have hlater : ∀ {i j : Nat} {log : Log}, calls[i]? = some .register →
        calls[j]? = some .register → i < j → replies[j]? ≠ some (.flag true, log) := by
      intro i j log hi hj hij
      rw [hreplies j, hj, Call.any_needsGauge_take hi rfl hij]
      simp [Call.answer]
    intro i j first second hi hj hfirst hsecond
    rcases Nat.lt_trichotomy i j with hij | hij | hij
    · exact absurd hsecond (hlater hi hj hij)
    · exact hij
    · exact absurd hfirst (hlater hj hi hij)

end Host

end ThermalGauge
