import ThermalGauge.Proofs.Cooling.Edits

/-!
# What a sample depends on

A sample is the greatest share that is shown, and depends on nothing else.  What is added to a
tree never lowers it.  What is changed leaves it alone, or raises it, if the devices other than
the one that is changed are not looked at through the change.  They can be: a link leads from one
device into the other.
-/

namespace ThermalGauge

namespace Cooling

open FileTree

/-- The load is the greatest share that a usable device shows, and missing if there is none.  It
is the same where the same is shown and not lower where at least as much is shown, so it is not
lowered by additions, nor by steps taken, and stays the same with changes where no usable device
is looked at and with a new name for a device that is looked at through its name alone. -/
theorem sample_greatest_shown (t : FileTree) (root : Path) :
    (sample t root = .error (.noSensors sourceName) ↔
      ∀ device ∈ devices t root, steps? t device = none) ∧
    ((∃ device ∈ devices t root, steps? t device ≠ none) → ∃ load, sample t root = .ok load ∧
      (∃ device ∈ devices t root, ∃ s, steps? t device = some s ∧ s.share = load.percent) ∧
      ∀ device ∈ devices t root, ∀ s, steps? t device = some s → s.share ≤ load.percent) ∧
    (∀ t' root', (∀ s, Shows t root s ↔ Shows t' root' s) → sample t' root' = sample t root) ∧
    (∀ t' root', (∀ s, Shows t root s → ∃ s', Shows t' root' s' ∧ s.Raised s') →
      NotLowered (sample t root) (sample t' root')) ∧
    (∀ t', t'.workingDirectory = t.workingDirectory →
      (∀ k e, t.entryAt? k = some e → t'.entryAt? k = some e) →
      NotLowered (sample t root) (sample t' root)) ∧
    (∀ t', (∀ name s, IsUsable t root name s → Untouched t t' root name) →
      (∀ name s, IsUsable t' root name s → Untouched t' t root name) →
      sample t' root = sample t root) ∧
    (∀ t', (∀ name s, IsUsable t root name s →
        Untouched t t' root name ∨ ∃ s', IsUsable t' root name s' ∧ s.Raised s') →
      NotLowered (sample t root) (sample t' root)) ∧
    ∀ t' name name' l, t.resolve (scannedPath root) = .ok (.directory l) →
      name ≠ name' → Moved t t' (name :: l) (name' :: l) → Fits root name → Fits root name' →
      Apart t root name l → Apart t' root name' l → sample t' root = sample t root := by
  refine ⟨?_, ?_, ?_, ?_, ?_, ?_, ?_, ?_⟩
  · rw [sample_eq_error_iff]
    constructor
    · intro h device hdevice
      rw [Option.eq_none_iff_forall_ne_some]
      exact fun s hs => h s ⟨device, hdevice, hs⟩
    · rintro h s ⟨device, hdevice, hs⟩
      rw [h device hdevice] at hs
      cases hs
  · rintro ⟨device, hdevice, husable⟩
    obtain ⟨s, hs⟩ := Option.ne_none_iff_exists'.mp husable
    obtain ⟨load, hload⟩ := exists_sample_eq_ok ⟨device, hdevice, hs⟩
    obtain ⟨⟨s', ⟨device', hdevice', hs'⟩, hshare⟩, hgreatest⟩ := sample_eq_ok_iff.mp hload
    refine ⟨load, hload, ⟨device', hdevice', s', hs', hshare⟩, ?_⟩
    intro other hother s hs
    exact hgreatest s ⟨other, hother, hs⟩
  · intro t' root'
    exact sample_congr
  · intro t' root'
    exact sample_notLowered
  · intro t'
    exact sample_notLowered_of_added
  · intro t'
    exact sample_of_untouched
  · intro t'
    exact sample_notLowered_of_raised
  · intro t' name name' l
    exact sample_of_renamed

section Linked

def here : Path := ⟨Path.dot⟩

def fan : Path := .ofText "cooling_device0"

def cap : Path := .ofText "cooling_device1"

def pump : Path := .ofText "cooling_device2"

/-- The fan is a link to a directory elsewhere, the cap a directory. -/
def plain : FileTree := .ofEdits
  [.device (.ofText "devices/fan") (some (Utf8.encode "3")) (some (Utf8.encode "4")),
    .link fan (.ofText "devices/fan"),
    .device cap (some (Utf8.encode "1")) (some (Utf8.encode "2"))]

/-- There is no pump yet. -/
theorem free_pump (k : Location) (hk : (pump.octets :: home) <:+ k) : plain.entryAt? k = none := by
  have hall : ∀ e ∈ plain.entries, ¬ (pump.octets :: home) <:+ e.1 := by decide +kernel
  rw [entryAt?, Option.map_eq_none_iff, List.find?_eq_none]
  intro e he heq
  rw [beq_iff_eq] at heq
  exact hall e he (heq ▸ hk)

/-- A fan that is made a pump. -/
theorem sample_greatest_shown_plain :
    sample (plain.apply (.rename fan pump)) here = sample plain here := by
  have hne : fan.octets ≠ pump.octets := by decide +kernel
  have haway : ¬ (pump.octets :: home) <:+ plain.workingDirectory := by decide +kernel
  have hmoved : Moved plain (plain.apply (.rename fan pump)) (fan.octets :: home)
      (pump.octets :: home) :=
    moved_rename hne (by decide +kernel) (by decide +kernel) (by decide +kernel) haway free_pump
  have hfits : Fits here fan.octets :=
    ⟨by decide +kernel, by decide +kernel, by decide +kernel, by decide +kernel⟩
  have hfits' : Fits here pump.octets :=
    ⟨by decide +kernel, by decide +kernel, by decide +kernel, by decide +kernel⟩
  have hapart : Apart plain here fan.octets home := by
    refine .of_names rfl (by decide +kernel) ?_ ?_ <;> intro part <;> cases part <;>
      decide +kernel
  have hapart' : Apart (plain.apply (.rename fan pump)) here pump.octets home := by
    refine .of_names rfl (by decide +kernel) ?_ ?_ <;> intro part <;> cases part <;>
      decide +kernel
  exact (sample_greatest_shown plain here).2.2.2.2.2.2.2 _ _ _ _ rfl hne hmoved hfits hfits'
    hapart hapart'

/-- The cap has as many steps as the fan has taken. -/
def crossed : FileTree := .ofEdits
  [.device fan (some (Utf8.encode "1")) (some (Utf8.encode "100")),
    .file (currentState cap) (Utf8.encode "1"),
    .link (maxState cap) (.ofText "../cooling_device0/cur_state")]

/-- The fan has as many steps as the cap, but there is no cap. -/
def lent : FileTree := .ofEdits
  [.file (currentState fan) (Utf8.encode "3"),
    .link (maxState fan) (.ofText "../cooling_device1/max_state")]

/-- The cap tells only how many steps it has. -/
def borrowed : FileTree := lent.apply (.device cap none (some (Utf8.encode "4")))

/-- The number of the fan's steps stands in a file that belongs to no device. -/
def shared : FileTree := .ofEdits
  [.file (currentState fan) (Utf8.encode "3"), .link (maxState fan) (.ofText "../limit"),
    .file (.ofText "limit") (Utf8.encode "4")]

/-- Where links lead from one device into another, steps taken can lower the load, and a new
name, an unusable device more or less and a write to some other file can change it. -/
theorem laws_fail_across_links :
    (¬ ∀ (t : FileTree) (root device : Path) (content : Octets) (s s' : Steps),
      device ∈ devices t root → steps? t device = some s →
      steps? (t.apply (.file (currentState device) content)) device = some s' → s.Raised s' →
      NotLowered (sample t root)
        (sample (t.apply (.file (currentState device) content)) root)) ∧
    (¬ ∀ (t : FileTree) (root source target : Path), source ∈ devices t root →
      target ∉ devices t root → target ∈ devices (t.apply (.rename source target)) root →
      sample (t.apply (.rename source target)) root = sample t root) ∧
    (¬ ∀ (t : FileTree) (root device : Path) (current max : Option Octets),
      device ∉ devices t root → steps? (t.apply (.device device current max)) device = none →
      sample (t.apply (.device device current max)) root = sample t root) ∧
    (¬ ∀ (t : FileTree) (root device : Path), device ∈ devices t root →
      steps? t device = none → sample (t.apply (.remove device)) root = sample t root) ∧
    ¬ ∀ (t : FileTree) (root file : Path) (content : Octets),
      (∀ device ∈ devices t root, file ≠ currentState device ∧ file ≠ maxState device) →
      sample (t.apply (.file file content)) root = sample t root := by
  refine ⟨?_, ?_, ?_, ?_, ?_⟩
  · intro h
    have hfan : fan ∈ devices crossed here := (found_perm _ _).mem_iff.mp (by decide +kernel)
    have hbefore : sample crossed here = .ok .full := sample_eq_of_found (by decide +kernel)
    have hafter : sample (crossed.apply (.file (currentState fan) (Utf8.encode "2"))) here =
        .ok (.atMost 50) := sample_eq_of_found (by decide +kernel)
    obtain ⟨load, hload, hle⟩ := h crossed here fan (Utf8.encode "2") ⟨1, 100, by decide⟩
      ⟨2, 100, by decide⟩ hfan (by decide +kernel) (by decide +kernel) ⟨rfl, by decide⟩ _ hbefore
    rw [hafter] at hload
    cases hload
    revert hle
    decide
  · intro h
    have hfan : fan ∈ devices crossed here := (found_perm _ _).mem_iff.mp (by decide +kernel)
    have hfree : pump ∉ devices crossed here :=
      (found_perm _ _).mem_iff.not.mp (by decide +kernel)
    have hpump : pump ∈ devices (crossed.apply (.rename fan pump)) here :=
      (found_perm _ _).mem_iff.mp (by decide +kernel)
    exact sample_ne_of_found (by decide +kernel) (h crossed here fan pump hfan hfree hpump)
  · intro h
    have hcap : cap ∉ devices lent here := (found_perm _ _).mem_iff.not.mp (by decide +kernel)
    exact sample_ne_of_found (by decide +kernel)
      (h lent here cap none (some (Utf8.encode "4")) hcap (by decide +kernel))
  · intro h
    have hcap : cap ∈ devices borrowed here := (found_perm _ _).mem_iff.mp (by decide +kernel)
    exact sample_ne_of_found (by decide +kernel) (h borrowed here cap hcap (by decide +kernel))
  · intro h
    let limit := Path.ofText "limit"
    have helsewhere : ∀ device ∈ found shared here,
        limit ≠ currentState device ∧ limit ≠ maxState device := by decide +kernel
    exact sample_ne_of_found (by decide +kernel) (h shared here limit (Utf8.encode "6")
      fun device hdevice => helsewhere device ((found_perm _ _).mem_iff.mpr hdevice))

end Linked

end Cooling

end ThermalGauge
