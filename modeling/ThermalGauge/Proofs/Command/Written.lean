import ThermalGauge.Command.Parse
import ThermalGauge.Proofs.Results
import ThermalGauge.Text.Utf8.Lemmas

/-!
# Options written with their values

An option can have its value in the same argument, behind an equals sign.  There is none in a name,
so the first one ends the name, and the option is given what it was written with, whatever that is.
-/

namespace ThermalGauge

namespace Command

/-- An argument that gives an option its value. -/
def written (o : Opt) (value : Octets) : Octets := Utf8.encode ("--" ++ o.long ++ "=") ++ value

theorem Opt.ofLong?_long (o : Opt) : ofLong? o.long = some o := by cases o <;> decide

theorem Opt.equalsSign_notMem_encode_long (o : Opt) :
    Progress.equalsSign ∉ Utf8.encode o.long := by
  cases o <;> decide

namespace Progress

variable {p p' : Progress} {o : Opt} {value : Octets}

theorem cutValue_append {name : Octets} (h : equalsSign ∉ name) (value : Octets) :
    cutValue (name ++ equalsSign :: value) = (name, some value) := by
  have hname : ∀ b ∈ name, (b != equalsSign) = true := by
    intro b hb
    rw [bne_iff_ne]
    rintro rfl
    exact h hb
  rw [cutValue, List.dropWhile_append_of_pos hname, List.takeWhile_append_of_pos hname]
  simp

theorem readLong_written (p : Progress) (ho : o.takesValue = true) (value : Octets) :
    p.readLong (Utf8.encode o.long ++ equalsSign :: value) = p.give o value := by
  rw [readLong, cutValue_append o.equalsSign_notMem_encode_long]
  simp only [Utf8.decode?_encode, Option.bind_some, Opt.ofLong?_long, ho]

theorem store_eq_ok_iff :
    p.store o value = .ok p' ↔ o ∉ p.given ∧ ∃ arguments,
      assign p.arguments o value = .ok arguments ∧
        { p with arguments, given := o :: p.given } = p' := by
  unfold store
  split
  · next h => simp [h]
  · next h => simp [h, map_eq_ok_iff]

theorem readWith_eq_ok_iff {α : Type} {read : String → Except ValueRefusal α} {text : String}
    {value : α} : readWith o read (Utf8.encode text) = .ok value ↔ read text = .ok value := by
  rw [readWith, Utf8.decode?_encode]
  cases h : read text <;> simp [h]

end Progress

end Command

end ThermalGauge
