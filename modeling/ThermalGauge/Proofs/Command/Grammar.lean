import ThermalGauge.Proofs.Command.Written

/-!
# How arguments are written

An argument gives options their values, or leaves an option waiting for the argument behind it.
Which options an argument mentions can be told from this argument alone: a value that stands by
itself has no dash in front, and so it mentions none.
-/

namespace ThermalGauge

namespace Command

open Progress (dash equalsSign)

/-- The option by its long name. -/
def Opt.longArgument (o : Opt) : Octets := dash :: dash :: Utf8.encode o.long

/-- An argument that can be a value: it has no dash in front, or it is a dash. -/
def IsPlain (argument : Octets) : Prop := argument.head? = some dash → argument = [dash]

/-- The letters behind a dash, the values that they give, and the option that they leave waiting.
The first option that takes a value has the rest of the letters for it, if there are any. -/
inductive Letters : List (Opt × Octets) → Option Opt → Octets → Prop
  | nil : Letters [] none []
  | switch {o c given waiting letters} (letter : o.short? = some c) (bare : o.takesValue = false)
      (rest : Letters given waiting letters) :
      Letters ((o, []) :: given) waiting (Utf8.encodeChar c ++ letters)
  | attached {o c value} (letter : o.short? = some c) (takes : o.takesValue = true)
      (nonempty : value ≠ []) (unsigned : value.head? ≠ some equalsSign) :
      Letters [(o, value)] none (Utf8.encodeChar c ++ value)
  | joined {o c} (letter : o.short? = some c) (takes : o.takesValue = true) (value : Octets) :
      Letters [(o, value)] none (Utf8.encodeChar c ++ equalsSign :: value)
  | waiting {o c} (letter : o.short? = some c) (takes : o.takesValue = true) :
      Letters [] (some o) (Utf8.encodeChar c)

/-- One argument, the values that it gives, and the option that it leaves waiting. -/
inductive Gives : List (Opt × Octets) → Option Opt → Octets → Prop
  | switch {o} (bare : o.takesValue = false) : Gives [(o, [])] none o.longArgument
  | joined {o} (takes : o.takesValue = true) (value : Octets) :
      Gives [(o, value)] none (o.longArgument ++ equalsSign :: value)
  | waiting {o} (takes : o.takesValue = true) : Gives [] (some o) o.longArgument
  | letters {given waiting letters} (nonempty : letters ≠ [])
      (reading : Letters given waiting letters) : Gives given waiting (dash :: letters)

/-- Arguments and the values that they give, in order.  Two dashes can stand at the end. -/
inductive Reads : List (Opt × Octets) → List Octets → Prop
  | nil : Reads [] []
  | mark : Reads [] [[dash, dash]]
  | closed {given given' argument arguments} (first : Gives given none argument)
      (rest : Reads given' arguments) : Reads (given ++ given') (argument :: arguments)
  | valued {given given' o argument value arguments} (first : Gives given (some o) argument)
      (plain : IsPlain value) (rest : Reads given' arguments) :
      Reads (given ++ (o, value) :: given') (argument :: value :: arguments)

/-- The options that are mentioned by letters behind a dash. -/
def mentionedByLetters : Octets → List Opt
  | [] => []
  | b :: letters => match Opt.ofShort? (.ofNat b.toNat) with
    | none => []
    | some o => if o.takesValue then [o] else o :: mentionedByLetters letters

/-- The options that one argument mentions. -/
def mentionedBy : Octets → List Opt
  | 0x2D :: 0x2D :: body => Opt.all.filter fun o =>
    body == Utf8.encode o.long || (Utf8.encode o.long ++ [equalsSign]).isPrefixOf body
  | 0x2D :: letters => mentionedByLetters letters
  | _ => []

/-- The options that are mentioned, as often as they are mentioned. -/
def mentions (arguments : List Octets) : List Opt := arguments.flatMap mentionedBy

variable {o o' : Opt} {c : Char} {given given' : List (Opt × Octets)} {waiting : Option Opt}
  {letters value argument body name : Octets} {arguments : List Octets}

theorem Opt.ofShort?_eq_some_iff : ofShort? c = some o ↔ o.short? = some c := by
  constructor
  · intro h
    simpa using List.find?_some h
  · intro h
    cases o <;> cases h <;> decide

theorem Opt.ofLong?_eq_some_iff {s : String} : ofLong? s = some o ↔ s = o.long := by
  constructor
  · intro h
    have hlong : o.long = s := by simpa using List.find?_some h
    exact hlong.symm
  · rintro rfl
    exact ofLong?_long o

theorem Opt.encodeChar_short (h : o.short? = some c) :
    ∃ b : UInt8, Utf8.encodeChar c = [b] ∧ Char.ofNat b.toNat = c ∧ b ≠ dash := by
  cases o <;> cases h <;> exact ⟨_, rfl, by decide, by decide⟩

theorem Opt.encode_long_injective (h : Utf8.encode o.long = Utf8.encode o'.long) : o = o' := by
  rw [← Option.some.injEq, ← ofLong?_long o, ← ofLong?_long o', Utf8.encode_inj.mp h]

theorem Opt.encode_long_ne_nil (o : Opt) : Utf8.encode o.long ≠ [] := by cases o <;> decide

theorem mentionedByLetters_append (h : o.short? = some c) (letters : Octets) :
    mentionedByLetters (Utf8.encodeChar c ++ letters) =
      if o.takesValue then [o] else o :: mentionedByLetters letters := by
  obtain ⟨b, hencode, hb, -⟩ := Opt.encodeChar_short h
  simp only [hencode, List.singleton_append, mentionedByLetters, hb, Opt.ofShort?_eq_some_iff.mpr h]

theorem Letters.mentionedByLetters_eq (h : Letters given waiting letters) :
    mentionedByLetters letters = given.map Prod.fst ++ waiting.toList := by
  induction h with
  | nil => rfl
  | switch letter bare rest ih =>
      rw [mentionedByLetters_append letter, bare, ih]
      rfl
  | attached letter takes | joined letter takes =>
      rw [mentionedByLetters_append letter, takes]
      rfl
  | waiting letter takes =>
      rw [← List.append_nil (Utf8.encodeChar _), mentionedByLetters_append letter, takes]
      rfl

theorem Letters.head?_ne_dash (h : Letters given waiting letters) : letters.head? ≠ some dash := by
  cases h with
  | nil => simp
  | switch letter | attached letter | joined letter | waiting letter =>
      obtain ⟨b, hencode, -, hb⟩ := Opt.encodeChar_short letter
      simpa [hencode] using hb

theorem mentionedBy_longArgument (o : Opt) : mentionedBy o.longArgument = [o] := by
  cases o <;> decide

theorem mentionedBy_joined (o : Opt) (value : Octets) :
    mentionedBy (o.longArgument ++ equalsSign :: value) = [o] := by
  let body := Utf8.encode o.long ++ equalsSign :: value
  have hname : ∀ o', (body == Utf8.encode o'.long ||
      (Utf8.encode o'.long ++ [equalsSign]).isPrefixOf body) = decide (o' = o) := by
    intro o'
    rw [Bool.eq_iff_iff, Bool.or_eq_true, beq_iff_eq, List.isPrefixOf_iff_prefix,
      decide_eq_true_iff]
    constructor
    · rintro (hbody | ⟨rest, hbody⟩)
      · have hsign : equalsSign ∈ Utf8.encode o'.long := hbody ▸ by simp [body]
        exact absurd hsign o'.equalsSign_notMem_encode_long
      · have hcut := congrArg Progress.cutValue hbody
        simp only [body, List.append_assoc, List.singleton_append,
          Progress.cutValue_append (Opt.equalsSign_notMem_encode_long _), Prod.mk.injEq] at hcut
        exact Opt.encode_long_injective hcut.1
    · rintro rfl
      exact .inr ⟨value, by simp [body]⟩
  calc
    mentionedBy (o.longArgument ++ equalsSign :: value) =
        Opt.all.filter fun o' => decide (o' = o) := List.filter_congr fun o' _ => hname o'
    _ = [o] := by cases o <;> decide

theorem mentionedBy_letters (h : letters.head? ≠ some dash) :
    mentionedBy (dash :: letters) = mentionedByLetters letters := by
  rw [dash] at h ⊢
  unfold mentionedBy
  split
  · next hcase =>
    cases hcase
    exact absurd rfl h
  · next hcase =>
    cases hcase
    rfl
  · next hnone => exact absurd rfl (hnone letters)

theorem IsPlain.mentionedBy_eq (h : IsPlain argument) : mentionedBy argument = [] := by
  unfold mentionedBy
  split
  · cases h rfl
  · cases h rfl
    rfl
  · rfl

theorem Gives.mentionedBy_eq (h : Gives given waiting argument) :
    mentionedBy argument = given.map Prod.fst ++ waiting.toList := by
  cases h with
  | switch => exact mentionedBy_longArgument _
  | joined _ value => exact mentionedBy_joined _ value
  | waiting => exact mentionedBy_longArgument _
  | letters _ reading =>
      rw [mentionedBy_letters reading.head?_ne_dash, reading.mentionedByLetters_eq]

theorem Reads.mentions_eq (h : Reads given arguments) :
    mentions arguments = given.map Prod.fst := by
  induction h with
  | nil => rfl
  | mark => decide
  | closed first rest ih =>
      rw [mentions] at ih
      rw [mentions, List.flatMap_cons, first.mentionedBy_eq, ih]
      simp
  | valued first plain rest ih =>
      rw [mentions] at ih
      rw [mentions, List.flatMap_cons, List.flatMap_cons, first.mentionedBy_eq,
        plain.mentionedBy_eq, ih]
      simp

/-- Written arguments give what they were written from. -/
theorem reads_map_written (h : ∀ g ∈ given, g.1.takesValue = true) :
    Reads given (given.map fun g => written g.1 g.2) := by
  induction given with
  | nil => exact .nil
  | cons g given ih =>
      obtain ⟨takes, hrest⟩ := List.forall_mem_cons.mp h
      have hwritten : written g.1 g.2 = g.1.longArgument ++ equalsSign :: g.2 := by
        cases g.1 <;> rfl
      rw [List.map_cons, hwritten]
      exact .closed (.joined takes g.2) (ih hrest)

end Command

end ThermalGauge
