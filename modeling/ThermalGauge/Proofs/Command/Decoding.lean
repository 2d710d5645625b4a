import ThermalGauge.Proofs.Command.Grammar
import ThermalGauge.Proofs.Command.Values

/-!
# Arguments that are accepted

What is read from arguments is told by their grammar: the values that they give are stored in order.
A value that is pending is stored later than it is met, which makes no difference to what is
accepted.  As each option is stored once at most, accepted arguments mention it once at most.
-/

namespace ThermalGauge

namespace Command

namespace Progress

/-- The option, if there is one, is the last that was met, and its value is not there yet. -/
def expecting (p : Progress) (waiting : Option Opt) : Progress :=
  { p with pending := waiting.map fun o => (o, none) }

/-- The option is the last that was met, and its value has not been looked into. -/
def holding (p : Progress) (o : Opt) (value : Octets) : Progress :=
  { p with pending := some (o, some value) }

variable {p p' q : Progress} {o : Opt} {c : Char} {waiting : Option Opt} {fuel : Nat}
  {value body letters argument : Octets} {given : List (Opt × Octets)} {arguments : List Octets}

section Settling

theorem pending_of_store (h : p.store o value = .ok p') : p'.pending = p.pending := by
  obtain ⟨-, _, -, rfl⟩ := store_eq_ok_iff.mp h
  rfl

theorem settle_of_pending (hp : p.pending = none) : p.settle = .ok p := by
  rw [settle, hp]

theorem pending_of_settle (h : p.settle = .ok q) : q.pending = none := by
  unfold settle at h
  split at h
  · next hp => cases h; exact hp
  · cases h
  · exact pending_of_store h

theorem expecting_none (hp : p.pending = none) : p.expecting none = p := by
  cases p
  cases hp
  rfl

theorem settle_holding (hp : p.pending = none) : (p.holding o value).settle = p.store o value := by
  cases p
  cases hp
  rfl

theorem give_of_pending (hp : p.pending = none) : p.give o value = p.store o value := by
  rw [give, settle_of_pending hp]
  rfl

theorem await_of_pending (hp : p.pending = none) : p.await o = .ok (p.expecting (some o)) := by
  rw [await, settle_of_pending hp]
  rfl

theorem give_eq_ok_iff_settle :
    p.give o value = .ok p' ↔ ∃ q, p.settle = .ok q ∧ q.give o value = .ok p' := by
  rw [give, bind_eq_ok_iff]
  refine exists_congr fun q => and_congr_right fun hq => ?_
  rw [give_of_pending (pending_of_settle hq)]

theorem await_eq_ok_iff_settle :
    p.await o = .ok p' ↔ ∃ q, p.settle = .ok q ∧ q.await o = .ok p' := by
  rw [await, bind_eq_ok_iff]
  refine exists_congr fun q => and_congr_right fun hq => ?_
  rw [await_of_pending (pending_of_settle hq)]
  rfl

theorem settle_eq_ok_iff_settle :
    p.settle = .ok p' ↔ ∃ q, p.settle = .ok q ∧ q.settle = .ok p' := by
  constructor
  · intro h
    exact ⟨p', h, settle_of_pending (pending_of_settle h)⟩
  · rintro ⟨q, hq, h⟩
    rw [settle_of_pending (pending_of_settle hq)] at h
    rw [hq, h]

/-- If it makes no difference to the first of two stages, it makes none to both of them. -/
theorem bind_eq_ok_iff_settle (first rest : Progress → Except Stop Progress)
    (hfirst : ∀ p₁, first p = .ok p₁ ↔ ∃ q, p.settle = .ok q ∧ first q = .ok p₁) :
    first p >>= rest = .ok p' ↔ ∃ q, p.settle = .ok q ∧ first q >>= rest = .ok p' := by
  constructor
  · intro h
    obtain ⟨p₁, hp₁, h⟩ := bind_eq_ok_iff.mp h
    obtain ⟨q, hq, hp₁⟩ := (hfirst p₁).mp hp₁
    exact ⟨q, hq, bind_eq_ok_iff.mpr ⟨p₁, hp₁, h⟩⟩
  · rintro ⟨q, hq, h⟩
    obtain ⟨p₁, hp₁, h⟩ := bind_eq_ok_iff.mp h
    exact bind_eq_ok_iff.mpr ⟨p₁, (hfirst p₁).mpr ⟨q, hq, hp₁⟩, h⟩

end Settling

section Long

theorem cutValue_of_notMem (h : equalsSign ∉ body) : cutValue body = (body, none) := by
  have hbody : ∀ b ∈ body, (b != equalsSign) = true := by
    intro b hb
    rw [bne_iff_ne]
    rintro rfl
    exact h hb
  rw [cutValue, List.dropWhile_eq_nil_iff.mpr hbody]

theorem cutValue_cases (body : Octets) :
    cutValue body = (body, none) ∨
      ∃ name value, body = name ++ equalsSign :: value ∧ cutValue body = (name, some value) := by
  unfold cutValue
  split
  · exact .inl rfl
  · next b value hdrop =>
    have hsign : b = equalsSign := by
      have hstop := head?_dropWhile_eq_false (p := (· != equalsSign)) body b (by rw [hdrop]; rfl)
      simpa using hstop
    refine .inr ⟨body.takeWhile (· != equalsSign), value, ?_, rfl⟩
    rw [← hsign, ← hdrop, hsign, List.takeWhile_append_dropWhile]

theorem longName_eq_some_iff {name : Octets} :
    (Utf8.decode? name).bind Opt.ofLong? = some o ↔ name = Utf8.encode o.long := by
  simp only [Option.bind_eq_some_iff, Utf8.decode?_eq_some_iff, Opt.ofLong?_eq_some_iff,
    exists_eq_right]

theorem readLong_name (p : Progress) (o : Opt) :
    p.readLong (Utf8.encode o.long) = if o.takesValue then p.await o else p.give o [] := by
  rw [readLong, cutValue_of_notMem o.equalsSign_notMem_encode_long]
  simp only [longName_eq_some_iff.mpr rfl]
  cases o.takesValue <;> rfl

theorem exists_gives_of_readLong (h : p.readLong body = .ok p') :
    ∃ given waiting, Gives given waiting (dash :: dash :: body) := by
  unfold readLong at h
  rcases cutValue_cases body with hcut | ⟨name, value, rfl, hcut⟩
  · rw [hcut] at h
    dsimp only at h
    split at h
    · cases h
    · next o ho =>
      obtain rfl := longName_eq_some_iff.mp ho
      cases htakes : o.takesValue with
      | true => exact ⟨_, _, .waiting htakes⟩
      | false => exact ⟨_, _, .switch htakes⟩
  · rw [hcut] at h
    dsimp only at h
    split at h
    · cases h
    · next o ho =>
      obtain rfl := longName_eq_some_iff.mp ho
      cases htakes : o.takesValue with
      | true => exact ⟨_, _, .joined htakes value⟩
      | false =>
          rw [htakes] at h
          cases h

theorem readLong_eq_ok_iff_settle :
    p.readLong body = .ok p' ↔ ∃ q, p.settle = .ok q ∧ q.readLong body = .ok p' := by
  unfold readLong
  dsimp only
  split
  · simp
  · next o ho =>
    split
    · exact give_eq_ok_iff_settle
    · exact await_eq_ok_iff_settle
    · simp
    · exact give_eq_ok_iff_settle

end Long

section Short

theorem readShort_append (p : Progress) (hletter : o.short? = some c) (fuel : Nat)
    (letters : Octets) :
    p.readShort (fuel + 1) (Utf8.encodeChar c ++ letters) =
      if o.takesValue then
        if letters.isEmpty then p.await o else p.give o (attached letters)
      else p.give o [] >>= fun p => p.readShort fuel letters := by
  obtain ⟨b, hencode, -, -⟩ := Opt.encodeChar_short hletter
  have hpieces : Utf8.pieces (Utf8.encodeChar c ++ letters) = .char c :: Utf8.pieces letters :=
    Utf8.pieces_eq_char_cons_iff.mpr ⟨letters, rfl, rfl⟩
  have hlength : (Utf8.encode c.toString).length = 1 := by
    simp [Utf8.encode, Char.toString, hencode]
  rw [hencode, List.singleton_append] at hpieces ⊢
  rw [readShort, hpieces]
  simp only [Opt.ofShort?_eq_some_iff.mpr hletter, hlength, List.drop_succ_cons, List.drop_zero]
  · split
    · rfl
    · cases p.give o [] <;> rfl
  · exact List.cons_ne_nil b letters

theorem exists_fuel (hletter : o.short? = some c)
    (hfuel : (Utf8.encodeChar c ++ letters).length ≤ fuel) :
    ∃ rest, fuel = rest + 1 ∧ letters.length ≤ rest := by
  obtain ⟨b, hencode, -, -⟩ := Opt.encodeChar_short hletter
  rw [hencode, List.length_append, List.length_singleton] at hfuel
  exact ⟨fuel - 1, by omega, by omega⟩

/-- Letters that are read begin with that of an option. -/
theorem exists_letter_of_readShort (hne : letters ≠ [])
    (h : p.readShort (fuel + 1) letters = .ok p') :
    ∃ o c rest, Opt.short? o = some c ∧ letters = Utf8.encodeChar c ++ rest := by
  rw [readShort] at h
  · split at h
    · next c ps hpieces =>
      obtain ⟨rest, rfl, -⟩ := Utf8.pieces_eq_char_cons_iff.mp hpieces
      dsimp only at h
      split at h
      · cases h
      · next o ho => exact ⟨o, c, rest, Opt.ofShort?_eq_some_iff.mp ho, rfl⟩
    · cases h
  · exact hne

theorem attached_joined (value : Octets) : attached (equalsSign :: value) = value := by
  simp [attached]

theorem attached_of_unsigned (h : value.head? ≠ some equalsSign) : attached value = value := by
  rcases value with _ | ⟨b, value⟩
  · rfl
  · have hb : b ≠ equalsSign := fun hb => h (congrArg some hb)
    simp [attached, hb]

theorem exists_letters_of_readShort (h : p.readShort fuel letters = .ok p')
    (hfuel : letters.length ≤ fuel) : ∃ given waiting, Letters given waiting letters := by
  induction fuel generalizing p letters with
  | zero =>
      obtain rfl := List.length_eq_zero_iff.mp (Nat.le_zero.mp hfuel)
      exact ⟨_, _, .nil⟩
  | succ fuel ih =>
      by_cases hne : letters = []
      · subst hne
        exact ⟨_, _, .nil⟩
      · obtain ⟨o, c, rest, hletter, rfl⟩ := exists_letter_of_readShort hne h
        rw [readShort_append p hletter] at h
        cases htakes : o.takesValue with
        | true =>
            by_cases hrest : rest = []
            · subst hrest
              rw [List.append_nil]
              exact ⟨_, _, .waiting hletter htakes⟩
            · by_cases hsign : rest.head? = some equalsSign
              · obtain ⟨value, rfl⟩ := List.head?_eq_some_iff.mp hsign
                exact ⟨_, _, .joined hletter htakes value⟩
              · exact ⟨_, _, .attached hletter htakes hrest hsign⟩
        | false =>
            rw [htakes, if_neg Bool.false_ne_true, bind_eq_ok_iff] at h
            obtain ⟨p₁, -, h⟩ := h
            obtain ⟨_, hsucc, hfuel⟩ := exists_fuel hletter hfuel
            cases hsucc
            obtain ⟨given, waiting, hrest⟩ := ih h hfuel
            exact ⟨_, _, .switch hletter htakes hrest⟩

theorem map_expecting_none (hp : p.pending = none) (given : List (Opt × Octets)) :
    (p.storeAll given).map (fun p => p.expecting none) = p.storeAll given := by
  cases h : p.storeAll given with
  | error stop => rfl
  | ok q => exact congrArg Except.ok (expecting_none ((storeAll_eq_ok_iff.mp h).pending.trans hp))

theorem readShort_of_takesValue (hp : p.pending = none) (hletter : o.short? = some c)
    (htakes : o.takesValue = true) (hne : letters ≠ []) (fuel : Nat) :
    p.readShort (fuel + 1) (Utf8.encodeChar c ++ letters) = p.storeAll [(o, attached letters)] := by
  rw [readShort_append p hletter, htakes, if_pos rfl, List.isEmpty_eq_false_iff.mpr hne,
    if_neg Bool.false_ne_true, give_of_pending hp, storeAll_singleton]

theorem readShort_eq_of_letters (h : Letters given waiting letters) (hp : p.pending = none)
    (hfuel : letters.length ≤ fuel) :
    p.readShort fuel letters = (p.storeAll given).map fun p => p.expecting waiting := by
  induction h generalizing p fuel with
  | nil =>
      have hread : p.readShort fuel [] = .ok p := by rw [readShort]
      rw [hread, storeAll_nil, Except.map, expecting_none hp]
  | @switch o c given waiting letters letter bare rest ih =>
      obtain ⟨fuel, rfl, hrest⟩ := exists_fuel letter hfuel
      rw [readShort_append p letter, bare, if_neg Bool.false_ne_true, give_of_pending hp,
        storeAll_cons]
      cases hstore : p.store o [] with
      | error stop => rfl
      | ok p₁ => exact ih ((pending_of_store hstore).trans hp) hrest
  | @attached o c value letter takes nonempty unsigned =>
      obtain ⟨fuel, rfl, -⟩ := exists_fuel letter hfuel
      rw [readShort_of_takesValue hp letter takes nonempty, attached_of_unsigned unsigned,
        map_expecting_none hp]
  | joined letter takes value =>
      obtain ⟨fuel, rfl, -⟩ := exists_fuel letter hfuel
      rw [readShort_of_takesValue hp letter takes (List.cons_ne_nil _ _), attached_joined,
        map_expecting_none hp]
  | @waiting o c letter takes =>
      rw [← List.append_nil (Utf8.encodeChar c)] at hfuel ⊢
      obtain ⟨fuel, rfl, -⟩ := exists_fuel letter hfuel
      rw [readShort_append p letter, takes, if_pos rfl, List.isEmpty_nil, if_pos rfl,
        await_of_pending hp]
      rfl

theorem readShort_eq_ok_iff_settle (hne : letters ≠ []) :
    p.readShort (fuel + 1) letters = .ok p' ↔
      ∃ q, p.settle = .ok q ∧ q.readShort (fuel + 1) letters = .ok p' := by
  by_cases hletter : ∃ o c rest, Opt.short? o = some c ∧ letters = Utf8.encodeChar c ++ rest
  · obtain ⟨o, c, rest, hletter, rfl⟩ := hletter
    simp only [readShort_append _ hletter]
    split
    · split
      · exact await_eq_ok_iff_settle
      · exact give_eq_ok_iff_settle
    · exact bind_eq_ok_iff_settle (fun p => p.give o []) (fun p => p.readShort fuel rest)
        fun _ => give_eq_ok_iff_settle
  · constructor
    · intro h
      exact absurd (exists_letter_of_readShort hne h) hletter
    · rintro ⟨q, -, h⟩
      exact absurd (exists_letter_of_readShort hne h) hletter

end Short

section All

theorem argument_cases (argument : Octets) :
    argument = [dash, dash] ∨ (∃ body, body ≠ [] ∧ argument = dash :: dash :: body) ∨
      (∃ letters, letters ≠ [] ∧ letters.head? ≠ some dash ∧ argument = dash :: letters) ∨
        IsPlain argument := by
  rcases argument with _ | ⟨first, letters⟩
  · exact .inr (.inr (.inr nofun))
  by_cases hfirst : first = dash
  · subst hfirst
    rcases letters with _ | ⟨second, body⟩
    · exact .inr (.inr (.inr fun _ => rfl))
    by_cases hsecond : second = dash
    · subst hsecond
      by_cases hbody : body = []
      · exact .inl (by rw [hbody])
      · exact .inr (.inl ⟨body, hbody, rfl⟩)
    · exact .inr (.inr (.inl ⟨_, List.cons_ne_nil _ _, by simpa using hsecond, rfl⟩))
  · exact .inr (.inr (.inr fun hhead => absurd (Option.some.inj hhead) hfirst))

@[simp] theorem readAll_nil (p : Progress) : p.readAll [] = p.settle := by rw [readAll]

@[simp] theorem readAll_mark (p : Progress) : p.readAll [[dash, dash]] = p.settle := by
  rw [dash, readAll]
  rfl

theorem readAll_mark_cons (p : Progress) (argument : Octets) (arguments : List Octets) :
    p.readAll ([dash, dash] :: argument :: arguments) = .error (unexpected argument) := by
  rw [dash, readAll]
  rfl

theorem readAll_long (p : Progress) (hne : body ≠ []) (arguments : List Octets) :
    p.readAll ((dash :: dash :: body) :: arguments) =
      p.readLong body >>= fun p => p.readAll arguments := by
  have hempty : ¬ body.isEmpty = true := mt List.isEmpty_iff.mp hne
  cases arguments with
  | nil =>
      rw [dash, readAll, if_neg hempty]
      cases p.readLong body <;> rfl
  | cons argument arguments =>
      rw [dash, readAll, if_neg hempty]
      cases p.readLong body <;> rfl

theorem readAll_letters (p : Progress) (hne : letters ≠ []) (hdash : letters.head? ≠ some dash)
    (arguments : List Octets) :
    p.readAll ((dash :: letters) :: arguments) =
      p.readShort letters.length letters >>= fun p => p.readAll arguments := by
  obtain ⟨letter, rest, rfl⟩ := List.exists_cons_of_ne_nil hne
  rw [dash, readAll]
  · rw [List.length_cons]
    cases p.readShort (rest.length + 1) (letter :: rest) <;> rfl
  · rintro rfl
    exact hdash rfl

theorem readAll_plain (p : Progress) (hplain : IsPlain argument) (arguments : List Octets) :
    p.readAll (argument :: arguments) =
      p.readPlain argument >>= fun p => p.readAll arguments := by
  rw [readAll]
  · cases p.readPlain argument <;> rfl
  · rintro body rfl
    cases hplain rfl
  · rintro letter letters rfl
    cases hplain rfl

/-- Apart from the mark, an argument that can be read is told from its front. -/
theorem readAll_of_gives (h : Gives given waiting argument) (hp : p.pending = none)
    (arguments : List Octets) :
    p.readAll (argument :: arguments) =
      p.storeAll given >>= fun p => (p.expecting waiting).readAll arguments := by
  have hnone (given : List (Opt × Octets)) :
      (p.storeAll given >>= fun p => (p.expecting none).readAll arguments) =
        p.storeAll given >>= fun p => p.readAll arguments := by
    calc
      _ = (p.storeAll given).map (fun p => p.expecting none) >>= fun p => p.readAll arguments := by
        cases p.storeAll given <;> rfl
      _ = _ := by rw [map_expecting_none hp]
  cases h with
  | @switch o bare =>
      rw [Opt.longArgument, readAll_long p o.encode_long_ne_nil, readLong_name, bare,
        if_neg Bool.false_ne_true, give_of_pending hp, hnone, storeAll_singleton]
  | @joined o takes value =>
      have hne : Utf8.encode o.long ++ equalsSign :: value ≠ [] := by simp
      rw [Opt.longArgument, List.cons_append, List.cons_append, readAll_long p hne,
        readLong_written p takes, give_of_pending hp, hnone, storeAll_singleton]
  | @waiting o takes =>
      rw [Opt.longArgument, readAll_long p o.encode_long_ne_nil, readLong_name, takes, if_pos rfl,
        await_of_pending hp]
      rfl
  | letters nonempty reading =>
      rw [readAll_letters p nonempty reading.head?_ne_dash,
        readShort_eq_of_letters reading hp (Nat.le_refl _)]
      cases p.storeAll given <;> rfl

theorem readPlain_ne_ok (h : ∀ o, p.pending ≠ some (o, none)) : p.readPlain argument ≠ .ok p' := by
  unfold readPlain
  split
  · next o hpending => exact absurd hpending (h o)
  · exact nofun

theorem readPlain_eq_ok_iff_settle (h : ∀ o, p.pending ≠ some (o, none)) :
    p.readPlain argument = .ok p' ↔ ∃ q, p.settle = .ok q ∧ q.readPlain argument = .ok p' := by
  constructor
  · intro hread
    exact absurd hread (readPlain_ne_ok h)
  · rintro ⟨q, hq, hread⟩
    exact absurd hread (readPlain_ne_ok fun o => by rw [pending_of_settle hq]; exact nofun)

/-- Unless an option waits for its value and finds it in front, it makes no difference to what is
accepted whether the value that is pending is stored before more is read. -/
theorem readAll_eq_ok_iff_settle
    (h : ∀ argument ∈ arguments.head?, IsPlain argument → ∀ o, p.pending ≠ some (o, none)) :
    p.readAll arguments = .ok p' ↔ ∃ q, p.settle = .ok q ∧ q.readAll arguments = .ok p' := by
  rcases arguments with _ | ⟨argument, arguments⟩
  · simpa only [readAll_nil] using settle_eq_ok_iff_settle
  rcases argument_cases argument with
    rfl | ⟨body, hne, rfl⟩ | ⟨letters, hne, hdash, rfl⟩ | hplain
  · cases arguments with
    | nil => simpa only [readAll_mark] using settle_eq_ok_iff_settle
    | cons argument arguments => simp [readAll_mark_cons]
  · simp only [readAll_long _ hne]
    exact bind_eq_ok_iff_settle (fun p => p.readLong body) _ fun _ => readLong_eq_ok_iff_settle
  · simp only [readAll_letters _ hne hdash]
    obtain ⟨letter, rest, rfl⟩ := List.exists_cons_of_ne_nil hne
    exact bind_eq_ok_iff_settle (fun p => p.readShort (rest.length + 1) (letter :: rest)) _
      fun _ => readShort_eq_ok_iff_settle hne
  · simp only [readAll_plain _ hplain]
    exact bind_eq_ok_iff_settle (fun p => p.readPlain argument) _
      fun _ => readPlain_eq_ok_iff_settle (h argument rfl hplain)

theorem readAll_expecting_of_isPlain (hplain : IsPlain value) :
    (p.expecting (some o)).readAll (value :: arguments) =
      (p.holding o value).readAll arguments := by
  rw [readAll_plain _ hplain]
  rfl

theorem readAll_holding_iff (hp : p.pending = none) :
    (p.holding o value).readAll arguments = .ok p' ↔
      ∃ q, p.store o value = .ok q ∧ q.readAll arguments = .ok p' := by
  have hvalue : ∀ o', (p.holding o value).pending ≠ some (o', none) := by simp [holding]
  rw [readAll_eq_ok_iff_settle fun _ _ _ => hvalue, settle_holding hp]

/-- An option that waits for its value is given one. -/
theorem exists_value_of_readAll (h : (p.expecting (some o)).readAll arguments = .ok p') :
    ∃ value rest, arguments = value :: rest ∧ IsPlain value := by
  by_contra hnone
  have hfirst : ∀ argument ∈ arguments.head?, IsPlain argument →
      ∀ o', (p.expecting (some o)).pending ≠ some (o', none) := by
    intro argument hhead hplain
    obtain ⟨rest, rfl⟩ := List.head?_eq_some_iff.mp hhead
    exact absurd ⟨argument, rest, rfl, hplain⟩ hnone
  obtain ⟨q, hsettle, -⟩ := (readAll_eq_ok_iff_settle hfirst).mp h
  cases hsettle

/-- An argument that is read gives values, if it is not the mark at the end. -/
theorem exists_gives_of_readAll (hp : p.pending = none)
    (h : p.readAll (argument :: arguments) = .ok p') :
    argument = [dash, dash] ∧ arguments = [] ∨ ∃ given waiting, Gives given waiting argument := by
  rcases argument_cases argument with
    rfl | ⟨body, hne, rfl⟩ | ⟨letters, hne, hdash, rfl⟩ | hplain
  · cases arguments with
    | nil => exact .inl ⟨rfl, rfl⟩
    | cons argument arguments =>
        rw [readAll_mark_cons] at h
        cases h
  · rw [readAll_long _ hne, bind_eq_ok_iff] at h
    obtain ⟨p₁, hread, -⟩ := h
    exact .inr (exists_gives_of_readLong hread)
  · rw [readAll_letters _ hne hdash, bind_eq_ok_iff] at h
    obtain ⟨p₁, hread, -⟩ := h
    obtain ⟨given, waiting, hletters⟩ := exists_letters_of_readShort hread (Nat.le_refl _)
    exact .inr ⟨given, waiting, .letters hne hletters⟩
  · rw [readAll_plain _ hplain, bind_eq_ok_iff] at h
    obtain ⟨p₁, hread, -⟩ := h
    exact absurd hread (readPlain_ne_ok fun o => by rw [hp]; exact nofun)

/-- Arguments have the effect of the values that they give. -/
theorem readAll_iff_of_reads (h : Reads given arguments) (hp : p.pending = none) :
    p.readAll arguments = .ok p' ↔ p.storeAll given = .ok p' := by
  induction h generalizing p with
  | nil => rw [readAll_nil, settle_of_pending hp, storeAll_nil]
  | mark => rw [readAll_mark, settle_of_pending hp, storeAll_nil]
  | closed first rest ih =>
      rw [readAll_of_gives first hp, storeAll_append, bind_eq_ok_iff, bind_eq_ok_iff]
      refine exists_congr fun q => and_congr_right fun hq => ?_
      have hpending := (storeAll_eq_ok_iff.mp hq).pending.trans hp
      rw [expecting_none hpending, ih hpending]
  | valued first plain rest ih =>
      rw [readAll_of_gives first hp, storeAll_append, bind_eq_ok_iff, bind_eq_ok_iff]
      refine exists_congr fun q => and_congr_right fun hq => ?_
      have hpending := (storeAll_eq_ok_iff.mp hq).pending.trans hp
      rw [readAll_expecting_of_isPlain plain, readAll_holding_iff hpending, storeAll_cons,
        bind_eq_ok_iff]
      refine exists_congr fun q' => and_congr_right fun hq' => ?_
      rw [ih ((pending_of_store hq').trans hpending)]

theorem exists_reads_of_readAll (hp : p.pending = none) (h : p.readAll arguments = .ok p') :
    ∃ given, Reads given arguments := by
  -- on the length, since an option takes the argument behind it along
  induction hlength : arguments.length using Nat.strong_induction_on generalizing p arguments with
  | _ n ih =>
    rcases arguments with _ | ⟨argument, arguments⟩
    · exact ⟨[], .nil⟩
    rcases exists_gives_of_readAll hp h with ⟨rfl, rfl⟩ | ⟨given, waiting, hgives⟩
    · exact ⟨[], .mark⟩
    rw [readAll_of_gives hgives hp, bind_eq_ok_iff] at h
    obtain ⟨q, hq, h⟩ := h
    have hpending := (storeAll_eq_ok_iff.mp hq).pending.trans hp
    cases waiting with
    | none =>
        rw [expecting_none hpending] at h
        obtain ⟨given', hrest⟩ := ih arguments.length (by simp at hlength; omega) hpending h rfl
        exact ⟨given ++ given', .closed hgives hrest⟩
    | some o =>
        obtain ⟨value, rest, rfl, hplain⟩ := exists_value_of_readAll h
        rw [readAll_expecting_of_isPlain hplain, readAll_holding_iff hpending] at h
        obtain ⟨q', hq', h⟩ := h
        obtain ⟨given', hrest⟩ := ih rest.length (by simp at hlength; omega)
          ((pending_of_store hq').trans hpending) h rfl
        exact ⟨given ++ (o, value) :: given', .valued hgives hplain hrest⟩

end All

end Progress

variable {given : List (Opt × Octets)} {arguments : List Octets} {a : Arguments}

theorem parse_iff_of_reads (h : Reads given arguments) :
    parse arguments = .ok a ↔ (given.map Prod.fst).Nodup ∧ a.Holds given := by
  rw [parse, map_eq_ok_iff, ← Progress.storeAll_initial_iff]
  exact exists_congr fun p => and_congr_left fun _ => Progress.readAll_iff_of_reads h rfl

/-- Arguments are accepted if they are written by the grammar, give each option once at most, and
give it a value that says something.  What is read is what the values say, and the defaults. -/
theorem parse_eq_ok_iff :
    parse arguments = .ok a ↔
      ∃ given, Reads given arguments ∧ (given.map Prod.fst).Nodup ∧ a.Holds given := by
  constructor
  · intro h
    obtain ⟨p, hread, -⟩ := map_eq_ok_iff.mp h
    obtain ⟨given, hreads⟩ := Progress.exists_reads_of_readAll rfl hread
    exact ⟨given, hreads, (parse_iff_of_reads hreads).mp h⟩
  · rintro ⟨given, hreads, hholds⟩
    exact (parse_iff_of_reads hreads).mpr hholds

end Command

end ThermalGauge
