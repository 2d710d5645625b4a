import ThermalGauge.Binary32.Decimal
import ThermalGauge.Proofs.Text.Numeral
import Mathlib.Algebra.Field.Rat
import Mathlib.Data.List.Induction
import Mathlib.Data.Rat.Cast.Defs

/-!
# Written decimal numbers

A literal is an optional sign, digits with an optional point among them, at least one digit, and an
optional exponent.  A text is a literal in one way at most.  What is read from it is the number
that it says, but for an exponent of 655360 or more, which counts by its leading digits only.
-/

namespace ThermalGauge

namespace Decimal

section Digits

variable {c : Char} {cs : List Char}

theorem isDigit_eq : isDigit = Char.isDigit := by
  funext c
  rw [isDigit, Bool.eq_iff_iff, Option.isSome_iff_exists]
  simp [Text.digit?_eq_some_iff]

theorem getD_digit? (h : c.isDigit = true) : (Text.digit? c).getD 0 = c.toNat - '0'.toNat := by
  rw [Text.digit?_eq_some_iff.mpr ⟨h, rfl⟩, Option.getD_some]

theorem digitsValue_eq (h : ∀ c ∈ cs, c.isDigit = true) :
    digitsValue cs = Nat.ofDigitChars 10 cs 0 := by
  induction cs using List.reverseRecOn with
  | nil => rfl
  | append_singleton cs c ih =>
      rw [List.forall_mem_append, List.forall_mem_singleton] at h
      rw [digitsValue] at ih ⊢
      rw [List.foldl_append, List.foldl_cons, List.foldl_nil, ih h.1, getD_digit? h.2,
        Nat.ofDigitChars_append, Nat.ofDigitChars_cons, Nat.ofDigitChars_nil, Nat.mul_comm]

theorem digit_lt (h : c.isDigit = true) : c.toNat - '0'.toNat < 10 := by
  have hhigh : c.toNat ≤ 57 := (Char.isDigit_iff_toNat.mp h).2
  have hzero : '0'.toNat = 48 := rfl
  omega

theorem ofDigitChars_lt (h : ∀ c ∈ cs, c.isDigit = true) :
    Nat.ofDigitChars 10 cs 0 < 10 ^ cs.length := by
  induction cs using List.reverseRecOn with
  | nil => simp
  | append_singleton cs c ih =>
      rw [List.forall_mem_append, List.forall_mem_singleton] at h
      have hc := digit_lt h.2
      have hcs := ih h.1
      rw [Nat.ofDigitChars_append, Nat.ofDigitChars_cons, Nat.ofDigitChars_nil, List.length_append,
        List.length_singleton, Nat.pow_succ]
      omega

end Digits

section Leading

variable {n : Nat}

/-- The leading digits of a number, as many as stay below 655360. -/
def leading (n : Nat) : Nat :=
  if n < 655360 then n else leading (n / 10)

theorem leading_of_lt (h : n < 655360) : leading n = n := by
  rw [leading, if_pos h]

theorem leading_of_le (h : 655360 ≤ n) : leading n = leading (n / 10) := by
  rw [leading, if_neg h.not_gt]

theorem le_leading (h : 65536 ≤ n) : 65536 ≤ leading n := by
  induction n using leading.induct with
  | case1 n hn => rwa [leading_of_lt hn]
  | case2 n hn ih =>
      rw [leading_of_le (Nat.le_of_not_lt hn)]
      exact ih (by omega)

/-- One digit after another is taken in until there are enough. -/
theorem leading_concat {d : Nat} (hd : d < 10) :
    leading (10 * n + d) = if n < 65536 then 10 * n + d else leading n := by
  split
  · exact leading_of_lt (by omega)
  · rw [leading_of_le (by omega)]
    congr 1
    omega

/-- The digits that are taken in are the leading ones. -/
theorem exponentValue_eq {cs : List Char} (h : ∀ c ∈ cs, c.isDigit = true) :
    exponentValue cs = leading (Nat.ofDigitChars 10 cs 0) := by
  -- from the end, since a digit is taken in or not by what stands before it
  induction cs using List.reverseRecOn with
  | nil =>
      rw [Nat.ofDigitChars_nil, leading_of_lt (by decide)]
      rfl
  | append_singleton cs c ih =>
      rw [List.forall_mem_append, List.forall_mem_singleton] at h
      rw [exponentValue] at ih ⊢
      rw [List.foldl_append, List.foldl_cons, List.foldl_nil, ih h.1, getD_digit? h.2,
        Nat.ofDigitChars_append, Nat.ofDigitChars_cons, Nat.ofDigitChars_nil,
        leading_concat (digit_lt h.2)]
      generalize Nat.ofDigitChars 10 cs 0 = n
      by_cases hn : n < 65536
      · rw [leading_of_lt (by omega), if_pos hn, if_pos (by omega), Nat.mul_comm]
      · have hle := le_leading (Nat.le_of_not_lt hn)
        rw [if_neg hn, if_neg (by omega)]

end Leading

inductive Sign where
  | unsigned
  | plus
  | minus
  deriving DecidableEq

namespace Sign

def text : Sign → List Char
  | unsigned => []
  | plus => ['+']
  | minus => ['-']

def isNegative (s : Sign) : Bool := s = minus

/-- Of a number without a sign, the one with it. -/
def apply {α : Type} [Neg α] (s : Sign) (a : α) : α := if s.isNegative then -a else a

/-- The sign that begins a text, and what follows it. -/
def split : List Char → Sign × List Char
  | '-' :: cs => (minus, cs)
  | '+' :: cs => (plus, cs)
  | cs => (unsigned, cs)

theorem text_split (cs : List Char) : (split cs).1.text ++ (split cs).2 = cs := by
  fun_cases split cs <;> rfl

theorem split_of_no_sign {cs : List Char} (h : ∀ c ∈ cs.head?, c ≠ '+' ∧ c ≠ '-') :
    split cs = (unsigned, cs) := by
  fun_cases split cs with
  | case1 cs => exact absurd rfl (h '-' rfl).2
  | case2 cs => exact absurd rfl (h '+' rfl).1
  | case3 => rfl

theorem split_append {cs : List Char} (h : ∀ c ∈ cs.head?, c ≠ '+' ∧ c ≠ '-') (s : Sign) :
    split (s.text ++ cs) = (s, cs) := by
  cases s with
  | plus => rfl
  | minus => rfl
  | unsigned => exact split_of_no_sign h

theorem isBlank_eq_false {s : Sign} {c : Char} (h : c ∈ s.text) : Text.isBlank c = false := by
  cases s with
  | unsigned => cases h
  | plus =>
      rw [List.mem_singleton.mp h]
      decide
  | minus =>
      rw [List.mem_singleton.mp h]
      decide

theorem split_append_digits {digits : List Char} (h : ∀ c ∈ digits, c.isDigit = true) (s : Sign) :
    split (s.text ++ digits) = (s, digits) := by
  apply split_append
  intro c hc
  have hdigit := h c (List.mem_of_mem_head? hc)
  constructor <;> rintro rfl <;> cases hdigit

end Sign

/-- An exponent as it is written. -/
structure Exponent where
  mark : Char
  sign : Sign
  digits : List Char
  mark_eq : mark = 'e' ∨ mark = 'E'
  digits_ne_nil : digits ≠ []
  isDigit : ∀ c ∈ digits, c.isDigit = true

namespace Exponent

def text (e : Exponent) : List Char := e.mark :: (e.sign.text ++ e.digits)

def magnitude (e : Exponent) : Nat := Nat.ofDigitChars 10 e.digits 0

theorem text_injective {e e' : Exponent} (h : e.text = e'.text) : e = e' := by
  obtain ⟨hmark, hrest⟩ := List.cons.inj h
  have hsplit := congrArg Sign.split hrest
  rw [Sign.split_append_digits e.isDigit, Sign.split_append_digits e'.isDigit,
    Prod.mk.injEq] at hsplit
  obtain ⟨hsign, hdigits⟩ := hsplit
  cases e
  cases e'
  simp_all

/-- The exponent that is meant, if numbers count as `count` tells; it is 0 where there is none. -/
def value (count : Nat → Nat) : Option Exponent → Int
  | none => 0
  | some e => e.sign.apply (count e.magnitude : Int)

/-- What an exponent adds to a text. -/
def suffix : Option Exponent → List Char
  | none => []
  | some e => e.text

theorem suffix_injective {e e' : Option Exponent} (h : suffix e = suffix e') : e = e' := by
  cases e with
  | none =>
      cases e' with
      | none => rfl
      | some e' => cases h
  | some e =>
      cases e' with
      | none => cases h
      | some e' => rw [text_injective h]

theorem head?_suffix (e : Option Exponent) : ∀ c ∈ (suffix e).head?, c = 'e' ∨ c = 'E' := by
  cases e with
  | none => simp [suffix]
  | some e =>
      rintro c ⟨⟩
      exact e.mark_eq

theorem isBlank_eq_false {e : Option Exponent} {c : Char} (h : c ∈ suffix e) :
    Text.isBlank c = false := by
  cases e with
  | none => cases h
  | some e =>
      rcases List.mem_cons.mp h with rfl | hrest
      · rcases e.mark_eq with hmark | hmark <;> rw [hmark] <;> decide
      · rcases List.mem_append.mp hrest with hsign | hdigit
        · exact Sign.isBlank_eq_false hsign
        · exact Text.isBlank_of_isDigit (e.isDigit c hdigit)

theorem readExponent?_eq_some_iff {cs : List Char} {x : Int} :
    readExponent? cs = some x ↔ ∃ (sign : Sign) (digits : List Char), sign.text ++ digits = cs ∧
      digits ≠ [] ∧ (∀ c ∈ digits, c.isDigit = true) ∧
        sign.apply (leading (Nat.ofDigitChars 10 digits 0) : Int) = x := by
  have hread : readExponent? cs =
      if (Sign.split cs).2.isEmpty || !(Sign.split cs).2.all Char.isDigit then none
      else some ((Sign.split cs).1.apply (exponentValue (Sign.split cs).2 : Int)) := by
    rw [← isDigit_eq]
    fun_cases Sign.split cs <;> simp [readExponent?, Sign.apply, Sign.isNegative]
  have hcheck (ds : List Char) : ¬ (ds.isEmpty || !ds.all Char.isDigit) = true ↔
      ds ≠ [] ∧ ∀ c ∈ ds, c.isDigit = true := by
    simp
  rw [hread]
  constructor
  · intro h
    split at h
    · cases h
    · next hdigits =>
      obtain ⟨hne, hall⟩ := (hcheck _).mp hdigits
      refine ⟨_, _, Sign.text_split cs, hne, hall, ?_⟩
      rw [← exponentValue_eq hall]
      exact Option.some.inj h
  · rintro ⟨sign, digits, rfl, hne, hall, rfl⟩
    rw [Sign.split_append_digits hall, if_neg ((hcheck _).mpr ⟨hne, hall⟩), exponentValue_eq hall]

/-- What is read behind the digits. -/
def readSuffix? : List Char → Option Int
  | [] => some 0
  | c :: cs => if c = 'e' ∨ c = 'E' then readExponent? cs else none

theorem readSuffix?_eq_some_iff {cs : List Char} {x : Int} :
    readSuffix? cs = some x ↔ ∃ e : Option Exponent, suffix e = cs ∧ value leading e = x := by
  constructor
  · intro h
    cases cs with
    | nil => exact ⟨none, rfl, Option.some.inj h⟩
    | cons c cs =>
        rw [readSuffix?] at h
        split at h
        · next hmark =>
          obtain ⟨sign, digits, rfl, hne, hall, rfl⟩ := readExponent?_eq_some_iff.mp h
          exact ⟨some ⟨c, sign, digits, hmark, hne, hall⟩, rfl, rfl⟩
        · cases h
  · rintro ⟨e, rfl, rfl⟩
    cases e with
    | none => rfl
    | some e =>
        rw [suffix, text, readSuffix?, if_pos e.mark_eq]
        exact readExponent?_eq_some_iff.mpr ⟨_, _, rfl, e.digits_ne_nil, e.isDigit, rfl⟩

end Exponent

/-- A decimal number as it is written, without a sign in front. -/
structure Unsigned where
  whole : List Char
  fraction : Option (List Char)
  exponent : Option Exponent
  ne_nil : whole ++ fraction.getD [] ≠ []
  isDigit : ∀ c ∈ whole ++ fraction.getD [], c.isDigit = true

namespace Unsigned

/-- What a fraction adds to a text. -/
def pointed : Option (List Char) → List Char
  | none => []
  | some digits => '.' :: digits

def text (u : Unsigned) : List Char :=
  u.whole ++ (pointed u.fraction ++ Exponent.suffix u.exponent)

def digits (u : Unsigned) : List Char := u.whole ++ u.fraction.getD []

/-- The number that is written, if exponents count as `count` tells.  Each digit behind the point
takes one from the exponent. -/
def decimal (count : Nat → Nat) (u : Unsigned) : Decimal where
  digits := Nat.ofDigitChars 10 u.digits 0
  exponent := Exponent.value count u.exponent - (u.fraction.getD []).length

/-- The digits behind a point, if there is one, and what follows. -/
def splitFraction : List Char → Option (List Char) × List Char
  | '.' :: cs => (some (cs.takeWhile Char.isDigit), cs.dropWhile Char.isDigit)
  | cs => (none, cs)

theorem pointed_splitFraction (cs : List Char) :
    pointed (splitFraction cs).1 ++ (splitFraction cs).2 = cs := by
  fun_cases splitFraction cs with
  | case1 cs => simp [pointed]
  | case2 => rfl

theorem isDigit_of_mem_splitFraction {cs : List Char} {c : Char}
    (h : c ∈ (splitFraction cs).1.getD []) : c.isDigit = true := by
  revert h
  fun_cases splitFraction cs with
  | case1 cs => exact List.mem_takeWhile_imp
  | case2 => simp

theorem not_isDigit_of_mark {c : Char} (h : c = 'e' ∨ c = 'E') : c.isDigit = false := by
  rcases h with rfl | rfl <;> decide

theorem splitFraction_of_no_point {cs : List Char} (h : cs.head? ≠ some '.') :
    splitFraction cs = (none, cs) := by
  fun_cases splitFraction cs with
  | case1 cs => exact absurd rfl h
  | case2 => rfl

theorem splitFraction_pointed {fraction : Option (List Char)} {e : Option Exponent}
    (h : ∀ c ∈ fraction.getD [], c.isDigit = true) :
    splitFraction (pointed fraction ++ Exponent.suffix e) = (fraction, Exponent.suffix e) := by
  cases fraction with
  | some digits =>
      have hstop : ∀ c ∈ (Exponent.suffix e).head?, c.isDigit = false := fun c hc =>
        not_isDigit_of_mark (Exponent.head?_suffix e c hc)
      rw [Option.getD_some] at h
      rw [pointed, List.cons_append, splitFraction, takeWhile_append_of_stop h hstop,
        dropWhile_append_of_stop h hstop]
  | none =>
      apply splitFraction_of_no_point
      intro hhead
      rcases Exponent.head?_suffix e '.' hhead with hmark | hmark <;> cases hmark

theorem head?_tail (fraction : Option (List Char)) (e : Option Exponent) :
    ∀ c ∈ (pointed fraction ++ Exponent.suffix e).head?, c.isDigit = false := by
  cases fraction with
  | some digits =>
      rintro c ⟨⟩
      decide
  | none =>
      intro c hc
      exact not_isDigit_of_mark (Exponent.head?_suffix e c hc)

variable {u u' : Unsigned} {cs : List Char} {d : Decimal}

theorem takeWhile_text (u : Unsigned) : u.text.takeWhile Char.isDigit = u.whole := by
  apply takeWhile_append_of_stop _ (head?_tail u.fraction u.exponent)
  intro c hc
  exact u.isDigit c (List.mem_append_left _ hc)

theorem splitFraction_text (u : Unsigned) :
    splitFraction (u.text.dropWhile Char.isDigit) = (u.fraction, Exponent.suffix u.exponent) := by
  rw [text, dropWhile_append_of_stop _ (head?_tail u.fraction u.exponent), splitFraction_pointed]
  · intro c hc
    exact u.isDigit c (List.mem_append_right _ hc)
  · intro c hc
    exact u.isDigit c (List.mem_append_left _ hc)

theorem text_injective (h : u.text = u'.text) : u = u' := by
  have hwhole : u.whole = u'.whole := by rw [← takeWhile_text, ← takeWhile_text, h]
  have hsplit := splitFraction_text u
  rw [h, splitFraction_text, Prod.mk.injEq] at hsplit
  obtain ⟨hfraction, hsuffix⟩ := hsplit
  have hexponent := Exponent.suffix_injective hsuffix
  cases u
  cases u'
  simp_all

theorem head?_text (u : Unsigned) : ∀ c ∈ u.text.head?, c ≠ '+' ∧ c ≠ '-' := by
  intro c hc
  cases hwhole : u.whole with
  | cons first rest =>
      have hfirst : first = c := by
        rw [text, hwhole] at hc
        exact Option.some.inj hc
      have hdigit := u.isDigit c (List.mem_append_left _ (by simp [hwhole, hfirst]))
      constructor <;> rintro rfl <;> cases hdigit
  | nil =>
      cases hfraction : u.fraction with
      | none => exact absurd (by rw [hwhole, hfraction]; rfl) u.ne_nil
      | some digits =>
          rw [text, hwhole, hfraction] at hc
          cases hc
          decide

theorem isBlank_eq_false (u : Unsigned) : ∀ c ∈ u.text, Text.isBlank c = false := by
  intro c hc
  rcases List.mem_append.mp hc with hwhole | hrest
  · exact Text.isBlank_of_isDigit (u.isDigit c (List.mem_append_left _ hwhole))
  · rcases List.mem_append.mp hrest with hpointed | hsuffix
    · cases hfraction : u.fraction with
      | none =>
          rw [hfraction] at hpointed
          cases hpointed
      | some digits =>
          rw [hfraction] at hpointed
          rcases List.mem_cons.mp hpointed with rfl | hdigit
          · decide
          · apply Text.isBlank_of_isDigit
            apply u.isDigit
            apply List.mem_append_right
            rwa [hfraction]
    · exact Exponent.isBlank_eq_false hsuffix

theorem text_ne_nil (u : Unsigned) : u.text ≠ [] := by
  intro hnil
  obtain ⟨hwhole, hrest⟩ := List.append_eq_nil_iff.mp hnil
  apply u.ne_nil
  cases hfraction : u.fraction with
  | none => rw [hwhole]; rfl
  | some digits =>
      rw [hfraction] at hrest
      cases hrest

theorem length_digits_le (u : Unsigned) : u.digits.length ≤ u.text.length := by
  have hpointed : (u.fraction.getD []).length ≤ (pointed u.fraction).length := by
    cases u.fraction <;> simp [pointed]
  rw [digits, text, List.length_append, List.length_append, List.length_append]
  omega

/-- What is read from the parts of a text. -/
def assemble? (whole fraction rest : List Char) : Option Decimal :=
  if whole ++ fraction = [] then none else (Exponent.readSuffix? rest).map fun exponent =>
    ⟨digitsValue (whole ++ fraction), exponent - fraction.length⟩

theorem assemble?_eq (whole fraction rest : List Char) :
    (if whole.isEmpty && fraction.isEmpty then none else do
      let exponent ← match rest with
        | [] => some 0
        | c :: r => if c = 'e' ∨ c = 'E' then readExponent? r else none
      some ⟨digitsValue (whole ++ fraction), exponent - fraction.length⟩) =
    assemble? whole fraction rest := by
  have hempty : (whole.isEmpty && fraction.isEmpty) = true ↔ whole ++ fraction = [] := by simp
  simp only [hempty, assemble?]
  congr 1
  cases rest with
  | nil => rfl
  | cons c r =>
      rw [Exponent.readSuffix?]
      dsimp only
      split
      · cases readExponent? r <;> rfl
      · rfl

theorem read?_eq (cs : List Char) :
    read? cs =
      let (fraction, rest) := splitFraction (cs.dropWhile Char.isDigit)
      assemble? (cs.takeWhile Char.isDigit) (fraction.getD []) rest := by
  rw [read?, isDigit_eq]
  dsimp only
  generalize cs.dropWhile Char.isDigit = afterWhole
  fun_cases splitFraction afterWhole with
  | case1 rest => exact assemble?_eq _ _ _
  | case2 =>
      split
      · next hpoint => exact absurd rfl (hpoint _)
      · exact assemble?_eq _ _ _

/-- What is read is what is written, with the leading digits of an exponent. -/
theorem read?_eq_some_iff :
    read? cs = some d ↔ ∃ u : Unsigned, u.text = cs ∧ u.decimal leading = d := by
  rw [read?_eq]
  constructor
  · intro h
    dsimp only at h
    rw [assemble?] at h
    split at h
    · cases h
    · next hne =>
      obtain ⟨x, hx, rfl⟩ := Option.map_eq_some_iff.mp h
      obtain ⟨e, hsuffix, rfl⟩ := Exponent.readSuffix?_eq_some_iff.mp hx
      have hdigits : ∀ c ∈ cs.takeWhile Char.isDigit ++
          (splitFraction (cs.dropWhile Char.isDigit)).1.getD [], c.isDigit = true := by
        intro c hc
        rcases List.mem_append.mp hc with hwhole | hfraction
        · exact List.mem_takeWhile_imp hwhole
        · exact isDigit_of_mem_splitFraction hfraction
      refine ⟨⟨_, _, e, hne, hdigits⟩, ?_, ?_⟩
      · rw [text, hsuffix, pointed_splitFraction, List.takeWhile_append_dropWhile]
      · rw [digitsValue_eq hdigits]
        rfl
  · rintro ⟨u, rfl, rfl⟩
    rw [takeWhile_text, splitFraction_text]
    dsimp only
    rw [assemble?, if_neg u.ne_nil, Option.map_eq_some_iff]
    refine ⟨_, Exponent.readSuffix?_eq_some_iff.mpr ⟨u.exponent, rfl, rfl⟩, ?_⟩
    rw [digitsValue_eq u.isDigit]
    rfl

end Unsigned

/-- A decimal number as it is written. -/
structure Literal where
  sign : Sign
  number : Unsigned

namespace Literal

variable {l l' : Literal}

def text (l : Literal) : List Char := l.sign.text ++ l.number.text

/-- What is read where a literal is written. -/
def rounded (l : Literal) : Binary32 := (l.number.decimal leading).round l.sign.isNegative

theorem split_text (l : Literal) : Sign.split l.text = (l.sign, l.number.text) :=
  Sign.split_append l.number.head?_text l.sign

theorem text_injective (h : l.text = l'.text) : l = l' := by
  have hsplit := split_text l
  rw [h, split_text, Prod.mk.injEq] at hsplit
  obtain ⟨hsign, hnumber⟩ := hsplit
  have hunsigned := Unsigned.text_injective hnumber
  cases l
  cases l'
  simp_all

theorem text_ne_nil (l : Literal) : l.text ≠ [] := by
  intro hnil
  exact l.number.text_ne_nil (List.append_eq_nil_iff.mp hnil).2

theorem isBlank_eq_false (l : Literal) : ∀ c ∈ l.text, Text.isBlank c = false := by
  intro c hc
  rcases List.mem_append.mp hc with hsign | hnumber
  · exact Sign.isBlank_eq_false hsign
  · exact l.number.isBlank_eq_false c hnumber

end Literal

section Read

variable {x : Binary32} {cs : List Char} {negative : Bool}

/-- The words are not finite. -/
theorem isFinite_of_readWord? (h : readWord? negative cs = some x) : x.isFinite = false := by
  unfold readWord? at h
  split at h <;> cases h <;> rfl

theorem readUnsigned_eq_ok_iff (hx : x.isFinite = true) :
    readUnsigned negative cs = .ok x ↔
      ∃ u : Unsigned, u.text = cs ∧ (u.decimal leading).round negative = x := by
  rw [readUnsigned]
  cases hread : read? cs with
  | some d =>
      obtain ⟨u, rfl, rfl⟩ := Unsigned.read?_eq_some_iff.mp hread
      constructor
      · rintro ⟨⟩
        exact ⟨u, rfl, rfl⟩
      · rintro ⟨u', htext, rfl⟩
        rw [Unsigned.text_injective htext]
  | none =>
      have hnone (u : Unsigned) : u.text ≠ cs := by
        intro htext
        rw [Unsigned.read?_eq_some_iff.mpr ⟨u, htext, rfl⟩] at hread
        cases hread
      cases hword : readWord? negative cs with
      | some y =>
          constructor
          · rintro ⟨⟩
            rw [isFinite_of_readWord? hword] at hx
            cases hx
          · rintro ⟨u, htext, -⟩
            exact absurd htext (hnone u)
      | none =>
          constructor
          · rintro ⟨⟩
          · rintro ⟨u, htext, -⟩
            exact absurd htext (hnone u)

end Read

end Decimal

namespace Binary32

open Decimal

theorem read_eq (text : String) :
    read text = if text.toList = [] then .error .empty
      else readUnsigned (Sign.split text.toList).1.isNegative (Sign.split text.toList).2 := by
  rw [read]
  generalize text.toList = cs
  split
  · rfl
  · rfl
  · rfl
  · next hempty hminus hplus =>
    have hsign : ∀ c ∈ cs.head?, c ≠ '+' ∧ c ≠ '-' := by
      cases cs with
      | nil => exact absurd rfl hempty
      | cons c cs =>
          rintro c ⟨⟩
          constructor <;> rintro rfl
          · exact hplus cs rfl
          · exact hminus cs rfl
    rw [if_neg hempty, Sign.split_of_no_sign hsign]
    rfl

/-- A finite value is read exactly where a literal is written that is rounded to it. -/
theorem read_eq_ok_iff {text : String} {x : Binary32} (hx : x.isFinite = true) :
    read text = .ok x ↔ ∃ l : Literal, l.text = text.toList ∧ l.rounded = x := by
  rw [read_eq]
  constructor
  · intro h
    split at h
    · cases h
    · obtain ⟨u, htext, rfl⟩ := (readUnsigned_eq_ok_iff hx).mp h
      refine ⟨⟨_, u⟩, ?_, rfl⟩
      rw [Literal.text, htext, Sign.text_split]
  · rintro ⟨l, htext, rfl⟩
    rw [← htext, if_neg l.text_ne_nil, Literal.split_text]
    exact (readUnsigned_eq_ok_iff hx).mpr ⟨l.number, rfl, rfl⟩

end Binary32

end ThermalGauge
