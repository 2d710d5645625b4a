import ThermalGauge.Text.Numeral
import ThermalGauge.Proofs.Results
import ThermalGauge.Proofs.Text.Trimming

/-!
# Numerals and their numbers

A numeral is an optional plus sign and digits, at least one.  It is read exactly if its number is
in range, since the value read so far never exceeds the number.  Where negative numbers are read,
a minus sign may stand in place of the plus sign.
-/

namespace ThermalGauge

namespace Text

variable {c : Char} {cs digits : List Char} {limit bound value n : Nat} {past : NumeralRefusal}

theorem digit?_eq_some_iff {d : Nat} :
    digit? c = some d ↔ c.isDigit = true ∧ c.toNat - '0'.toNat = d := by
  have hdigit : c.isDigit = true ↔ '0' ≤ c ∧ c ≤ '9' := by
    rw [Char.isDigit_iff_toNat]
    rfl
  rw [hdigit, digit?]
  split
  · next hc => rw [Option.some.injEq, and_iff_right hc]
  · next hc => simp [hc]

theorem digit?_eq_none_iff : digit? c = none ↔ c.isDigit = false := by
  rw [Option.eq_none_iff_forall_ne_some, ← Bool.not_eq_true]
  simp [digit?_eq_some_iff]

theorem isBlank_of_isDigit (h : c.isDigit = true) : isBlank c = false := by
  rw [Char.isDigit_iff_toNat] at h
  have hlow : 48 ≤ c.toNat := h.1
  have hhigh : c.toNat ≤ 57 := h.2
  simp [isBlank]
  omega

theorem le_ofDigitChars (cs : List Char) (value : Nat) : value ≤ Nat.ofDigitChars 10 cs value := by
  induction cs generalizing value with
  | nil => simp
  | cons c cs ih =>
      rw [Nat.ofDigitChars_cons]
      exact Nat.le_trans (by omega) (ih _)

theorem readDigits_eq_ok_iff (h : value ≤ limit) :
    readDigits limit past value cs = .ok n ↔
      (∀ c ∈ cs, c.isDigit = true) ∧ Nat.ofDigitChars 10 cs value = n ∧ n ≤ limit := by
  induction cs generalizing value with
  | nil =>
      simp only [readDigits, Nat.ofDigitChars_nil, List.not_mem_nil, false_imp_iff, implies_true,
        true_and, Except.ok.injEq]
      constructor
      · rintro rfl
        exact ⟨rfl, h⟩
      · rintro ⟨rfl, -⟩
        rfl
  | cons c cs ih =>
      rw [readDigits, List.forall_mem_cons, Nat.ofDigitChars_cons]
      cases hc : digit? c with
      | none => simp [digit?_eq_none_iff.mp hc]
      | some d =>
          obtain ⟨hdigit, rfl⟩ := digit?_eq_some_iff.mp hc
          rw [Nat.mul_comm 10 value]
          dsimp only
          split
          · next hle => rw [ih hle, hdigit, eq_self, true_and]
          · next hgt =>
            -- the number is at least what has been read of it
            have hgrown := le_ofDigitChars cs (value * 10 + (c.toNat - '0'.toNat))
            constructor
            · rintro ⟨⟩
            · rintro ⟨-, rfl, hle⟩
              exact absurd (Nat.le_trans hgrown hle) hgt

/-- An optional plus sign and digits, at least one, that say `n`. -/
def IsNumeral (cs : List Char) (n : Nat) : Prop :=
  ∃ digits, (cs = digits ∨ cs = '+' :: digits) ∧ digits ≠ [] ∧ (∀ c ∈ digits, c.isDigit = true) ∧
    Nat.ofDigitChars 10 digits 0 = n

theorem isNumeral_nil : ¬ IsNumeral [] n := by
  rintro ⟨digits, rfl | hsign, hne, -⟩
  · exact hne rfl
  · cases hsign

theorem isNumeral_plus_iff :
    IsNumeral ('+' :: cs) n ↔
      cs ≠ [] ∧ (∀ c ∈ cs, c.isDigit = true) ∧ Nat.ofDigitChars 10 cs 0 = n := by
  constructor
  · rintro ⟨digits, rfl | hsign, hne, hdigits, hn⟩
    · exact absurd (hdigits '+' (List.mem_cons_self ..)) (by decide)
    · cases hsign
      exact ⟨hne, hdigits, hn⟩
  · rintro ⟨hne, hdigits, hn⟩
    exact ⟨cs, .inr rfl, hne, hdigits, hn⟩

theorem isNumeral_iff_of_no_sign (hne : cs ≠ []) (hsign : cs.head? ≠ some '+') :
    IsNumeral cs n ↔ (∀ c ∈ cs, c.isDigit = true) ∧ Nat.ofDigitChars 10 cs 0 = n := by
  constructor
  · rintro ⟨digits, rfl | rfl, -, hdigits, hn⟩
    · exact ⟨hdigits, hn⟩
    · exact absurd rfl hsign
  · rintro ⟨hdigits, hn⟩
    exact ⟨cs, .inl rfl, hne, hdigits, hn⟩

theorem readBelow_eq_ok_iff (h : 0 < bound) :
    readBelow bound cs = .ok n ↔ IsNumeral cs n ∧ n < bound := by
  have hdigits (ds : List Char) : readDigits (bound - 1) .tooLarge 0 ds = .ok n ↔
      ((∀ c ∈ ds, c.isDigit = true) ∧ Nat.ofDigitChars 10 ds 0 = n) ∧ n < bound := by
    rw [readDigits_eq_ok_iff (Nat.zero_le _), and_assoc, Nat.le_sub_one_iff_lt h]
  fun_cases readBelow bound cs with
  | case1 => simp [isNumeral_nil]
  | case2 c cs => rw [hdigits, isNumeral_plus_iff, and_iff_right (List.cons_ne_nil c cs)]
  | case3 cs hne hlong =>
      rw [hdigits]
      by_cases hplus : cs = ['+']
      · -- a plus sign alone
        subst hplus
        rw [isNumeral_plus_iff]
        simp
      · have hsign : cs.head? ≠ some '+' := by
          intro hhead
          obtain ⟨rest, rfl⟩ := List.head?_eq_some_iff.mp hhead
          cases rest with
          | nil => exact hplus rfl
          | cons c rest => exact hlong c rest rfl
        rw [isNumeral_iff_of_no_sign hne hsign]

theorem readUInt64_eq_ok_iff {s : String} {n : UInt64} :
    readUInt64 s = .ok n ↔ IsNumeral s.toList n.toNat := by
  have hread (k : Nat) : readBelow (1 <<< 64) s.toList = .ok k ↔
      IsNumeral s.toList k ∧ k < 1 <<< 64 := readBelow_eq_ok_iff (by decide)
  rw [readUInt64, map_eq_ok_iff]
  constructor
  · rintro ⟨k, hk, rfl⟩
    obtain ⟨hnumeral, hlt⟩ := (hread k).mp hk
    rwa [UInt64.toNat_ofNat_of_lt' hlt]
  · intro hnumeral
    exact ⟨n.toNat, (hread _).mpr ⟨hnumeral, n.toNat_lt⟩, UInt64.ofNat_toNat⟩

section Integers

variable {i : Int}

/-- A numeral, or digits behind a minus sign, at least one. -/
def IsInteger (cs : List Char) (i : Int) : Prop :=
  (∃ n : Nat, IsNumeral cs n ∧ (n : Int) = i) ∨
    ∃ digits, cs = '-' :: digits ∧ digits ≠ [] ∧ (∀ c ∈ digits, c.isDigit = true) ∧
      -(Nat.ofDigitChars 10 digits 0 : Int) = i

theorem not_isNumeral_minus : ¬ IsNumeral ('-' :: cs) n := by
  rintro ⟨digits, rfl | hsign, -, hdigits, -⟩
  · exact absurd (hdigits '-' (List.mem_cons_self ..)) (by decide)
  · cases hsign

theorem isInteger_minus_iff :
    IsInteger ('-' :: cs) i ↔ cs ≠ [] ∧ (∀ c ∈ cs, c.isDigit = true) ∧
      -(Nat.ofDigitChars 10 cs 0 : Int) = i := by
  constructor
  · rintro (⟨n, hnumeral, -⟩ | ⟨digits, hcs, hrest⟩)
    · exact absurd hnumeral not_isNumeral_minus
    · cases hcs
      exact hrest
  · intro hrest
    exact .inr ⟨cs, rfl, hrest⟩

theorem isInteger_iff_of_no_minus (hsign : cs.head? ≠ some '-') :
    IsInteger cs i ↔ ∃ n : Nat, IsNumeral cs n ∧ (n : Int) = i := by
  constructor
  · rintro (hnumeral | ⟨digits, rfl, -⟩)
    · exact hnumeral
    · exact absurd rfl hsign
  · exact .inl

theorem readWithin_eq_ok_iff (h : 0 < bound) :
    readWithin bound cs = .ok i ↔ IsInteger cs i ∧ -(bound : Int) ≤ i ∧ i < bound := by
  fun_cases readWithin bound cs with
  | case1 c cs =>
      have hread (k : Nat) : readDigits bound .tooSmall 0 (c :: cs) = .ok k ↔
          (∀ d ∈ c :: cs, d.isDigit = true) ∧ Nat.ofDigitChars 10 (c :: cs) 0 = k ∧ k ≤ bound :=
        readDigits_eq_ok_iff (Nat.zero_le _)
      simp only [map_eq_ok_iff, bind_eq_ok_iff, pure, Except.pure, Except.ok.injEq,
        exists_exists_and_eq_and, isInteger_minus_iff, ne_eq, reduceCtorEq, not_false_eq_true,
        true_and]
      constructor
      · rintro ⟨k, hk, rfl⟩
        obtain ⟨hdigits, rfl, hle⟩ := (hread k).mp hk
        exact ⟨⟨hdigits, rfl⟩, by omega, by omega⟩
      · rintro ⟨⟨hdigits, rfl⟩, hlow, -⟩
        exact ⟨_, (hread _).mpr ⟨hdigits, rfl, by omega⟩, rfl⟩
  | case2 cs hlong =>
      simp only [map_eq_ok_iff, bind_eq_ok_iff, pure, Except.pure, Except.ok.injEq,
        exists_exists_and_eq_and]
      by_cases hminus : cs = ['-']
      · -- a minus sign alone
        subst hminus
        simp [readBelow_eq_ok_iff h, not_isNumeral_minus, isInteger_minus_iff]
      · have hsign : cs.head? ≠ some '-' := by
          intro hhead
          obtain ⟨rest, rfl⟩ := List.head?_eq_some_iff.mp hhead
          cases rest with
          | nil => exact hminus rfl
          | cons c rest => exact hlong c rest rfl
        rw [isInteger_iff_of_no_minus hsign]
        constructor
        · rintro ⟨k, hk, rfl⟩
          obtain ⟨hnumeral, hlt⟩ := (readBelow_eq_ok_iff h).mp hk
          exact ⟨⟨k, hnumeral, rfl⟩, by omega, by omega⟩
        · rintro ⟨⟨k, hnumeral, rfl⟩, -, hlt⟩
          exact ⟨k, (readBelow_eq_ok_iff h).mpr ⟨hnumeral, by omega⟩, rfl⟩

end Integers

/-- A number is read from its own digits, with zeros in front. -/
theorem isNumeral_toDigits {sign : List Char} (hsign : sign = [] ∨ sign = ['+']) (zeros n : Nat) :
    IsNumeral (sign ++ List.replicate zeros '0' ++ Nat.toDigits 10 n) n := by
  refine ⟨List.replicate zeros '0' ++ Nat.toDigits 10 n, ?_, ?_, ?_, ?_⟩
  · rcases hsign with rfl | rfl
    · exact .inl rfl
    · exact .inr rfl
  · simp [Nat.toDigits_ne_nil]
  · intro c hc
    rcases List.mem_append.mp hc with hzero | hdigit
    · rw [List.eq_of_mem_replicate hzero]
      decide
    · exact Nat.isDigit_of_mem_toDigits (by decide) (by decide) hdigit
  · rw [Nat.ofDigitChars_append, Nat.ofDigitChars_replicate_zero, Nat.mul_zero,
      Nat.ofDigitChars_ten_toDigits]

theorem IsNumeral.isBlank_eq_false (h : IsNumeral cs n) (hc : c ∈ cs) : isBlank c = false := by
  obtain ⟨digits, rfl | rfl, -, hdigits, -⟩ := h
  · exact isBlank_of_isDigit (hdigits c hc)
  · rcases List.mem_cons.mp hc with rfl | hc
    · decide
    · exact isBlank_of_isDigit (hdigits c hc)

end Text

end ThermalGauge
