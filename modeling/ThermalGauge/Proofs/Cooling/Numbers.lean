import ThermalGauge.Cooling
import ThermalGauge.Proofs.Text.Numeral
import ThermalGauge.Text.Utf8.Lemmas
import Mathlib.Algebra.Order.Ring.Nat

/-!
# Numbers in files

A file holds a number if it holds a text which is a numeral between blanks.  Any other text is
reported as it stands there, without the blanks; a file without a text is reported as unreadable.
-/

namespace ThermalGauge

namespace Cooling

variable {t : FileTree} {p q : Path} {text : String} {core : List Char} {n : UInt64}

/-- Why a file has no text: it cannot be read, or what it holds is not UTF-8. -/
def NoText (t : FileTree) (p : Path) (why : ReadFailure) : Prop :=
  (∃ error, t.content p = .error error ∧ why = .system error) ∨
    ∃ content, t.content p = .ok content ∧ (∀ text, content ≠ Utf8.encode text) ∧ why = .notText

def HasText (t : FileTree) (p : Path) (text : String) : Prop :=
  t.content p = .ok (Utf8.encode text)

theorem hasText_or_noText (t : FileTree) (p : Path) :
    (∃ text, HasText t p text) ∨ ∃ why, NoText t p why := by
  cases hcontent : t.content p with
  | error error => exact .inr ⟨_, .inl ⟨error, hcontent, rfl⟩⟩
  | ok content =>
      by_cases htext : ∃ text, content = Utf8.encode text
      · obtain ⟨text, rfl⟩ := htext
        exact .inl ⟨text, hcontent⟩
      · exact .inr ⟨_, .inr ⟨content, hcontent, fun text heq => htext ⟨text, heq⟩, rfl⟩⟩

theorem NoText.readNumber_eq {why : ReadFailure} (h : NoText t p why) :
    readNumber t p = .error (.unreadable p why) := by
  rcases h with ⟨error, hcontent, rfl⟩ | ⟨content, hcontent, hnone, rfl⟩
  · simp only [readNumber, hcontent]
  · have hdecode : Utf8.decode? content = none := by
      rw [Option.eq_none_iff_forall_ne_some]
      intro text htext
      exact hnone text (Utf8.decode?_eq_some_iff.mp htext)
    simp only [readNumber, hcontent, numberIn, hdecode]

theorem HasText.readNumber_of_numeral (h : HasText t p text)
    (hnumeral : Text.IsNumeral (Text.trimChars text.toList) n.toNat) : readNumber t p = .ok n := by
  have hread : Text.readUInt64 (Text.trim text) = .ok n := by
    rwa [Text.readUInt64_eq_ok_iff, Text.toList_trim]
  simp only [readNumber, show t.content p = _ from h, numberIn, Utf8.decode?_encode, hread]

theorem HasText.readNumber_of_no_numeral (h : HasText t p text)
    (hnone : ∀ n : UInt64, ¬ Text.IsNumeral (Text.trimChars text.toList) n.toNat) :
    readNumber t p = .error (.unexpected p (Text.trim text)) := by
  cases hread : Text.readUInt64 (Text.trim text) with
  | ok n =>
      rw [Text.readUInt64_eq_ok_iff, Text.toList_trim] at hread
      exact absurd hread (hnone n)
  | error refusal =>
      simp only [readNumber, show t.content p = _ from h, numberIn, Utf8.decode?_encode, hread]

/-- Every file falls under one of these. -/
theorem readNumber_cases (t : FileTree) (p : Path) :
    (∃ text n, HasText t p text ∧ Text.IsNumeral (Text.trimChars text.toList) (UInt64.toNat n) ∧
      readNumber t p = .ok n) ∨
    (∃ text, HasText t p text ∧
      (∀ n : UInt64, ¬ Text.IsNumeral (Text.trimChars text.toList) n.toNat) ∧
      readNumber t p = .error (.unexpected p (Text.trim text))) ∨
    ∃ why, NoText t p why ∧ readNumber t p = .error (.unreadable p why) := by
  rcases hasText_or_noText t p with ⟨text, htext⟩ | ⟨why, hwhy⟩
  · by_cases hnumeral : ∃ n : UInt64, Text.IsNumeral (Text.trimChars text.toList) n.toNat
    · obtain ⟨n, hn⟩ := hnumeral
      exact .inl ⟨text, n, htext, hn, htext.readNumber_of_numeral hn⟩
    · have hnone : ∀ n : UInt64, ¬ Text.IsNumeral (Text.trimChars text.toList) n.toNat :=
        not_exists.mp hnumeral
      exact .inr (.inl ⟨text, htext, hnone, htext.readNumber_of_no_numeral hnone⟩)
  · exact .inr (.inr ⟨why, hwhy, hwhy.readNumber_eq⟩)

theorem readNumber_eq_ok_iff :
    readNumber t p = .ok n ↔ ∃ text core, HasText t p text ∧ Text.Trimmed text.toList core ∧
      Text.IsNumeral core n.toNat := by
  constructor
  · intro h
    rcases readNumber_cases t p with ⟨text, n', htext, hn, heq⟩ | ⟨text, -, -, heq⟩ |
        ⟨why, -, heq⟩ <;> rw [h] at heq <;> cases heq
    exact ⟨text, _, htext, Text.trimmed_trimChars _, hn⟩
  · rintro ⟨text, core, htext, hcore, hn⟩
    rw [← hcore.trimChars_eq] at hn
    exact htext.readNumber_of_numeral hn

/-- In range is a number below `2 ^ 64`. -/
theorem forall_not_isNumeral_iff :
    (∀ n : UInt64, ¬ Text.IsNumeral core n.toNat) ↔ ∀ n, Text.IsNumeral core n → 2 ^ 64 ≤ n := by
  constructor
  · intro h n hn
    by_contra hlt
    have hsmall : n < 2 ^ 64 := Nat.lt_of_not_le hlt
    apply h (.ofNat n)
    rwa [UInt64.toNat_ofNat_of_lt' hsmall]
  · intro h n hn
    exact absurd n.toNat_lt (h _ hn).not_gt

theorem readNumber_eq_unexpected_iff {value : String} :
    readNumber t p = .error (.unexpected q value) ↔ q = p ∧ ∃ text, HasText t p text ∧
      Text.Trimmed text.toList value.toList ∧
        ∀ n, Text.IsNumeral value.toList n → 2 ^ 64 ≤ n := by
  constructor
  · intro h
    rcases readNumber_cases t p with ⟨text, n, -, -, heq⟩ | ⟨text, htext, hnone, heq⟩ |
        ⟨why, -, heq⟩ <;> rw [h] at heq <;> cases heq
    rw [forall_not_isNumeral_iff, ← Text.toList_trim] at hnone
    refine ⟨rfl, text, htext, ?_, hnone⟩
    rw [Text.toList_trim]
    exact Text.trimmed_trimChars _
  · rintro ⟨rfl, text, htext, hvalue, hnone⟩
    have htrim : Text.trim text = value := by
      rw [← String.toList_inj, Text.toList_trim, hvalue.trimChars_eq]
    rw [← forall_not_isNumeral_iff, ← hvalue.trimChars_eq] at hnone
    rw [← htrim]
    exact htext.readNumber_of_no_numeral hnone

theorem readNumber_eq_unreadable_iff {why : ReadFailure} :
    readNumber t p = .error (.unreadable q why) ↔ q = p ∧ NoText t p why := by
  constructor
  · intro h
    rcases readNumber_cases t p with ⟨text, n, -, -, heq⟩ | ⟨text, -, -, heq⟩ |
        ⟨why, hwhy, heq⟩ <;> rw [h] at heq <;> cases heq
    exact ⟨rfl, hwhy⟩
  · rintro ⟨rfl, hwhy⟩
    exact hwhy.readNumber_eq

/-- A file holds exactly the numbers that are written in it, with an optional plus sign, zeros in
front and blanks around them; what else stands there is told without the blanks, and what is no
text is told as such.  Every number is read back however it is written. -/
theorem readNumber_as_written (t : FileTree) (p : Path) :
    (∀ n : UInt64, readNumber t p = .ok n ↔ ∃ text core, HasText t p text ∧
      Text.Trimmed text.toList core ∧ Text.IsNumeral core n.toNat) ∧
    (∀ q value, readNumber t p = .error (.unexpected q value) ↔ q = p ∧ ∃ text,
      HasText t p text ∧ Text.Trimmed text.toList value.toList ∧
        ∀ n, Text.IsNumeral value.toList n → 2 ^ 64 ≤ n) ∧
    (∀ q why, readNumber t p = .error (.unreadable q why) ↔ q = p ∧ NoText t p why) ∧
    (∀ (n : UInt64) (sign before after : List Char) (zeros : Nat),
      (∀ c ∈ before ++ after, Text.isBlank c = true) → (sign = [] ∨ sign = ['+']) →
      HasText t p (String.ofList (before ++
        (sign ++ List.replicate zeros '0' ++ Nat.toDigits 10 n.toNat) ++ after)) →
      readNumber t p = .ok n) := by
  refine ⟨fun n => readNumber_eq_ok_iff, fun q value => readNumber_eq_unexpected_iff,
    fun q why => readNumber_eq_unreadable_iff, ?_⟩
  intro n sign before after zeros hblank hsign htext
  have hnumeral := Text.isNumeral_toDigits hsign zeros n.toNat
  rw [readNumber_eq_ok_iff]
  refine ⟨_, _, htext, ?_, hnumeral⟩
  rw [String.toList_ofList]
  exact Text.trimmed_between hblank fun c hc => hnumeral.isBlank_eq_false hc

end Cooling

end ThermalGauge
