import ThermalGauge.Proofs.Binary32.Written
import ThermalGauge.Proofs.Settings.Chains

/-!
# Margins that are read

A text gives a margin if it is a decimal number between blanks that some positive finite value is
nearest to, and the margin is that value.  The number is the one that is written, except that an
exponent of 655360 or more counts by its leading digits.  Only in a text of more than 65000
characters can this make a difference.
-/

namespace ThermalGauge

namespace Settings

open Binary32 (InRange IsNearest)
open Decimal (Literal Unsigned)

variable {text : String} {margin : Binary32}

/-- The text is this literal between blanks. -/
def Spells (text : String) (l : Literal) : Prop := Text.Trimmed text.toList l.text

theorem spells_iff {l : Literal} : Spells text l ↔ l.text = (Text.trim text).toList := by
  rw [Spells, Text.trimmed_iff, Text.toList_trim, eq_comm]

/-- Where there is a number in range, there is a margin. -/
theorem readMargin_of_spells {l : Literal} (hspells : Spells text l) (hrange : InRange l.counted) :
    readMargin text = .ok l.rounded := by
  have hplace := l.place_rounded
  obtain ⟨hpos, hlimit⟩ := Binary32.inRange_iff.mp hrange
  rw [← hplace] at hpos hlimit
  have hfinite := Binary32.isFinite_of_place l.rounded_ne_nan (by omega) hlimit
  rw [readMargin_eq_ok_iff, Binary32.read_eq_ok_iff hfinite]
  exact ⟨⟨l, spells_iff.mp hspells, rfl⟩, hfinite, Binary32.isPositive_iff.mpr hpos⟩

theorem readMargin_eq_ok_iff_counted :
    readMargin text = .ok margin ↔
      ∃ l : Literal, Spells text l ∧ InRange l.counted ∧ IsNearest l.counted margin := by
  constructor
  · intro h
    obtain ⟨hread, hfinite, hpositive⟩ := readMargin_eq_ok_iff.mp h
    obtain ⟨l, htext, rfl⟩ := (Binary32.read_eq_ok_iff hfinite).mp hread
    have hplace := l.place_rounded
    have hrange : InRange l.counted := by
      rw [Binary32.inRange_iff, ← hplace]
      exact ⟨Binary32.isPositive_iff.mp hpositive, (Binary32.place_lt_unitsLimit hfinite).2⟩
    have hnearest := (Binary32.isNearest_iff hrange.pos.le hfinite hplace).mpr ⟨hfinite, rfl⟩
    exact ⟨l, spells_iff.mpr htext, hrange, hnearest⟩
  · rintro ⟨l, hspells, hrange, hnearest⟩
    have hread := readMargin_of_spells hspells hrange
    obtain ⟨hfinite, hpositive⟩ := usable_of_readMargin hread
    obtain ⟨hmargin, hplace⟩ :=
      (Binary32.isNearest_iff hrange.pos.le hfinite l.place_rounded).mp hnearest
    rw [hread, Binary32.eq_of_place_eq hfinite hpositive hmargin hplace.symm]

theorem readMargin_cases (text : String) :
    (∃ margin, readMargin text = .ok margin) ∨ readMargin text = .error (.marginText text) := by
  unfold readMargin
  split
  · split
    · exact .inl ⟨_, rfl⟩
    · exact .inr rfl
  · exact .inr rfl

theorem readMargin_eq_error_iff {why : Misconfiguration} :
    readMargin text = .error why ↔
      why = .marginText text ∧ ∀ l : Literal, Spells text l → ¬ InRange l.counted := by
  constructor
  · intro h
    constructor
    · rcases readMargin_cases text with ⟨margin, hmargin⟩ | herror
      · rw [hmargin] at h
        cases h
      · rw [herror] at h
        cases h
        rfl
    · intro l hspells hrange
      rw [readMargin_of_spells hspells hrange] at h
      cases h
  · rintro ⟨rfl, hnone⟩
    rcases readMargin_cases text with ⟨margin, hmargin⟩ | herror
    · obtain ⟨l, hspells, hrange, -⟩ := readMargin_eq_ok_iff_counted.mp hmargin
      exact absurd hrange (hnone l hspells)
    · exact herror

theorem readMargin_eq_ok_iff_written (h : (Text.trim text).length ≤ 65000) :
    readMargin text = .ok margin ↔
      ∃ l : Literal, Spells text l ∧ InRange l.value ∧ IsNearest l.value margin := by
  rw [readMargin_eq_ok_iff_counted]
  apply exists_congr
  intro l
  apply and_congr_right
  intro hspells
  have hlength : l.text.length ≤ 65000 := by
    rw [spells_iff.mp hspells, String.length_toList]
    exact h
  rcases l.counted_eq_value_or hlength with heq | ⟨hcounted, hvalue⟩
  · rw [heq]
  · exact iff_of_false (fun h => hcounted h.1) fun h => hvalue h.1

/-- A margin is read exactly from the decimal numbers in range, as the value nearest to the number,
which a ramp can have; any other text is refused, and quoted as it was given.  Where 65000
characters or fewer are left between the blanks, the number is the one that is written. -/
theorem readMargin_nearest (text : String) :
    (∀ margin, readMargin text = .ok margin ↔
      ∃ l : Literal, Spells text l ∧ InRange l.counted ∧ IsNearest l.counted margin) ∧
    ((Text.trim text).length ≤ 65000 → ∀ margin, readMargin text = .ok margin ↔
      ∃ l : Literal, Spells text l ∧ InRange l.value ∧ IsNearest l.value margin) ∧
    (∀ why, readMargin text = .error why ↔
      why = .marginText text ∧ ∀ l : Literal, Spells text l → ¬ InRange l.counted) ∧
    ∀ margin, readMargin text = .ok margin →
      ∃ ramp, Ramp.ofMargin margin = .ok ramp ∧ ramp.margin = margin := by
  refine ⟨fun margin => readMargin_eq_ok_iff_counted, ?_, fun why => readMargin_eq_error_iff, ?_⟩
  · intro h margin
    exact readMargin_eq_ok_iff_written h
  · intro margin
    exact ofMargin_of_readMargin

/-- A one with so many zeros, and an exponent of which the last digit does not count. -/
def outsized (zeros : Nat) : Literal where
  sign := .unsigned
  number :=
    { whole := '1' :: List.replicate zeros '0'
      fraction := none
      exponent :=
        some ⟨'e', .minus, "655360".toList, .inl rfl, by decide, List.all_eq_true.mp (by decide)⟩
      ne_nil := List.cons_ne_nil _ _
      isDigit := by
        intro c hc
        rw [Option.getD_none, List.append_nil] at hc
        rcases List.mem_cons.mp hc with rfl | hzero
        · decide
        · rw [List.eq_of_mem_replicate hzero]
          decide }

theorem digits_outsized (count : Nat → Nat) (zeros : Nat) :
    ((outsized zeros).number.decimal count).digits = 10 ^ zeros := by
  have hdigits : (outsized zeros).number.digits = '1' :: List.replicate zeros '0' :=
    List.append_nil _
  rw [Unsigned.decimal, hdigits, Nat.ofDigitChars_cons, Nat.ofDigitChars_replicate_zero]
  exact Nat.mul_one _

theorem value_outsized (count : Nat → Nat) (zeros : Nat) :
    ((outsized zeros).number.decimal count).value = (10 : ℚ) ^ ((zeros : Int) - count 655360) := by
  have hmagnitude : Nat.ofDigitChars 10 "655360".toList 0 = 655360 := by decide
  have hexponent : ((outsized zeros).number.decimal count).exponent = -(count 655360 : Int) := by
    show -(count (Nat.ofDigitChars 10 "655360".toList 0) : Int) - 0 = _
    rw [hmagnitude, sub_zero]
  rw [Decimal.value, hexponent, digits_outsized, sub_eq_add_neg, zpow_add₀ (by norm_num),
    Nat.cast_pow, zpow_natCast, Nat.cast_ofNat]

theorem counted_outsized : (outsized 65536).counted = 1 := by
  have hcut : Decimal.leading 655360 = 65536 := by
    rw [Decimal.leading_of_le (by decide), Decimal.leading_of_lt (by decide)]
  have hvalue := value_outsized Decimal.leading 65536
  rw [hcut, Nat.cast_ofNat, sub_self, zpow_zero] at hvalue
  exact hvalue

theorem not_inRange_outsized : ¬ InRange (outsized 65536).value := by
  have hvalue : (outsized 65536).value = (10 : ℚ) ^ ((65536 : Nat) - (655360 : Nat) : Int) :=
    value_outsized id 65536
  apply Decimal.not_inRange_of_le
  rw [hvalue]
  exact zpow_le_zpow_right₀ (by norm_num) (by decide)

/-- What is written is far below the range, and is read as one. -/
theorem readMargin_not_written :
    ¬ ∀ (text : String) (margin : Binary32), readMargin text = .ok margin ↔
      ∃ l : Literal, Spells text l ∧ InRange l.value ∧ IsNearest l.value margin := by
  intro h
  let text := String.ofList (outsized 65536).text
  have hspells : Spells text (outsized 65536) := by
    rw [Spells, String.toList_ofList]
    exact Text.trimmed_self (outsized 65536).isBlank_eq_false
  have hread : readMargin text = .ok (outsized 65536).rounded := by
    apply readMargin_of_spells hspells
    rw [counted_outsized, InRange]
    norm_num
  obtain ⟨l, hspells', hrange, -⟩ := (h text _).mp hread
  -- there is no other way to take the text
  have hl : l = outsized 65536 :=
    Literal.text_injective ((spells_iff.mp hspells').trans (spells_iff.mp hspells).symm)
  rw [hl] at hrange
  exact not_inRange_outsized hrange

end Settings

end ThermalGauge
