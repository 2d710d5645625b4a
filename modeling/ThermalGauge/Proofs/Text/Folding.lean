import ThermalGauge.Selection
import ThermalGauge.Proofs.Text.Trimming
import Mathlib.Data.List.Forall2

/-!
# Folding

A folded text has lost the White_Space at both ends and has small letters for the capital ones of
ASCII.  No other letter has a small form here, and no letter is blank, so neither the padding of a
text nor the case of its ASCII letters makes a difference to what it is folded to.
-/

namespace ThermalGauge

namespace Text

/-- The characters with the property White_Space. -/
def whiteSpace : List Char :=
  ['\t', '\n', '\x0b', '\x0c', '\r', ' ', '\u0085', '\u00a0', '\u1680', '\u2000', '\u2001',
    '\u2002', '\u2003', '\u2004', '\u2005', '\u2006', '\u2007', '\u2008', '\u2009', '\u200a',
    '\u2028', '\u2029', '\u202f', '\u205f', '\u3000']

/-- The two are one character, or the capital and the small form of one letter of ASCII. -/
def SameButCase (c d : Char) : Prop :=
  c = d ∨ ∃ i < 26, (c.toNat = 0x41 + i ∨ c.toNat = 0x61 + i) ∧
    (d.toNat = 0x41 + i ∨ d.toNat = 0x61 + i)

/-- The second is the small form of the first if that is a capital letter of ASCII, and otherwise
the same character. -/
def Lowers (c d : Char) : Prop :=
  if 0x41 ≤ c.toNat ∧ c.toNat ≤ 0x5A then d.toNat = c.toNat + 0x20 else d = c

/-- What stands between the White_Space at both ends of the text, in small letters of ASCII. -/
def FoldsTo (text folded : String) : Prop :=
  ∃ before core after, text.toList = before ++ core ++ after ∧
    (∀ c ∈ before ++ after, c ∈ whiteSpace) ∧ (∀ c ∈ core.head?, c ∉ whiteSpace) ∧
      (∀ c ∈ core.getLast?, c ∉ whiteSpace) ∧ List.Forall₂ Lowers core folded.toList

/-- The second text is the first with White_Space around it and letters of ASCII in another case. -/
def Varies (text text' : String) : Prop :=
  ∃ before core after, text'.toList = before ++ core ++ after ∧
    (∀ c ∈ before ++ after, c ∈ whiteSpace) ∧ List.Forall₂ SameButCase text.toList core

variable {c d : Char} {cs core before after : List Char} {text text' folded : String}

theorem isBlank_iff_mem_whiteSpace : isBlank c = true ↔ c ∈ whiteSpace := by
  have hmem : c ∈ whiteSpace ↔ c.toNat ∈ whiteSpace.map Char.toNat := by
    simp only [List.mem_map, Char.toNat_inj, exists_eq_right]
  have hnumbers : whiteSpace.map Char.toNat = [0x9, 0xA, 0xB, 0xC, 0xD, 0x20, 0x85, 0xA0, 0x1680,
      0x2000, 0x2001, 0x2002, 0x2003, 0x2004, 0x2005, 0x2006, 0x2007, 0x2008, 0x2009, 0x200A,
      0x2028, 0x2029, 0x202F, 0x205F, 0x3000] := by decide
  simp only [hmem, hnumbers, isBlank, Bool.or_eq_true, Bool.and_eq_true, decide_eq_true_eq,
    List.mem_cons, List.not_mem_nil, or_false]
  omega

theorem isBlank_eq_false_iff : isBlank c = false ↔ c ∉ whiteSpace := by
  simp [← isBlank_iff_mem_whiteSpace]

theorem toNat_toLower (c : Char) :
    c.toLower.toNat = if 0x41 ≤ c.toNat ∧ c.toNat ≤ 0x5A then c.toNat + 0x20 else c.toNat := by
  by_cases h : c.val ≥ 'A'.val ∧ c.val ≤ 'Z'.val
  · have hval : c.toLower.val = c.val + ('a'.val - 'A'.val) := congrArg Char.val (dif_pos h)
    have hbounds : 0x41 ≤ c.toNat ∧ c.toNat ≤ 0x5A := h
    have hsum : c.toLower.toNat = (c.val + 0x20).toNat := congrArg UInt32.toNat hval
    have hshift : (c.val + 0x20).toNat = (c.toNat + 0x20) % 2 ^ 32 := UInt32.toNat_add ..
    rw [if_pos hbounds, hsum, hshift]
    omega
  · have hsame : c.toLower = c := dif_neg h
    have hbounds : ¬ (0x41 ≤ c.toNat ∧ c.toNat ≤ 0x5A) := h
    rw [if_neg hbounds, hsame]

theorem isBlank_of_letter (h : 0x41 ≤ c.toNat ∧ c.toNat ≤ 0x7A) : isBlank c = false := by
  simp only [isBlank, Bool.or_eq_false_iff, Bool.and_eq_false_iff, decide_eq_false_iff_not]
  omega

theorem isBlank_toLower (c : Char) : isBlank c.toLower = isBlank c := by
  have hnumber := toNat_toLower c
  split at hnumber
  · have hcapital : isBlank c = false := isBlank_of_letter (by omega)
    have hsmall : isBlank c.toLower = false := isBlank_of_letter (by omega)
    exact hsmall.trans hcapital.symm
  · exact congrArg isBlank (Char.toNat_inj.mp hnumber)

theorem lowers_iff : Lowers c d ↔ c.toLower = d := by
  have hnumber := toNat_toLower c
  unfold Lowers
  split
  · next h =>
    rw [if_pos h] at hnumber
    rw [← Char.toNat_inj, hnumber, eq_comm]
  · next h =>
    rw [if_neg h, Char.toNat_inj] at hnumber
    rw [hnumber, eq_comm]

theorem sameButCase_iff : SameButCase c d ↔ c.toLower = d.toLower := by
  have hc := toNat_toLower c
  have hd := toNat_toLower d
  constructor
  · rintro (rfl | ⟨i, hi, hci, hdi⟩)
    · rfl
    · apply Char.toNat_inj.mp
      split at hc <;> split at hd <;> omega
  · intro h
    by_cases hne : c = d
    · exact .inl hne
    · have hnumbers : c.toNat ≠ d.toNat := fun heq => hne (Char.toNat_inj.mp heq)
      rw [h] at hc
      refine .inr ⟨d.toLower.toNat - 0x61, ?_⟩
      split at hc <;> split at hd <;> omega

theorem forall₂_lowers_iff : List.Forall₂ Lowers cs core ↔ cs.map Char.toLower = core := by
  have hlowers : Lowers = fun c d => c.toLower = d := funext₂ fun _ _ => propext lowers_iff
  rw [hlowers, ← List.forall₂_map_left_iff (R := Eq), List.forall₂_eq_eq_eq]

theorem forall₂_sameButCase_iff :
    List.Forall₂ SameButCase cs core ↔ cs.map Char.toLower = core.map Char.toLower := by
  have hsame : SameButCase = fun c d => c.toLower = d.toLower :=
    funext₂ fun _ _ => propext sameButCase_iff
  rw [hsame, ← List.forall₂_map_right_iff (R := fun c d => Char.toLower c = d),
    ← List.forall₂_map_left_iff (R := Eq), List.forall₂_eq_eq_eq]

theorem Trimmed.padded (h : Trimmed cs core) (hblank : ∀ c ∈ before ++ after, isBlank c = true) :
    Trimmed (before ++ cs ++ after) core := by
  obtain ⟨front, back, rfl, hfront, hback⟩ := h.blanks
  refine ⟨⟨before ++ front, back ++ after, by simp only [List.append_assoc], ?_, ?_⟩, h.first,
    h.last⟩
  · intro c hc
    rcases List.mem_append.mp hc with hc | hc
    · exact hblank c (List.mem_append_left after hc)
    · exact hfront c hc
  · intro c hc
    rcases List.mem_append.mp hc with hc | hc
    · exact hback c hc
    · exact hblank c (List.mem_append_right before hc)

theorem Trimmed.map {f : Char → Char} (h : Trimmed cs core)
    (hf : ∀ c, isBlank (f c) = isBlank c) : Trimmed (cs.map f) (core.map f) := by
  obtain ⟨before, after, rfl, hbefore, hafter⟩ := h.blanks
  refine ⟨⟨before.map f, after.map f, by simp only [List.map_append], ?_, ?_⟩, ?_, ?_⟩
  · simpa only [List.forall_mem_map, hf] using hbefore
  · simpa only [List.forall_mem_map, hf] using hafter
  · simpa [hf] using h.first
  · simpa [hf] using h.last

theorem map_toLower_trimChars (cs : List Char) :
    (trimChars cs).map Char.toLower = trimChars (cs.map Char.toLower) :=
  ((trimmed_trimChars cs).map isBlank_toLower).trimChars_eq.symm

theorem trimChars_padded (cs : List Char) (hblank : ∀ c ∈ before ++ after, isBlank c = true) :
    trimChars (before ++ cs ++ after) = trimChars cs :=
  ((trimmed_trimChars cs).padded hblank).trimChars_eq

/-- A text has one folded form. -/
theorem foldsTo_iff : FoldsTo text folded ↔ Selection.fold text = folded := by
  have hfold : Selection.fold text = folded ↔
      (trimChars text.toList).map Char.toLower = folded.toList := by
    rw [← String.toList_inj, Selection.fold, String.toList_ofList]
  rw [hfold]
  constructor
  · rintro ⟨before, core, after, htext, hblank, hfirst, hlast, hfolded⟩
    simp only [← isBlank_iff_mem_whiteSpace, Bool.not_eq_true] at hblank hfirst hlast
    have htrimmed : Trimmed text.toList core :=
      ⟨⟨before, after, htext, fun c hc => hblank c (List.mem_append_left after hc),
        fun c hc => hblank c (List.mem_append_right before hc)⟩, hfirst, hlast⟩
    rw [htrimmed.trimChars_eq]
    exact forall₂_lowers_iff.mp hfolded
  · intro hfolded
    obtain ⟨⟨before, after, htext, hbefore, hafter⟩, hfirst, hlast⟩ :=
      trimmed_trimChars text.toList
    simp only [isBlank_iff_mem_whiteSpace, isBlank_eq_false_iff] at hbefore hafter hfirst hlast
    exact ⟨before, _, after, htext, List.forall_mem_append.mpr ⟨hbefore, hafter⟩, hfirst, hlast,
      forall₂_lowers_iff.mpr hfolded⟩

theorem Varies.fold_eq (h : Varies text text') : Selection.fold text' = Selection.fold text := by
  obtain ⟨before, core, after, htext', hblank, hcore⟩ := h
  have hlower := forall₂_sameButCase_iff.mp hcore
  simp only [← isBlank_iff_mem_whiteSpace] at hblank
  calc
    Selection.fold text' = String.ofList ((trimChars core).map Char.toLower) := by
      rw [Selection.fold, htext', trimChars_padded core hblank]
    _ = String.ofList (trimChars (text.toList.map Char.toLower)) := by
      rw [map_toLower_trimChars, ← hlower]
    _ = Selection.fold text := by rw [← map_toLower_trimChars, Selection.fold]

end Text

end ThermalGauge
