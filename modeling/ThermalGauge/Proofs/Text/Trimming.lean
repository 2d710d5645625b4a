import ThermalGauge.Text.Blank
import Mathlib.Data.List.TakeWhile

/-!
# Trimming

What trimming leaves neither begins nor ends with a blank, and what it takes away is blank.  This
says already what is left.
-/

namespace ThermalGauge

section Stretches

variable {α : Type} {p : α → Bool} {body rest : List α}

theorem takeWhile_append_of_stop (hbody : ∀ a ∈ body, p a = true)
    (hstop : ∀ a ∈ rest.head?, p a = false) : (body ++ rest).takeWhile p = body := by
  rw [List.takeWhile_append_of_pos hbody]
  cases rest with
  | nil => simp
  | cons a rest => simp [hstop a rfl]

theorem dropWhile_append_of_stop (hbody : ∀ a ∈ body, p a = true)
    (hstop : ∀ a ∈ rest.head?, p a = false) : (body ++ rest).dropWhile p = rest := by
  rw [List.dropWhile_append_of_pos hbody]
  cases rest with
  | nil => rfl
  | cons a rest => simp [hstop a rfl]

theorem head?_dropWhile_eq_false (l : List α) : ∀ a ∈ (l.dropWhile p).head?, p a = false := by
  intro a ha
  have hne : l.dropWhile p ≠ [] := by
    intro hnil
    rw [hnil] at ha
    cases ha
  rw [List.head?_eq_some_head hne, Option.mem_some_iff] at ha
  exact ha ▸ List.head_dropWhile_not p hne

end Stretches

namespace Text

variable {cs core : List Char}

theorem trimChars_eq_nil_iff : trimChars cs = [] ↔ ∀ c ∈ cs, isBlank c = true := by
  rw [trimChars, List.reverse_eq_nil_iff, List.dropWhile_eq_nil_iff]
  simp only [List.mem_reverse]
  rw [← List.dropWhile_eq_nil_iff (l := cs)]
  constructor
  · intro h
    -- the first character that is kept would be both blank and not
    refine Classical.byContradiction fun hne => ?_
    have hfirst := List.head_dropWhile_not isBlank hne
    rw [h _ (List.head_mem hne)] at hfirst
    cases hfirst
  · intro h c hc
    rw [h] at hc
    cases hc

theorem trim_eq_empty_iff {s : String} : trim s = "" ↔ ∀ c ∈ s.toList, isBlank c = true := by
  rw [← trimChars_eq_nil_iff, ← toList_trim, String.toList_eq_nil_iff]

/-- The blanks at both ends of `cs` are taken away, and `core` is left. -/
structure Trimmed (cs core : List Char) : Prop where
  blanks : ∃ before after, cs = before ++ core ++ after ∧ (∀ c ∈ before, isBlank c = true) ∧
    ∀ c ∈ after, isBlank c = true
  first : ∀ c ∈ core.head?, isBlank c = false
  last : ∀ c ∈ core.getLast?, isBlank c = false

theorem trimmed_trimChars (cs : List Char) : Trimmed cs (trimChars cs) := by
  let kept := cs.dropWhile isBlank
  have hsplit : kept = trimChars cs ++ (kept.reverse.takeWhile isBlank).reverse := by
    rw [trimChars, ← List.reverse_append, List.takeWhile_append_dropWhile, List.reverse_reverse]
  refine ⟨⟨cs.takeWhile isBlank, (kept.reverse.takeWhile isBlank).reverse, ?_, ?_, ?_⟩, ?_, ?_⟩
  · rw [List.append_assoc, ← hsplit, List.takeWhile_append_dropWhile]
  · intro c hc
    exact List.mem_takeWhile_imp hc
  · intro c hc
    exact List.mem_takeWhile_imp (List.mem_reverse.mp hc)
  · intro c hc
    apply head?_dropWhile_eq_false cs c
    show c ∈ kept.head?
    rw [hsplit, List.head?_append, Option.mem_def.mp hc]
    rfl
  · intro c hc
    rw [trimChars, List.getLast?_reverse] at hc
    exact head?_dropWhile_eq_false _ c hc

theorem Trimmed.trimChars_eq (h : Trimmed cs core) : trimChars cs = core := by
  obtain ⟨before, after, rfl, hbefore, hafter⟩ := h.blanks
  by_cases hcore : core = []
  · rw [hcore, trimChars_eq_nil_iff]
    intro c hc
    simp only [List.append_nil, List.mem_append] at hc
    exact hc.elim (hbefore c) (hafter c)
  · have hfirst : ∀ c ∈ (core ++ after).head?, isBlank c = false := by
      intro c hc
      rw [List.head?_append, List.head?_eq_some_head hcore] at hc
      apply h.first
      rwa [List.head?_eq_some_head hcore]
    rw [trimChars, List.append_assoc, dropWhile_append_of_stop hbefore hfirst,
      List.reverse_append, dropWhile_append_of_stop, List.reverse_reverse]
    · intro c hc
      exact hafter c (List.mem_reverse.mp hc)
    · rw [List.head?_reverse]
      exact h.last

theorem trimmed_between {before after : List Char}
    (hblank : ∀ c ∈ before ++ after, isBlank c = true) (hcore : ∀ c ∈ core, isBlank c = false) :
    Trimmed (before ++ core ++ after) core := by
  refine ⟨⟨before, after, rfl, ?_, ?_⟩, ?_, ?_⟩
  · intro c hc
    exact hblank c (List.mem_append_left after hc)
  · intro c hc
    exact hblank c (List.mem_append_right before hc)
  · intro c hc
    exact hcore c (List.mem_of_mem_head? hc)
  · intro c hc
    exact hcore c (List.mem_of_mem_getLast? hc)

theorem trimmed_self (h : ∀ c ∈ core, isBlank c = false) : Trimmed core core := by
  have hempty : ∀ c ∈ ([] ++ [] : List Char), isBlank c = true := by simp
  simpa using trimmed_between hempty h

theorem trimmed_iff : Trimmed cs core ↔ trimChars cs = core := by
  constructor
  · exact Trimmed.trimChars_eq
  · rintro rfl
    exact trimmed_trimChars cs

end Text

end ThermalGauge
