import ThermalGauge.Load

/-!
# The greatest load

Loads are ordered by their percentages.  The greatest of some loads is one of them and at least
as great as each.
-/

namespace ThermalGauge

namespace Load

variable {a b c : Load}

theorem le_refl (a : Load) : a ≤ a := Nat.le_refl a.percent

theorem le_trans (hab : a ≤ b) (hbc : b ≤ c) : a ≤ c := Nat.le_trans hab hbc

theorem le_antisymm (hab : a ≤ b) (hba : b ≤ a) : a = b := Load.ext (Nat.le_antisymm hab hba)

theorem le_max_left (a b : Load) : a ≤ max a b := by
  rw [le_def, percent_max]
  exact Nat.le_max_left _ _

theorem le_max_right (a b : Load) : b ≤ max a b := by
  rw [le_def, percent_max]
  exact Nat.le_max_right _ _

theorem max_eq_left_or_right (a b : Load) : max a b = a ∨ max a b = b := by
  rcases Nat.le_total a.percent b.percent with h | h
  · exact .inr (Load.ext (by rw [percent_max, Nat.max_eq_right h]))
  · exact .inl (Load.ext (by rw [percent_max, Nat.max_eq_left h]))

theorem foldl_max_spec (l : Load) (ls : List Load) :
    ls.foldl max l ∈ l :: ls ∧ ∀ m ∈ l :: ls, m ≤ ls.foldl max l := by
  induction ls generalizing l with
  | nil => simp [le_refl]
  | cons m ls ih =>
      obtain ⟨hmem, hle⟩ := ih (max l m)
      have hfirst : max l m ≤ ls.foldl max (max l m) := hle _ (List.mem_cons_self ..)
      refine ⟨?_, ?_⟩
      · rcases List.mem_cons.mp hmem with heq | hlater
        · rw [List.foldl_cons, heq]
          rcases max_eq_left_or_right l m with h | h <;> simp [h]
        · exact List.mem_cons_of_mem _ (List.mem_cons_of_mem _ hlater)
      · intro k hk
        rcases List.mem_cons.mp hk with rfl | hk
        · exact le_trans (le_max_left k m) hfirst
        · rcases List.mem_cons.mp hk with rfl | hk
          · exact le_trans (le_max_right l k) hfirst
          · exact hle k (List.mem_cons_of_mem _ hk)

theorem greatest_eq_some_iff {ls : List Load} {l : Load} :
    greatest ls = some l ↔ l ∈ ls ∧ ∀ m ∈ ls, m ≤ l := by
  cases ls with
  | nil => simp [greatest]
  | cons m ls =>
      obtain ⟨hmem, hle⟩ := foldl_max_spec m ls
      constructor
      · intro h
        cases h
        exact ⟨hmem, hle⟩
      · rintro ⟨hl, hgreatest⟩
        exact congrArg some (le_antisymm (hgreatest _ hmem) (hle _ hl))

variable {ls ms : List Load}

/-- It depends on which loads there are, and on nothing else. -/
theorem greatest_congr (h : ∀ l, l ∈ ls ↔ l ∈ ms) : greatest ls = greatest ms := by
  apply Option.ext
  intro l
  simp only [greatest_eq_some_iff, h]

instance : Std.Associative (max : Load → Load → Load) where
  assoc a b c := Load.ext (by simp only [percent_max, Nat.max_assoc])

theorem greatest_append (ls ms : List Load) :
    greatest (ls ++ ms) = (greatest ls).merge max (greatest ms) := by
  cases ls with
  | nil => simp [greatest]
  | cons l ls =>
      cases ms with
      | nil => simp [greatest]
      | cons m ms => simp [greatest, List.foldl_assoc]

end Load

end ThermalGauge
