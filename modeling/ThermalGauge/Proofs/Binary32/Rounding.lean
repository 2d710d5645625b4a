import ThermalGauge.Binary32.Basic
import Mathlib.Tactic.Linarith
import Mathlib.Tactic.Ring
import Mathlib.Algebra.Order.Ring.Nat
import Mathlib.Algebra.Order.Ring.Int

/-!
# Rounding to the nearest count

Counts of at most 24 significant bits lie in binades, in which they stand a power of two apart.
A count is reached exactly from the middle between it and the one before, and the middle goes to
the even significand.  So rounding keeps the order of quotients, leaves alone what needs no
rounding, and misses a whole count by at most its `2 ^ -24`th part.
-/

namespace ThermalGauge

section NearestEven

variable {num den k : Nat}

theorem lt_nearestEven_iff (hden : 0 < den) :
    k < nearestEven num den ↔
      (2 * k + 1) * den < 2 * num ∨ (2 * k + 1) * den = 2 * num ∧ k % 2 = 1 := by
  have hnum : den * (num / den) + num % den = num := Nat.div_add_mod num den
  have hrest : num % den < den := Nat.mod_lt num hden
  unfold nearestEven
  dsimp only
  generalize num / den = q at hnum ⊢
  generalize num % den = r at hnum hrest ⊢
  subst hnum
  rcases Nat.lt_trichotomy k q with hk | rfl | hk
  · have hstep : (2 * k + 1) * den + den ≤ 2 * (den * q) := by
      calc (2 * k + 1) * den + den = 2 * (den * (k + 1)) := by ring
        _ ≤ 2 * (den * q) := by gcongr; omega
    split <;> omega
  · have hstep : (2 * k + 1) * den = 2 * (den * k) + den := by ring
    split <;> omega
  · have hstep : 2 * (den * q) + 3 * den ≤ (2 * k + 1) * den := by
      calc 2 * (den * q) + 3 * den = (2 * (q + 1) + 1) * den := by ring
        _ ≤ (2 * k + 1) * den := by gcongr; omega
    split <;> omega

theorem two_mul_le_nearestEven (num : Nat) (hden : 0 < den) :
    2 * num ≤ 2 * (nearestEven num den * den) + den ∧
      2 * (nearestEven num den * den) ≤ 2 * num + den := by
  have hnum : den * (num / den) + num % den = num := Nat.div_add_mod num den
  have hrest : num % den < den := Nat.mod_lt num hden
  have hcomm : num / den * den = den * (num / den) := Nat.mul_comm _ _
  unfold nearestEven
  dsimp only
  split
  · omega
  · have hsucc : (num / den + 1) * den = num / den * den + den := Nat.succ_mul _ _
    omega

theorem nearestEven_mul_self (hden : 0 < den) (k : Nat) : nearestEven (k * den) den = k := by
  simp [nearestEven, Nat.mul_div_cancel k hden, hden]

theorem div_le_nearestEven (num den : Nat) : num / den ≤ nearestEven num den := by
  unfold nearestEven
  dsimp only
  split <;> omega

end NearestEven

section Spacing

variable {n e : Nat}

theorem spacing_eq (n : Nat) : spacing n = 2 ^ (n.log2 - 23) := by
  rw [spacing, Nat.shiftLeft_eq, Nat.one_mul]

theorem spacing_dvd_spacing {m : Nat} (h : m ≤ n) : spacing m ∣ spacing n := by
  rw [spacing_eq, spacing_eq]
  refine Nat.pow_dvd_pow 2 (Nat.sub_le_sub_right ?_ 23)
  rcases Nat.eq_zero_or_pos m with rfl | hpos
  · exact Nat.zero_le _
  · exact (Nat.le_log2 (by omega)).mpr ((Nat.log2_self_le (by omega)).trans h)

theorem two_pow_dvd_spacing (h : 2 ^ (e + 23) ≤ n) : 2 ^ e ∣ spacing n := by
  have hpos := Nat.two_pow_pos (e + 23)
  have hlog : e + 23 ≤ n.log2 := (Nat.le_log2 (by omega)).mpr h
  rw [spacing_eq]
  exact Nat.pow_dvd_pow 2 (by omega)

/-- Within a binade counts of at most 24 significant bits stand `2 ^ e` apart; the lowest one
starts from 0. -/
structure InBinade (e n : Nat) : Prop where
  low : e = 0 ∨ 2 ^ (e + 23) ≤ n
  high : n < 2 ^ (e + 24)

theorem InBinade.spacing_eq (h : InBinade e n) : spacing n = 2 ^ e := by
  rcases Nat.eq_zero_or_pos n with rfl | hpos
  · rcases h.low with rfl | hlow
    · rfl
    · have := Nat.two_pow_pos (e + 23)
      omega
  have hlog : n.log2 < e + 24 := (Nat.log2_lt (by omega)).mpr h.high
  rw [ThermalGauge.spacing_eq]
  congr 1
  rcases h.low with rfl | hlow
  · omega
  · have := (Nat.le_log2 (by omega)).mpr hlow
    omega

theorem exists_inBinade (n : Nat) : ∃ e, InBinade e n := by
  rcases Nat.lt_or_ge n (2 ^ 24) with h | h
  · exact ⟨0, .inl rfl, h⟩
  · have hne : n ≠ 0 := by omega
    have hlog : 24 ≤ n.log2 := (Nat.le_log2 hne).mpr h
    refine ⟨n.log2 - 23, .inr ?_, ?_⟩
    · rw [Nat.sub_add_cancel (by omega)]
      exact Nat.log2_self_le hne
    · rw [show n.log2 - 23 + 24 = n.log2 + 1 by omega]
      exact Nat.lt_log2_self

end Spacing

section RoundUnits

variable {num den k e : Nat}

theorem InBinade.roundUnits_eq (h : InBinade e (num / den)) :
    roundUnits num den = nearestEven num (den * 2 ^ e) * 2 ^ e := by
  rw [roundUnits, h.spacing_eq]

theorem InBinade.nearestEven_le (h : InBinade e (num / den)) :
    nearestEven num (den * 2 ^ e) ≤ 2 ^ 24 := by
  have hlimit := nearestEven_spacing_le num den
  rwa [h.spacing_eq, significandLimit, Nat.shiftLeft_eq, Nat.one_mul] at hlimit

theorem InBinade.le_nearestEven (h : InBinade e (num / den)) (he : e ≠ 0) :
    2 ^ 23 ≤ nearestEven num (den * 2 ^ e) := by
  refine Nat.le_trans ?_ (div_le_nearestEven num (den * 2 ^ e))
  rw [← Nat.div_div_eq_div_mul, Nat.le_div_iff_mul_le (Nat.two_pow_pos e), ← Nat.pow_add,
    Nat.add_comm]
  exact h.low.resolve_left he

theorem InBinade.roundUnits_le (h : InBinade e (num / den)) :
    roundUnits num den ≤ 2 ^ (e + 24) := by
  rw [h.roundUnits_eq, Nat.pow_add, Nat.mul_comm]
  exact Nat.mul_le_mul_left _ h.nearestEven_le

theorem InBinade.le_roundUnits (h : InBinade e (num / den)) (he : e ≠ 0) :
    2 ^ (e + 23) ≤ roundUnits num den := by
  rw [h.roundUnits_eq, Nat.pow_add, Nat.mul_comm (2 ^ e)]
  exact Nat.mul_le_mul_right _ (h.le_nearestEven he)

/-- A quotient of a lower binade lies before the middle below a count, and is rounded to less. -/
theorem InBinade.lt_count {b : Nat} (h : InBinade b (num / den)) (hden : 0 < den) (hb : b < e)
    (hk : 2 ^ 23 ≤ k) :
    roundUnits num den < (k + 1) * 2 ^ e ∧ 2 * num < (2 * k + 1) * 2 ^ e * den := by
  have hpow : 2 ^ (b + 24) ≤ 2 ^ (e + 23) := Nat.pow_le_pow_right (by omega) (by omega)
  have hcount : 2 ^ (e + 23) ≤ k * 2 ^ e := by
    rw [Nat.pow_add, Nat.mul_comm]
    exact Nat.mul_le_mul_right _ hk
  have hnum : num < k * 2 ^ e * den :=
    (Nat.div_lt_iff_lt_mul hden).mp (h.high.trans_le (hpow.trans hcount))
  have hround := h.roundUnits_le
  have hpos := Nat.two_pow_pos e
  have hmiddle : (2 * k + 1) * 2 ^ e * den = 2 * (k * 2 ^ e * den) + 2 ^ e * den := by ring
  rw [Nat.succ_mul]
  omega

/-- A quotient of a higher binade lies beyond a count, and is rounded to no less. -/
theorem InBinade.count_le {b : Nat} (h : InBinade b (num / den)) (hden : 0 < den) (hb : e < b)
    (hk : k < 2 ^ 24) :
    (k + 1) * 2 ^ e ≤ roundUnits num den ∧ (2 * k + 1) * 2 ^ e * den < 2 * num := by
  have hpow : 2 ^ (e + 24) ≤ 2 ^ (b + 23) := Nat.pow_le_pow_right (by omega) (by omega)
  have hcount : (k + 1) * 2 ^ e ≤ 2 ^ (b + 23) := by
    refine Nat.le_trans ?_ hpow
    rw [Nat.pow_add, Nat.mul_comm]
    exact Nat.mul_le_mul_left _ hk
  have hnum : 2 ^ (b + 23) * den ≤ num :=
    (Nat.le_div_iff_mul_le hden).mp (h.low.resolve_left (by omega))
  have hround := h.le_roundUnits (by omega)
  have hpos : 0 < 2 ^ e * den := Nat.mul_pos (Nat.two_pow_pos e) hden
  have hmiddle : (2 * k + 1) * 2 ^ e * den + 2 ^ e * den = 2 * ((k + 1) * 2 ^ e * den) := by ring
  have hbelow : (k + 1) * 2 ^ e * den ≤ 2 ^ (b + 23) * den := Nat.mul_le_mul_right _ hcount
  omega

/-- Where a count is reached: from the middle between it and the one before.  The middle itself
goes to the one with an even significand. -/
theorem succ_mul_le_roundUnits_iff (hden : 0 < den) (hk : k < 2 ^ 24)
    (hlow : e = 0 ∨ 2 ^ 23 ≤ k) :
    (k + 1) * 2 ^ e ≤ roundUnits num den ↔
      (2 * k + 1) * 2 ^ e * den < 2 * num ∨ (2 * k + 1) * 2 ^ e * den = 2 * num ∧ k % 2 = 1 := by
  obtain ⟨b, hb⟩ := exists_inBinade (num / den)
  rcases Nat.lt_trichotomy b e with hbe | rfl | hbe
  · obtain ⟨hround, hnum⟩ := hb.lt_count hden hbe (hlow.resolve_left (by omega))
    exact iff_of_false hround.not_ge (by omega)
  · rw [hb.roundUnits_eq, Nat.mul_le_mul_right_iff (Nat.two_pow_pos b), Nat.succ_le_iff,
      lt_nearestEven_iff (Nat.mul_pos hden (Nat.two_pow_pos b)), Nat.mul_assoc (2 * k + 1),
      Nat.mul_comm den]
  · obtain ⟨hround, hnum⟩ := hb.count_le hden hbe hk
    exact iff_of_true hround (.inl hnum)

/-- What is rounded to, other than 0, is a count as the rule above speaks of. -/
theorem exists_significand_roundUnits (h : roundUnits num den ≠ 0) :
    ∃ k e, roundUnits num den = (k + 1) * 2 ^ e ∧ k < 2 ^ 24 ∧ (e = 0 ∨ 2 ^ 23 ≤ k) := by
  obtain ⟨b, hb⟩ := exists_inBinade (num / den)
  have hle := hb.nearestEven_le
  have hge := hb.le_nearestEven
  rw [hb.roundUnits_eq] at h ⊢
  generalize nearestEven num (den * 2 ^ b) = j at h hle hge ⊢
  have hj : j ≠ 0 := by
    rintro rfl
    exact h (Nat.zero_mul _)
  by_cases hfirst : b ≠ 0 ∧ j = 2 ^ 23
  · -- The least count of a binade counts with the binade before.
    obtain ⟨hne, rfl⟩ := hfirst
    obtain ⟨e, rfl⟩ := Nat.exists_eq_succ_of_ne_zero hne
    refine ⟨2 ^ 24 - 1, e, ?_, by omega, .inr (by omega)⟩
    rw [Nat.pow_succ]
    omega
  · refine ⟨j - 1, b, by rw [Nat.sub_add_cancel (by omega)], by omega, ?_⟩
    by_cases hne : b = 0
    · exact .inl hne
    · have := hge hne
      exact .inr (by omega)

theorem roundUnits_le_roundUnits {num' den' : Nat} (hden : 0 < den) (hden' : 0 < den')
    (h : num * den' ≤ num' * den) : roundUnits num den ≤ roundUnits num' den' := by
  by_cases hzero : roundUnits num den = 0
  · omega
  obtain ⟨k, e, heq, hk, hlow⟩ := exists_significand_roundUnits hzero
  have hreached := (succ_mul_le_roundUnits_iff hden hk hlow).mp heq.ge
  rw [heq, succ_mul_le_roundUnits_iff hden' hk hlow]
  generalize (2 * k + 1) * 2 ^ e = middle at hreached ⊢
  have hcross : 2 * num * den' ≤ 2 * num' * den := by
    rw [Nat.mul_assoc, Nat.mul_assoc]
    exact Nat.mul_le_mul_left 2 h
  have hmiddle : middle * den ≤ 2 * num := hreached.elim Nat.le_of_lt fun h => h.1.le
  have hle : middle * den' * den ≤ 2 * num' * den := by
    rw [Nat.mul_right_comm]
    exact (Nat.mul_le_mul_right den' hmiddle).trans hcross
  rcases (Nat.le_of_mul_le_mul_right hle hden).lt_or_eq with hlt | hmid
  · exact .inl hlt
  · refine .inr ⟨hmid, ?_⟩
    -- On the middle itself the other quotient is the same.
    have hback : 2 * num * den' ≤ middle * den * den' := by
      rwa [Nat.mul_right_comm middle, hmid]
    rcases hreached with hlt | ⟨-, hodd⟩
    · exact absurd (Nat.le_of_mul_le_mul_right hback hden') (by omega)
    · exact hodd

/-- Equal quotients are rounded alike. -/
theorem roundUnits_congr {num' den' : Nat} (hden : 0 < den) (hden' : 0 < den')
    (h : num * den' = num' * den) : roundUnits num den = roundUnits num' den' :=
  Nat.le_antisymm (roundUnits_le_roundUnits hden hden' h.le)
    (roundUnits_le_roundUnits hden' hden h.ge)

/-- What needs no rounding stays. -/
theorem roundUnits_of_spacing_dvd {n : Nat} (h : spacing n ∣ n) : roundUnits n 1 = n := by
  obtain ⟨k, hk⟩ := h
  rw [roundUnits, Nat.div_one, Nat.one_mul]
  nth_rewrite 1 [hk]
  rw [Nat.mul_comm (spacing n), nearestEven_mul_self (spacing_pos n), Nat.mul_comm]
  exact hk.symm

/-- The error is at most `2 ^ -24` of the count. -/
theorem roundUnits_error (n : Nat) :
    2 ^ 24 * n ≤ 2 ^ 24 * roundUnits n 1 + n ∧ 2 ^ 24 * roundUnits n 1 ≤ 2 ^ 24 * n + n := by
  obtain ⟨e, he⟩ := exists_inBinade n
  by_cases hzero : e = 0
  · have hspacing : spacing n = 1 := by rw [he.spacing_eq, hzero, Nat.pow_zero]
    rw [roundUnits_of_spacing_dvd (hspacing ▸ Nat.one_dvd n)]
    omega
  have hsmall : 2 ^ 23 * 2 ^ e ≤ n := by
    rw [← Nat.pow_add, Nat.add_comm]
    exact he.low.resolve_left hzero
  have hbounds := two_mul_le_nearestEven n (Nat.two_pow_pos e)
  rw [InBinade.roundUnits_eq (by rwa [Nat.div_one]), Nat.one_mul]
  omega

end RoundUnits

end ThermalGauge
