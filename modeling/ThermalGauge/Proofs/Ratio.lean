import ThermalGauge.Proofs.Load
import Mathlib.Tactic.Linarith
import Mathlib.Tactic.NormNum
import Mathlib.Algebra.Order.Ring.Int

/-!
# Shares of steps

The share of the steps that are taken is the quotient rounded down, as if it were found in whole
numbers of any size.  So it grows with the steps taken and falls with the steps there are, and
depends on their proportion alone.
-/

namespace ThermalGauge

namespace Load

section Quotient

variable {n d : Nat}

theorem natCast_div_eq_iff {p : Int} (hd : 0 < d) :
    ((n / d : Nat) : Int) = p ↔ p * d ≤ n ∧ (n : Int) < (p + 1) * d := by
  have hdiv : (0 : Int) < d := by exact_mod_cast hd
  rw [Int.natCast_ediv, ← Int.le_ediv_iff_mul_le hdiv, ← Int.ediv_lt_iff_lt_mul hdiv]
  omega

theorem share_le_share_of_taken_le {c c' m : Nat} (h : c ≤ c') :
    100 * min c m / m ≤ 100 * min c' m / m := by
  apply Nat.div_le_div_right
  apply Nat.mul_le_mul_left
  omega

theorem share_of_le {c m : Nat} (hm : 0 < m) (h : m ≤ c) : 100 * min c m / m = 100 := by
  rw [Nat.min_eq_right h, Nat.mul_div_cancel _ hm]

theorem share_lt_of_lt {c m : Nat} (h : c < m) : 100 * min c m / m < 100 := by
  rw [Nat.min_eq_left h.le, Nat.div_lt_iff_lt_mul (by omega)]
  omega

theorem share_le_share_of_le_all {c m m' : Nat} (hm : 0 < m) (h : m ≤ m') :
    100 * min c m' / m' ≤ 100 * min c m / m := by
  rcases Nat.lt_or_ge c m with hc | hc
  · rw [Nat.min_eq_left hc.le, Nat.min_eq_left (by omega)]
    exact Nat.div_le_div_left h hm
  · rw [share_of_le hm hc]
    exact share_le_hundred c m'

end Quotient

section Ratio

variable {current current' max max' : UInt64} {l l' : Load}

theorem toNat_pos_of_ne_zero (h : max ≠ 0) : 0 < max.toNat := by
  apply Nat.pos_of_ne_zero
  rintro hzero
  exact h (UInt64.toNat_inj.mp hzero)

theorem exists_ofRatio (current : UInt64) (h : max ≠ 0) :
    ∃ l, ofRatio current max = some l ∧
      l.percent = 100 * min current.toNat max.toNat / max.toNat := by
  have hsome : ofRatio current max ≠ Option.none := mt ofRatio_eq_none_iff.mp h
  obtain ⟨l, hl⟩ := Option.ne_none_iff_exists'.mp hsome
  exact ⟨l, hl, (ofRatio_eq_some_iff.mp hl).2⟩

theorem percent_ofRatio_iff {p : Int} :
    (∃ l, ofRatio current max = some l ∧ (l.percent : Int) = p) ↔
      max ≠ 0 ∧ p * max.toNat ≤ (100 * min current.toNat max.toNat : Nat) ∧
        ((100 * min current.toNat max.toNat : Nat) : Int) < (p + 1) * max.toNat := by
  constructor
  · rintro ⟨l, hl, hp⟩
    obtain ⟨hmax, hpercent⟩ := ofRatio_eq_some_iff.mp hl
    rw [hpercent, natCast_div_eq_iff (toNat_pos_of_ne_zero hmax)] at hp
    exact ⟨hmax, hp⟩
  · rintro ⟨hmax, hp⟩
    obtain ⟨l, hl, hpercent⟩ := exists_ofRatio current hmax
    rw [← natCast_div_eq_iff (toNat_pos_of_ne_zero hmax), ← hpercent] at hp
    exact ⟨l, hl, hp⟩

theorem percent_eq_full_iff (h : ofRatio current max = some l) :
    l.percent = 100 ↔ max ≤ current := by
  obtain ⟨hmax, hpercent⟩ := ofRatio_eq_some_iff.mp h
  rw [hpercent, UInt64.le_iff_toNat_le]
  constructor
  · intro hfull
    by_contra hlt
    exact (share_lt_of_lt (Nat.lt_of_not_le hlt)).ne hfull
  · exact share_of_le (toNat_pos_of_ne_zero hmax)

theorem ofRatio_le_of_taken_le (h : ofRatio current max = some l)
    (h' : ofRatio current' max = some l') (hle : current ≤ current') : l ≤ l' := by
  obtain ⟨-, hpercent⟩ := ofRatio_eq_some_iff.mp h
  obtain ⟨-, hpercent'⟩ := ofRatio_eq_some_iff.mp h'
  rw [le_def, hpercent, hpercent']
  apply share_le_share_of_taken_le
  exact UInt64.le_iff_toNat_le.mp hle

theorem ofRatio_le_of_le_all (h : ofRatio current max = some l)
    (h' : ofRatio current max' = some l') (hle : max ≤ max') : l' ≤ l := by
  obtain ⟨hmax, hpercent⟩ := ofRatio_eq_some_iff.mp h
  obtain ⟨-, hpercent'⟩ := ofRatio_eq_some_iff.mp h'
  rw [le_def, hpercent, hpercent']
  apply share_le_share_of_le_all (toNat_pos_of_ne_zero hmax)
  exact UInt64.le_iff_toNat_le.mp hle

theorem toNat_mul_of_fits {k a : UInt64} (h : k.toNat * a.toNat < 2 ^ 64) :
    (k * a).toNat = k.toNat * a.toNat := by
  rw [UInt64.toNat_mul]
  exact Nat.mod_eq_of_lt h

/-- Only the proportion counts. -/
theorem ofRatio_mul_mul {k : UInt64} (hk : k ≠ 0) (hcurrent : k.toNat * current.toNat < 2 ^ 64)
    (hmax : k.toNat * max.toNat < 2 ^ 64) :
    ofRatio (k * current) (k * max) = ofRatio current max := by
  have hpos := toNat_pos_of_ne_zero hk
  apply Option.ext
  intro l
  have hzero : k * max ≠ 0 ↔ max ≠ 0 := by
    rw [Ne, Ne, ← UInt64.toNat_inj, ← UInt64.toNat_inj, toNat_mul_of_fits hmax]
    simp [hpos.ne']
  rw [ofRatio_eq_some_iff, ofRatio_eq_some_iff, hzero, toNat_mul_of_fits hcurrent,
    toNat_mul_of_fits hmax, Nat.mul_min_mul_left, Nat.mul_left_comm,
    Nat.mul_div_mul_left _ _ hpos]

/-- The share is the quotient rounded down: no word on the way is too short for it.  It is full
exactly where all steps are taken, keeps the order of the steps taken, reverses that of the steps
there are, and stays the same for any multiple of both. -/
theorem ofRatio_floor (current max : UInt64) :
    (ofRatio current max = Option.none ↔ max = 0) ∧
    (∀ p : Int, (∃ l, ofRatio current max = some l ∧ (l.percent : Int) = p) ↔
      max ≠ 0 ∧ p * max.toNat ≤ (100 * min current.toNat max.toNat : Nat) ∧
        ((100 * min current.toNat max.toNat : Nat) : Int) < (p + 1) * max.toNat) ∧
    ((hundredfold current max).toNat = 100 * min current.toNat max.toNat ∧
      (wideShare current max).toNat = (hundredfold current max).toNat / max.toNat ∧
      (wideShare current max).toNat ≤ 100 ∧
      (shareOctet current max).toNat = (wideShare current max).toNat) ∧
    (∀ l, ofRatio current max = some l → (l.percent = 100 ↔ max ≤ current)) ∧
    (∀ current' l l', ofRatio current max = some l → ofRatio current' max = some l' →
      current ≤ current' → l ≤ l') ∧
    (∀ max' l l', ofRatio current max = some l → ofRatio current max' = some l' →
      max ≤ max' → l' ≤ l) ∧
    (∀ k : UInt64, k ≠ 0 → k.toNat * current.toNat < 2 ^ 64 → k.toNat * max.toNat < 2 ^ 64 →
      ofRatio (k * current) (k * max) = ofRatio current max) := by
  refine ⟨ofRatio_eq_none_iff, fun p => percent_ofRatio_iff, ⟨toNat_hundredfold current max, ?_,
    toNat_wideShare_le current max, toNat_shareOctet current max⟩, ?_, ?_, ?_, ?_⟩
  · rw [toNat_wideShare, toNat_hundredfold]
  · intro l
    exact percent_eq_full_iff
  · intro current' l l'
    exact ofRatio_le_of_taken_le
  · intro max' l l'
    exact ofRatio_le_of_le_all
  · intro k
    exact ofRatio_mul_mul

end Ratio

end Load

end ThermalGauge
