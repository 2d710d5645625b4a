import ThermalGauge.Binary32.Basic

/-!
# Thermal load

A load is a percentage of the throttling range: 0 where nothing is throttled, 100 where the
hottest part is at its limit.  It comes from a percentage in single precision or from the
number of steps that a cooling device has taken out of those it has.
-/

namespace ThermalGauge

structure Load where
  percent : Nat
  percent_le : percent ≤ 100
  deriving DecidableEq

namespace Load

@[ext] theorem ext {a b : Load} (h : a.percent = b.percent) : a = b := by
  cases a; cases b; simp_all

def none : Load := ⟨0, by decide⟩

def full : Load := ⟨100, by decide⟩

/-- The load reported where there is no reading. -/
def sentinel : Load := none

instance : Inhabited Load := ⟨sentinel⟩

def atMost (n : Nat) : Load := ⟨min n 100, Nat.min_le_right _ _⟩

@[simp] theorem percent_atMost (n : Nat) : (atMost n).percent = min n 100 := rfl

/-- The whole percentage nearest to `p` within the range, a half going up; a NaN counts
as 0. -/
def ofPercent (p : Binary32) : Load :=
  if p.isNan then none
  else atMost (p.clamp (.ofNat 0) (.ofNat 100)).nearestWhole

/-! The share of steps taken is found in words of 128 bits, and its low octet is kept.  Nothing
is lost on the way. -/

/-- A hundred times the steps taken, where further steps than there are count as all of them. -/
def hundredfold (current max : UInt64) : BitVec 128 :=
  (min current max).toBitVec.setWidth 128 * 100

/-- The share in percent, rounded down. -/
def wideShare (current max : UInt64) : BitVec 128 :=
  hundredfold current max / max.toBitVec.setWidth 128

def shareOctet (current max : UInt64) : UInt8 := ⟨(wideShare current max).setWidth 8⟩

theorem toNat_min (a b : UInt64) : (min a b).toNat = min a.toNat b.toNat := by
  show (if a ≤ b then a else b).toNat = _
  split <;> rename_i h <;> rw [UInt64.le_iff_toNat_le] at h <;> omega

theorem toNat_hundredfold (current max : UInt64) :
    (hundredfold current max).toNat = 100 * min current.toNat max.toNat := by
  have hcurrent : current.toNat < 1 <<< 64 := current.toNat_lt
  have hsteps : ((min current max).toBitVec.setWidth 128).toNat = min current.toNat max.toNat := by
    rw [BitVec.toNat_setWidth_of_le (by decide), UInt64.toNat_toBitVec, toNat_min]
  rw [hundredfold, BitVec.toNat_mul_of_lt, hsteps, Nat.mul_comm]
  · rfl
  · rw [hsteps]
    show min current.toNat max.toNat * 100 < 1 <<< 128
    omega

theorem toNat_wideShare (current max : UInt64) :
    (wideShare current max).toNat = 100 * min current.toNat max.toNat / max.toNat := by
  rw [wideShare, BitVec.toNat_udiv, toNat_hundredfold, BitVec.toNat_setWidth_of_le (by decide),
    UInt64.toNat_toBitVec]

theorem share_le_hundred (c m : Nat) : 100 * min c m / m ≤ 100 := by
  apply Nat.div_le_of_le_mul
  rw [Nat.mul_comm]
  exact Nat.mul_le_mul_right 100 (Nat.min_le_right _ _)

theorem toNat_wideShare_le (current max : UInt64) : (wideShare current max).toNat ≤ 100 := by
  rw [toNat_wideShare]
  exact share_le_hundred _ _

theorem toNat_shareOctet (current max : UInt64) :
    (shareOctet current max).toNat = (wideShare current max).toNat := by
  have hle := toNat_wideShare_le current max
  show ((wideShare current max).setWidth 8).toNat = _
  rw [BitVec.toNat_setWidth, Nat.mod_eq_of_lt (by omega)]

theorem toNat_shareOctet_le (current max : UInt64) : (shareOctet current max).toNat ≤ 100 := by
  rw [toNat_shareOctet]
  exact toNat_wideShare_le current max

/-- The share of `max` steps that `current` makes; of no steps there is no share. -/
def ofRatio (current max : UInt64) : Option Load :=
  if max = 0 then Option.none
  else some ⟨(shareOctet current max).toNat, toNat_shareOctet_le current max⟩

theorem ofRatio_eq_none_iff {current max : UInt64} :
    ofRatio current max = Option.none ↔ max = 0 := by
  unfold ofRatio
  split <;> simp_all

theorem ofRatio_eq_some_iff {current max : UInt64} {l : Load} :
    ofRatio current max = some l ↔
      max ≠ 0 ∧ l.percent = 100 * min current.toNat max.toNat / max.toNat := by
  by_cases hmax : max = 0
  · simp [ofRatio, hmax]
  · rw [ofRatio, if_neg hmax, Option.some.injEq, Load.ext_iff]
    show (shareOctet current max).toNat = l.percent ↔ _
    rw [toNat_shareOctet, toNat_wideShare]
    exact ⟨fun h => ⟨hmax, h.symm⟩, fun h => h.2.symm⟩

def isThrottling (l : Load) : Bool := 0 < l.percent

instance : LE Load := ⟨fun a b => a.percent ≤ b.percent⟩

instance (a b : Load) : Decidable (a ≤ b) :=
  inferInstanceAs (Decidable (a.percent ≤ b.percent))

theorem le_def {a b : Load} : a ≤ b ↔ a.percent ≤ b.percent := Iff.rfl

instance : Max Load := ⟨fun a b => if a ≤ b then b else a⟩

instance : Min Load := ⟨fun a b => if a ≤ b then a else b⟩

@[simp] theorem percent_max (a b : Load) : (max a b).percent = max a.percent b.percent := by
  show (if a ≤ b then b else a).percent = _
  split <;> rename_i h <;> simp only [le_def] at h <;> omega

/-- The greatest of some loads. -/
def greatest : List Load → Option Load
  | [] => Option.none
  | l :: ls => some (ls.foldl max l)

@[simp] theorem greatest_eq_none_iff {ls : List Load} :
    greatest ls = Option.none ↔ ls = [] := by
  cases ls <;> simp [greatest]

def least : List Load → Option Load
  | [] => Option.none
  | l :: ls => some (ls.foldl min l)

def compare (a b : Load) : Ordering := Ord.compare a.percent b.percent

/-- Ascending. -/
def sort (ls : List Load) : List Load := ls.mergeSort fun a b => a ≤ b

def text (l : Load) : String := toString l.percent ++ "%"

end Load

end ThermalGauge
