import Mathlib.Data.Nat.Log
import Mathlib.Tactic.Ring

/-! Integers as JavaScript numbers. A double has 53 significant bits; an integer with more is
rounded to the nearest one that has no more, and to the even one of two that are as near. The
rounding is exact up to `2 ^ 53` and keeps the order everywhere. -/

namespace SovereignJedi.Js.Double

/-- The distance between the doubles around `m`. -/
def ulp (m : Nat) : Nat := 2 ^ (Nat.log 2 m - 52)

/-- `m` divided by its `ulp`, to the nearest, ties to even. -/
def significand (m : Nat) : Nat :=
  let q := m / ulp m
  let r := m % ulp m
  if 2 * r < ulp m ∨ (2 * r = ulp m ∧ q % 2 = 0) then q else q + 1

def roundNat (m : Nat) : Nat := significand m * ulp m

/-- The double nearest to an integer. -/
def ofInt (n : Int) : Int := if 0 ≤ n then roundNat n.toNat else -roundNat (-n).toNat

theorem ulp_pos (m : Nat) : 0 < ulp m := Nat.pow_pos (by decide)

theorem lt_pow_log_succ (m : Nat) : m < 2 ^ (Nat.log 2 m + 1) := Nat.lt_pow_succ_log_self (by decide) m

theorem significand_bounds (m : Nat) :
    m / ulp m ≤ significand m ∧ significand m ≤ m / ulp m + 1 := by
  unfold significand
  dsimp only
  split <;> omega

/-! ### Small integers -/

theorem ulp_of_lt {m : Nat} (h : m < 2 ^ 53) : ulp m = 1 := by
  have hlog : Nat.log 2 m < 53 := by
    rcases Nat.eq_zero_or_pos m with rfl | hpos
    · simp
    · exact Nat.log_lt_of_lt_pow (by omega) h
  rw [ulp, show Nat.log 2 m - 52 = 0 by omega, Nat.pow_zero]

theorem roundNat_of_lt {m : Nat} (h : m < 2 ^ 53) : roundNat m = m := by
  rw [roundNat, significand, ulp_of_lt h, Nat.mod_one, Nat.div_one]
  simp

/-- Every integer of at most 53 bits is a double. -/
theorem ofInt_of_lt {n : Int} (h : -2 ^ 53 < n) (h' : n < 2 ^ 53) : ofInt n = n := by
  unfold ofInt
  split
  · rw [roundNat_of_lt (by omega)]
    omega
  · rw [roundNat_of_lt (by omega)]
    omega

/-! ### Order -/

theorem ulp_mul_pow {m : Nat} (h : 52 ≤ Nat.log 2 m) : 2 ^ 52 * ulp m = 2 ^ Nat.log 2 m := by
  rw [ulp, ← Nat.pow_add, Nat.add_sub_cancel' h]

/-- Rounding does not leave the interval between two powers of two. -/
theorem roundNat_le_pow (m : Nat) : roundNat m ≤ 2 ^ (Nat.log 2 m + 1) := by
  have hm := lt_pow_log_succ m
  by_cases hlog : Nat.log 2 m < 52
  · have hsmall : m < 2 ^ 53 := Nat.lt_of_lt_of_le hm (Nat.pow_le_pow_right (by decide) (by omega))
    rw [roundNat_of_lt hsmall]
    omega
  · have hulp := ulp_mul_pow (Nat.not_lt.mp hlog)
    have hquot : m / ulp m < 2 ^ 53 := by
      rw [Nat.div_lt_iff_lt_mul (ulp_pos m)]
      calc m < 2 ^ (Nat.log 2 m + 1) := hm
        _ = 2 ^ 53 * ulp m := by rw [pow_succ (2 : Nat) (Nat.log 2 m), ← hulp]; ring
    have hsig := (significand_bounds m).2
    calc roundNat m ≤ 2 ^ 53 * ulp m := Nat.mul_le_mul_right _ (by omega)
      _ = 2 ^ (Nat.log 2 m + 1) := by rw [pow_succ (2 : Nat) (Nat.log 2 m), ← hulp]; ring

theorem pow_le_roundNat {m : Nat} (hpos : m ≠ 0) : 2 ^ Nat.log 2 m ≤ roundNat m := by
  have hm := Nat.pow_log_le_self 2 hpos
  by_cases hlog : Nat.log 2 m < 52
  · have hsmall : m < 2 ^ 53 :=
      Nat.lt_of_lt_of_le (lt_pow_log_succ m) (Nat.pow_le_pow_right (by decide) (by omega))
    rw [roundNat_of_lt hsmall]
    exact hm
  · have hulp := ulp_mul_pow (Nat.not_lt.mp hlog)
    have hquot : 2 ^ 52 ≤ m / ulp m := by
      rw [Nat.le_div_iff_mul_le (ulp_pos m), hulp]
      exact hm
    rw [← hulp]
    exact Nat.mul_le_mul_right _ (hquot.trans (significand_bounds m).1)

/-- With one distance between the doubles, the significands are in the order of the integers. -/
theorem significand_mono {m m' : Nat} (h : m ≤ m') (hulp : ulp m = ulp m') :
    significand m ≤ significand m' := by
  have hm := significand_bounds m
  have hm' := significand_bounds m'
  have hquot : m / ulp m ≤ m' / ulp m' := hulp ▸ Nat.div_le_div_right h
  rcases Nat.lt_or_eq_of_le hquot with hlt | heq
  · omega
  · have hdiv := Nat.div_add_mod m (ulp m)
    have hdiv' := Nat.div_add_mod m' (ulp m')
    rw [← heq, ← hulp] at hdiv'
    have hrem : m % ulp m ≤ m' % ulp m' := by
      rw [← hulp]
      omega
    unfold significand
    dsimp only
    rw [heq, hulp] at *
    split <;> split <;> omega

theorem roundNat_mono {m m' : Nat} (h : m ≤ m') : roundNat m ≤ roundNat m' := by
  rcases Nat.lt_or_eq_of_le (Nat.log_mono_right (b := 2) h) with hlt | heq
  · have hpos : m' ≠ 0 := by
      rintro rfl
      simp at hlt
    calc roundNat m ≤ 2 ^ (Nat.log 2 m + 1) := roundNat_le_pow m
      _ ≤ 2 ^ Nat.log 2 m' := Nat.pow_le_pow_right (by decide) hlt
      _ ≤ roundNat m' := pow_le_roundNat hpos
  · have hulp : ulp m = ulp m' := by rw [ulp, ulp, heq]
    rw [roundNat, roundNat, ← hulp]
    exact Nat.mul_le_mul_right _ (significand_mono h hulp)

/-- Rounding keeps the order. -/
theorem ofInt_mono {n n' : Int} (h : n ≤ n') : ofInt n ≤ ofInt n' := by
  unfold ofInt
  split <;> split
  · exact Int.ofNat_le.mpr (roundNat_mono (by omega))
  · omega
  · omega
  · exact Int.neg_le_neg (Int.ofNat_le.mpr (roundNat_mono (by omega)))

end SovereignJedi.Js.Double
