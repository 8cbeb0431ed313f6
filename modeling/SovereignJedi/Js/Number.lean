import Mathlib.Data.Nat.Prime.Basic
import SovereignJedi.Js.Double

/-! The numbers of JavaScript that are whole: the integers among the doubles, the infinities and
`NaN`. The two zeros are one number here. -/

namespace SovereignJedi.Js

namespace Double

/-- The least power of two that no double reaches. -/
def limit : Nat := 2 ^ 1024

/-- `n` has no more bits than a double, and is not too large for one. -/
def IsFinite (n : Int) : Prop := ofInt n = n ∧ n.natAbs < limit

theorem pow_le_limit {k : Nat} (h : k ≤ 1024) : 2 ^ k ≤ limit := by
  have hpow : ∀ m, k ≤ m → (2 : Nat) ^ k ≤ 2 ^ m := fun m => Nat.pow_le_pow_right (by decide)
  exact hpow 1024 h

theorem roundNat_of_dvd {m : Nat} (h : ulp m ∣ m) : roundNat m = m := by
  have hr : m % ulp m = 0 := Nat.mod_eq_zero_of_dvd h
  have hpos := ulp_pos m
  have hsig : significand m = m / ulp m := if_pos (Or.inl (by omega))
  rw [roundNat, hsig, Nat.div_mul_cancel h]

theorem roundNat_pos {m : Nat} (h : m ≠ 0) : 0 < roundNat m :=
  Nat.lt_of_lt_of_le (Nat.pow_pos (by decide)) (pow_le_roundNat h)

/-- What is rounded stays. -/
theorem roundNat_roundNat (m : Nat) : roundNat (roundNat m) = roundNat m := by
  rcases Nat.eq_zero_or_pos m with rfl | hpos
  · simp [roundNat_of_lt]
  have hle := roundNat_le_pow m
  have hge := pow_le_roundNat (m := m) (by omega)
  apply roundNat_of_dvd
  rcases Nat.lt_or_eq_of_le hle with hlt | heq
  · have hlog : Nat.log 2 (roundNat m) = Nat.log 2 m := Nat.log_eq_of_pow_le_of_lt_pow hge hlt
    rw [ulp, hlog]
    exact Nat.dvd_mul_left _ _
  · rw [heq, ulp, Nat.log_pow (by decide)]
    exact Nat.pow_dvd_pow 2 (by omega)

/-- The first integer that is no double is a tie, and the double below it is even. -/
theorem roundNat_two_pow_53_succ : roundNat (2 ^ 53 + 1) = 2 ^ 53 := by
  have hlog : Nat.log 2 (2 ^ 53 + 1) = 53 :=
    Nat.log_eq_of_pow_le_of_lt_pow (by omega) (by omega)
  have hulp : ulp (2 ^ 53 + 1) = 2 := by
    rw [ulp, hlog]
    rfl
  have hsig : significand (2 ^ 53 + 1) = 2 ^ 52 := by
    rw [significand, hulp]
    decide
  rw [roundNat, hsig, hulp]
  rfl

theorem roundNat_of_le {m : Nat} (h : m ≤ 2 ^ 53) : roundNat m = m := by
  rcases Nat.lt_or_eq_of_le h with hlt | rfl
  · exact roundNat_of_lt hlt
  · refine roundNat_of_dvd ?_
    rw [ulp, Nat.log_pow (by decide)]
    exact Nat.pow_dvd_pow 2 (by decide)

/-- An odd divisor of a double has no more bits than its significand. -/
theorem odd_dvd_lt {m d : Nat} (hm : roundNat m = m) (hpos : m ≠ 0) (hodd : d % 2 = 1)
    (hd : d ∣ m) : d < 2 ^ 53 := by
  by_cases hlog : Nat.log 2 m < 52
  · have hsmall : m < 2 ^ 53 := Nat.lt_of_lt_of_le (lt_pow_log_succ m)
      (Nat.pow_le_pow_right (by decide) (by omega))
    exact Nat.lt_of_le_of_lt (Nat.le_of_dvd (by omega) hd) hsmall
  · have hcoprime : Nat.Coprime d (ulp m) :=
      Nat.Coprime.pow_right _ (Nat.coprime_two_right.mpr (Nat.odd_iff.mpr hodd))
    rw [roundNat] at hm
    have hdvd : d ∣ significand m := hcoprime.dvd_of_dvd_mul_right (by rwa [hm])
    have hsigPos : 0 < significand m := Nat.pos_of_ne_zero fun h => hpos (by rw [← hm, h, Nat.zero_mul])
    have hquot : m / ulp m < 2 ^ 53 := by
      rw [Nat.div_lt_iff_lt_mul (ulp_pos m)]
      calc m < 2 ^ (Nat.log 2 m + 1) := lt_pow_log_succ m
        _ = 2 ^ 53 * ulp m := by
          rw [pow_succ (2 : Nat) (Nat.log 2 m), ← ulp_mul_pow (Nat.not_lt.mp hlog)]
          ring
    have hle := Nat.le_of_dvd hsigPos hdvd
    have hsig := (significand_bounds m).2
    omega

/-- What is a double has no odd divisor beyond its significand. -/
theorem IsFinite.odd_dvd_lt {n : Int} {d : Nat} (h : IsFinite n) (hpos : n ≠ 0) (hodd : d % 2 = 1)
    (hd : (d : Int) ∣ n) : d < 2 ^ 53 := by
  have hdvd : d ∣ n.natAbs := Int.natCast_dvd.mp hd
  refine Double.odd_dvd_lt ?_ (by omega) hodd hdvd
  have hround := h.1
  unfold ofInt at hround
  split at hround
  · have habs : n.toNat = n.natAbs := by omega
    rw [habs] at hround
    omega
  · have habs : (-n).toNat = n.natAbs := by omega
    rw [habs] at hround
    omega

theorem ofInt_ofInt (n : Int) : ofInt (ofInt n) = ofInt n := by
  by_cases hn : 0 ≤ n
  · have hofInt : ofInt n = roundNat n.toNat := if_pos hn
    rw [hofInt, ofInt, if_pos (by omega), Int.toNat_natCast, roundNat_roundNat]
  · have hofInt : ofInt n = -roundNat (-n).toNat := if_neg hn
    have hpos := roundNat_pos (m := (-n).toNat) (by omega)
    rw [hofInt, ofInt, if_neg (by omega), Int.neg_neg, Int.toNat_natCast, roundNat_roundNat]

end Double

inductive Number where
  | nan
  | infinite (negative : Bool)
  | whole (n : { n : Int // Double.IsFinite n })
  deriving DecidableEq

namespace Number

/-- The number nearest to an integer. -/
def ofInt (n : Int) : Number :=
  if h : (Double.ofInt n).natAbs < Double.limit then .whole ⟨Double.ofInt n, Double.ofInt_ofInt n, h⟩
  else .infinite (decide (n < 0))

/-- `x <= y`. -/
def le : Number → Number → Bool
  | .nan, _ | _, .nan => false
  | .infinite true, _ | _, .infinite false => true
  | .infinite false, _ | _, .infinite true => false
  | .whole x, .whole y => decide (x.val ≤ y.val)

/-- `x < y`. -/
def lt : Number → Number → Bool
  | .nan, _ | _, .nan => false
  | x, y => !le y x

/-- `x * y`. -/
def mul : Number → Number → Number
  | .nan, _ | _, .nan => .nan
  | .infinite s, .infinite t => .infinite (s != t)
  | .infinite s, .whole x | .whole x, .infinite s =>
    if x.val = 0 then .nan else .infinite (s != decide (x.val < 0))
  | .whole x, .whole y => ofInt (x.val * y.val)

/-- What an element of a `Uint8Array` becomes when a number is stored in it. -/
def toUint8 : Number → UInt8
  | .whole x => .ofNat (x.val % 256).toNat
  | _ => .ofNat 0

theorem isFinite_of_lt {n : Int} (h : -2 ^ 53 < n) (h' : n < 2 ^ 53) : Double.IsFinite n := by
  refine ⟨Double.ofInt_of_lt h h', ?_⟩
  have hlimit := Double.pow_le_limit (k := 53) (by omega)
  omega

/-- Every integer that is a double is a number. -/
theorem ofInt_of_isFinite {n : Int} (h : Double.IsFinite n) : ofInt n = .whole ⟨n, h⟩ := by
  rw [ofInt, dif_pos (by rw [h.1]; exact h.2)]
  simp only [h.1]

/-- Every integer of at most 53 bits is a number. -/
theorem ofInt_of_lt {n : Int} (h : -2 ^ 53 < n) (h' : n < 2 ^ 53) :
    ofInt n = .whole ⟨n, isFinite_of_lt h h'⟩ :=
  ofInt_of_isFinite (isFinite_of_lt h h')

theorem isFinite_natCast {k : Nat} (h : k ≤ 2 ^ 53) : Double.IsFinite k := by
  refine ⟨?_, ?_⟩
  · rw [Double.ofInt, if_pos (by omega), Int.toNat_natCast, Double.roundNat_of_le h]
  · have hlimit := Double.pow_le_limit (k := 54) (by omega)
    omega

theorem ofInt_natCast {k : Nat} (h : k ≤ 2 ^ 53) :
    ofInt k = .whole ⟨k, isFinite_natCast h⟩ :=
  ofInt_of_isFinite (isFinite_natCast h)

/-- `x` is a number, and not less than `k`. -/
def AtLeast (k : Nat) : Number → Prop
  | .infinite negative => negative = false
  | .whole x => (k : Int) ≤ x.val
  | .nan => False

theorem AtLeast.mono {k m : Nat} {x : Number} (h : AtLeast m x) (hk : k ≤ m) : AtLeast k x := by
  cases x with
  | nan => exact h
  | infinite negative => exact h
  | whole x =>
    simp only [AtLeast] at h ⊢
    omega

/-- A number that is between two natural numbers has a last one that it reaches. -/
theorem exists_last {m : Nat} {x : Number} (h : AtLeast 0 x) (hm : ¬ AtLeast m x) :
    ∃ n < m, AtLeast n x ∧ ¬ AtLeast (n + 1) x := by
  induction m with
  | zero => exact absurd h hm
  | succ m ih =>
    by_cases hlast : AtLeast m x
    · exact ⟨m, Nat.lt_succ_self m, hlast, hm⟩
    · obtain ⟨n, hn, hn'⟩ := ih hlast
      exact ⟨n, by omega, hn'⟩

theorem le_natCast_iff {k : Nat} (h : k ≤ 2 ^ 53) (x : Number) :
    (ofInt k).le x = true ↔ AtLeast k x := by
  rw [ofInt_natCast h]
  rcases x with _ | (_ | _) | x <;> simp [le, AtLeast]

theorem lt_natCast_iff {k : Nat} (h : k ≤ 2 ^ 53) (x : Number) :
    (ofInt k).lt x = true ↔ AtLeast (k + 1) x := by
  rw [ofInt_natCast h]
  rcases x with _ | (_ | _) | x
  · simp [lt, AtLeast]
  · simp [lt, le, AtLeast]
  · simp [lt, le, AtLeast]
  · simp only [lt, le, AtLeast, Bool.not_eq_true', decide_eq_false_iff_not]
    omega

theorem atLeast_ofInt {k n : Nat} (h : n ≤ 2 ^ 53) : AtLeast k (ofInt n) ↔ k ≤ n := by
  rw [ofInt_natCast h, AtLeast]
  exact Int.ofNat_le

/-- `y` is `x` times `m`, exactly; times an infinity or `NaN` it is that. -/
def IsTimes (x : Number) (m : Nat) (y : Number) : Prop :=
  match x with
  | .whole x => ∃ z, y = .whole z ∧ z.val = x.val * m
  | x => y = x

theorem toUint8_ofInt {n : Nat} (h : n < 256) : toUint8 (ofInt n) = .ofNat n := by
  have hmod : ((n : Int) % 256).toNat = n := by omega
  rw [ofInt_of_lt (by omega) (by omega), toUint8, hmod]

end Number

end SovereignJedi.Js
