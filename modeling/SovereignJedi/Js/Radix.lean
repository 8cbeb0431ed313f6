import Mathlib.Data.List.TakeWhile
import Mathlib.Data.Nat.Digits.Lemmas

/-! Numerals as lists of digits, the most significant one first, and their conversion from one base
to another that keeps leading zeros, so that it can be undone. -/

namespace SovereignJedi.Js.Radix

/-- How many zeros a numeral begins with. -/
def zeros (ds : List Nat) : Nat := (ds.takeWhile (· == 0)).length

def value (b : Nat) (ds : List Nat) : Nat := Nat.ofDigits b ds.reverse

/-- The numeral `ds` of base `b` in base `c`, with as many leading zeros as before. -/
def convert (b c : Nat) (ds : List Nat) : List Nat :=
  List.replicate (zeros ds) 0 ++ (Nat.digits c (value b ds)).reverse

theorem eq_replicate_append (ds : List Nat) :
    ds = List.replicate (zeros ds) 0 ++ ds.dropWhile (· == 0) := by
  have hzero : ds.takeWhile (· == 0) = List.replicate (zeros ds) 0 := by
    refine List.eq_replicate_of_mem fun d hd => ?_
    simpa using List.mem_takeWhile_imp hd
  rw [← hzero, List.takeWhile_append_dropWhile]

theorem length_eq (ds : List Nat) :
    ds.length = zeros ds + (ds.dropWhile (· == 0)).length := by
  have h := congrArg List.length (eq_replicate_append ds)
  rwa [List.length_append, List.length_replicate] at h

/-- The first digit after the leading zeros is not zero. -/
theorem head_dropWhile_ne {ds : List Nat} (h : ds.dropWhile (· == 0) ≠ []) :
    (ds.dropWhile (· == 0)).head h ≠ 0 := by
  simpa using List.head_dropWhile_not (· == 0) h

theorem zeros_replicate_append {ms : List Nat} (k : Nat) (h : ∀ h : ms ≠ [], ms.head h ≠ 0) :
    zeros (List.replicate k 0 ++ ms) = k := by
  have hms : ms.takeWhile (· == 0) = [] := by
    cases ms with
    | nil => rfl
    | cons m ms =>
      have hm : m ≠ 0 := h (by simp)
      simp [hm]
  rw [zeros, List.takeWhile_append_of_pos (by simp), hms, List.append_nil, List.length_replicate]

theorem value_replicate_append (b k : Nat) (ms : List Nat) :
    value b (List.replicate k 0 ++ ms) = value b ms := by
  rw [value, List.reverse_append, List.reverse_replicate, Nat.ofDigits_append_replicate_zero, value]

theorem value_reverse_digits (c n : Nat) : value c (Nat.digits c n).reverse = n := by
  rw [value, List.reverse_reverse, Nat.ofDigits_digits]

theorem head_reverse_digits {c n : Nat} (h : (Nat.digits c n).reverse ≠ []) :
    (Nat.digits c n).reverse.head h ≠ 0 := by
  rw [List.head_reverse]
  exact Nat.getLast_digit_ne_zero c fun hn => by simp [hn] at h

theorem zeros_convert (b c : Nat) (ds : List Nat) : zeros (convert b c ds) = zeros ds :=
  zeros_replicate_append _ head_reverse_digits

theorem value_convert (b c : Nat) (ds : List Nat) : value c (convert b c ds) = value b ds := by
  rw [convert, value_replicate_append, value_reverse_digits]

theorem convert_lt {b c : Nat} (hc : 1 < c) (ds : List Nat) : ∀ d ∈ convert b c ds, d < c := by
  intro d hd
  rcases List.mem_append.mp hd with h | h
  · rw [List.eq_of_mem_replicate h]
    omega
  · exact Nat.digits_lt_base hc (List.mem_reverse.mp h)

/-- The conversion to another base and back gives the numeral again. -/
theorem convert_convert {b : Nat} (c : Nat) (hb : 1 < b) {ds : List Nat} (h : ∀ d ∈ ds, d < b) :
    convert c b (convert b c ds) = ds := by
  have hrest : Nat.digits b (value b ds) = (ds.dropWhile (· == 0)).reverse := by
    conv_lhs => rw [eq_replicate_append ds, value_replicate_append, value]
    refine Nat.digits_ofDigits b hb _ (fun d hd => ?_) fun hne => ?_
    · exact h d ((List.dropWhile_sublist _).subset (List.mem_reverse.mp hd))
    · rw [List.getLast_reverse]
      exact head_dropWhile_ne (List.reverse_ne_nil_iff.mp hne)
  rw [convert, zeros_convert, value_convert, hrest, List.reverse_reverse,
    ← eq_replicate_append]

/-- What follows the leading zeros needs at least as many digits of base `c` as it takes to reach
its highest power of `b`. -/
theorem pow_lt_pow_length_convert {b c : Nat} (hc : 1 < c) {ds : List Nat}
    (h : zeros ds < ds.length) :
    b ^ (ds.length - zeros ds - 1) < c ^ ((convert b c ds).length - zeros ds) := by
  have hlen : ds.length - zeros ds = (ds.dropWhile (· == 0)).length := by
    have := length_eq ds
    omega
  have hne : ds.dropWhile (· == 0) ≠ [] := by
    intro hnil
    rw [hnil, List.length_nil] at hlen
    omega
  have hlow : b ^ (ds.length - zeros ds - 1) ≤ value b ds := by
    conv_rhs => rw [eq_replicate_append ds, value_replicate_append, ← List.cons_head_tail hne]
    rw [value, Nat.ofDigits_reverse_cons, List.length_tail, ← hlen]
    exact Nat.le_add_left_of_le
      (Nat.le_mul_of_pos_right _ (Nat.pos_of_ne_zero (head_dropWhile_ne hne)))
  have hdigits : (convert b c ds).length - zeros ds = (Nat.digits c (value b ds)).length := by
    rw [convert, List.length_append, List.length_replicate, List.length_reverse]
    omega
  rw [hdigits]
  exact hlow.trans_lt (Nat.lt_base_pow_length_digits hc)

theorem zeros_le_length_convert (b c : Nat) (ds : List Nat) :
    zeros ds ≤ (convert b c ds).length := by
  rw [convert, List.length_append, List.length_replicate]
  exact Nat.le_add_right _ _

/-- A numeral of zeros keeps its length. -/
theorem length_convert_of_zeros {b c : Nat} {ds : List Nat} (h : zeros ds = ds.length) :
    (convert b c ds).length = ds.length := by
  have hnil : ds.dropWhile (· == 0) = [] := by
    have := length_eq ds
    exact List.length_eq_zero_iff.mp (by omega)
  have hvalue : value b ds = 0 := by
    rw [eq_replicate_append ds, value_replicate_append, hnil]
    rfl
  rw [convert, hvalue, Nat.digits_zero, List.reverse_nil, List.append_nil, List.length_replicate, h]

end SovereignJedi.Js.Radix
