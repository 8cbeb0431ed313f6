import SovereignJedi.Js.Number
import SovereignJedi.Js.Radix

/-! Strings as the language has them, sequences of UTF-16 code units with or without their
surrogates paired: `parseInt`, `Number.prototype.toString`, padding and lower-casing. -/

namespace SovereignJedi.Js

abbrev CodeUnits := List UInt16

namespace CodeUnits

/-- The code unit of an ASCII character. -/
def ascii (c : Char) : UInt16 := .ofNat c.toNat

/-- The code units of an ASCII text. -/
def ofAscii (cs : List Char) : CodeUnits := cs.map ascii

/-- The white space and line terminators that `parseInt` skips. -/
def isSpace (u : UInt16) : Bool :=
  [0x9, 0xA, 0xB, 0xC, 0xD, 0x20, 0xA0, 0x1680, 0x2000, 0x2001, 0x2002, 0x2003, 0x2004, 0x2005,
    0x2006, 0x2007, 0x2008, 0x2009, 0x200A, 0x2028, 0x2029, 0x202F, 0x205F, 0x3000,
    0xFEFF].contains u.toNat

/-- The value of a digit, or of a letter as a digit after nine. -/
def digitValue (u : UInt16) : Option Nat :=
  if 48 ≤ u.toNat ∧ u.toNat ≤ 57 then some (u.toNat - 48)
  else if 97 ≤ u.toNat ∧ u.toNat ≤ 122 then some (u.toNat - 87)
  else if 65 ≤ u.toNat ∧ u.toNat ≤ 90 then some (u.toNat - 55)
  else none

/-- The value of a digit of base `radix`. -/
def digit (radix : Nat) (u : UInt16) : Option Nat :=
  (digitValue u).filter fun d => decide (d < radix)

def leadingDigits (radix : Nat) : CodeUnits → List Nat
  | [] => []
  | u :: s => match digit radix u with
    | some d => d :: leadingDigits radix s
    | none => []

/-- Whether a minus sign comes first, and what follows the sign. -/
def stripSign : CodeUnits → Bool × CodeUnits
  | [] => (false, [])
  | u :: s => if u = ascii '-' then (true, s) else if u = ascii '+' then (false, s)
    else (false, u :: s)

/-- What follows `0x` or `0X`. -/
def stripHexMark : CodeUnits → CodeUnits
  | z :: x :: s => if z = ascii '0' ∧ (x = ascii 'x' ∨ x = ascii 'X') then s else z :: x :: s
  | s => s

/-- `parseInt(s, radix)`, for a radix from 2 to 36. -/
def parseInt (s : CodeUnits) (radix : Nat) : Number :=
  let signed := stripSign (s.dropWhile isSpace)
  let digits := leadingDigits radix (if radix = 16 then stripHexMark signed.2 else signed.2)
  if digits = [] then .nan
  else .ofInt (if signed.1 then -(Radix.value radix digits : Int) else Radix.value radix digits)

/-- `n.toString(radix)`. -/
def ofNat (n radix : Nat) : CodeUnits := ofAscii (Nat.toDigits radix n)

/-- `s.padStart(length, fill)`, for one code unit `fill`. -/
def padStart (s : CodeUnits) (length : Nat) (fill : UInt16) : CodeUnits :=
  List.replicate (length - s.length) fill ++ s

/-- The lower case of an ASCII code unit. -/
def lowerAscii (u : UInt16) : UInt16 := if 65 ≤ u.toNat ∧ u.toNat ≤ 90 then u + 32 else u

/-- A `toLowerCase`: it depends on the Unicode Character Database, but not on ASCII strings. -/
structure LowerCase where
  toLowerCase : CodeUnits → CodeUnits
  ascii : ∀ s : CodeUnits, (∀ u ∈ s, u.toNat < 128) → toLowerCase s = s.map lowerAscii

/-- The lower-casing that knows ASCII only. -/
def LowerCase.basic : LowerCase := ⟨List.map lowerAscii, fun _ _ => rfl⟩

variable {radix : Nat} {u : UInt16} {s : CodeUnits}

/-! ### Digits -/

theorem digit_eq_some {d : Nat} : digit radix u = some d ↔ digitValue u = some d ∧ d < radix := by
  rw [digit, Option.filter_eq_some_iff, decide_eq_true_iff]

/-- A digit is a digit or a letter of ASCII. -/
theorem alphanumeric_of_digit {d : Nat} (h : digit radix u = some d) :
    (48 ≤ u.toNat ∧ u.toNat ≤ 57) ∨ (97 ≤ u.toNat ∧ u.toNat ≤ 122) ∨
      (65 ≤ u.toNat ∧ u.toNat ≤ 90) := by
  by_contra hn
  simp only [not_or] at hn
  have hvalue := (digit_eq_some.mp h).1
  rw [digitValue, if_neg hn.1, if_neg hn.2.1, if_neg hn.2.2] at hvalue
  cases hvalue

theorem isSpace_of_digit {d : Nat} (h : digit radix u = some d) : isSpace u = false := by
  have hu := alphanumeric_of_digit h
  rw [isSpace, List.contains_eq_mem, decide_eq_false_iff_not]
  simp only [List.mem_cons, List.not_mem_nil, or_false]
  omega

theorem stripSign_of_digit {d : Nat} (h : digit radix u = some d) :
    stripSign (u :: s) = (false, u :: s) := by
  have hu := alphanumeric_of_digit h
  have hminus : u ≠ ascii '-' := by
    rintro rfl
    revert hu
    decide
  have hplus : u ≠ ascii '+' := by
    rintro rfl
    revert hu
    decide
  rw [stripSign, if_neg hminus, if_neg hplus]

theorem stripHexMark_of_digit {d : Nat} {v : UInt16} (h : digit 16 v = some d) :
    stripHexMark (u :: v :: s) = u :: v :: s := by
  have hx : digit 16 (ascii 'x') = none := by decide
  have hX : digit 16 (ascii 'X') = none := by decide
  refine if_neg fun hmark => ?_
  rcases hmark.2 with rfl | rfl
  · simp [hx] at h
  · simp [hX] at h

/-- Two hexadecimal digits give their byte. -/
theorem parseInt_hexPair {u v : UInt16} {hi lo : Nat} (hu : digit 16 u = some hi)
    (hv : digit 16 v = some lo) : parseInt [u, v] 16 = .ofInt ((16 * hi + lo : Nat) : Int) := by
  have hspace : [u, v].dropWhile isSpace = [u, v] := by
    simp [isSpace_of_digit hu]
  have hdigits : leadingDigits 16 [u, v] = [hi, lo] := by
    simp [leadingDigits, hu, hv]
  have hvalue : Radix.value 16 [hi, lo] = 16 * hi + lo := by
    simp [Radix.value, Nat.ofDigits_cons]
    omega
  simp [parseInt, hspace, stripSign_of_digit hu, stripHexMark_of_digit hv, hdigits, hvalue]

end CodeUnits

end SovereignJedi.Js
