import Mathlib.Data.List.GetD
import Mathlib.Data.List.Nodup
import SovereignJedi.Js.Platform
import SovereignJedi.Js.Radix

/-! Bytes as text: base58btc, base64 with the decoder of `atob`, and hexadecimal digits. -/

namespace SovereignJedi.Js

/-- The characters of the digits 0, 1, 2 and so on. -/
structure Alphabet where
  chars : List Char
  nodup : chars.Nodup

namespace Alphabet

def char (A : Alphabet) (d : Nat) : Char := A.chars.getD d '?'

def digit? (A : Alphabet) (c : Char) : Option Nat := A.chars.idxOf? c

variable {A : Alphabet}

theorem char_eq_getElem {d : Nat} (h : d < A.chars.length) : A.char d = A.chars[d] :=
  List.getD_eq_getElem _ _ h

theorem char_mem {d : Nat} (h : d < A.chars.length) : A.char d ∈ A.chars := by
  rw [char_eq_getElem h]
  exact List.getElem_mem h

theorem digit?_char {d : Nat} (h : d < A.chars.length) : A.digit? (A.char d) = some d := by
  rw [digit?, List.idxOf?_eq_some_iff, char_eq_getElem h]
  refine ⟨h, rfl, fun j hj heq => ?_⟩
  exact absurd (A.nodup.getElem_inj_iff.mp heq) (by omega)

theorem digit?_eq_none {c : Char} (h : c ∉ A.chars) : A.digit? c = none :=
  List.idxOf?_eq_none_iff.mpr h

theorem exists_digit? {c : Char} (h : c ∈ A.chars) :
    ∃ d, A.digit? c = some d ∧ d < A.chars.length := by
  obtain ⟨d, hd, rfl⟩ := List.getElem_of_mem h
  exact ⟨d, by rw [← char_eq_getElem hd, digit?_char hd], hd⟩

def digits? (A : Alphabet) (cs : List Char) : Option (List Nat) := cs.mapM A.digit?

theorem digits?_map_char {ds : List Nat} (h : ∀ d ∈ ds, d < A.chars.length) :
    A.digits? (ds.map A.char) = some ds := by
  induction ds with
  | nil => rfl
  | cons d ds ih =>
    rw [List.forall_mem_cons] at h
    have hrest : (ds.map A.char).mapM A.digit? = some ds := ih h.2
    simp [digits?, digit?_char h.1, hrest]

theorem exists_digits? {cs : List Char} (h : ∀ c ∈ cs, c ∈ A.chars) :
    ∃ ds, A.digits? cs = some ds ∧ ds.length = cs.length ∧ ∀ d ∈ ds, d < A.chars.length := by
  induction cs with
  | nil => exact ⟨[], rfl, rfl, by simp⟩
  | cons c cs ih =>
    rw [List.forall_mem_cons] at h
    obtain ⟨d, hd, hlt⟩ := exists_digit? h.1
    obtain ⟨ds, hds, hlen, hall⟩ := ih h.2
    have hrest : cs.mapM A.digit? = some ds := hds
    refine ⟨d :: ds, by simp [digits?, hd, hrest], by simp [hlen], ?_⟩
    exact List.forall_mem_cons.mpr ⟨hlt, hall⟩

theorem digits?_eq_none {cs : List Char} {c : Char} (h : c ∈ cs) (hc : c ∉ A.chars) :
    A.digits? cs = none := by
  induction cs with
  | nil => exact absurd h (by simp)
  | cons c' cs ih =>
    rcases List.mem_cons.mp h with rfl | h
    · simp [digits?, digit?_eq_none hc]
    · have hrest : cs.mapM A.digit? = none := ih h
      cases hd : A.digit? c' <;> simp [digits?, hd, hrest]

end Alphabet

/-! ### base58btc -/

namespace Base58

def alphabet : Alphabet where
  chars := "123456789ABCDEFGHJKLMNPQRSTUVWXYZabcdefghijkmnopqrstuvwxyz".toList
  nodup := by decide

/-- Each leading zero byte is one `1`. -/
def encode (b : Bytes) : String :=
  .ofList ((Radix.convert 256 58 (b.map UInt8.toNat)).map alphabet.char)

def decode (s : String) : Option Bytes :=
  (alphabet.digits? s.toList).map fun ds => (Radix.convert 58 256 ds).map UInt8.ofNat

theorem alphabet_length : alphabet.chars.length = 58 := by decide

theorem toNat_lt (b : Bytes) : ∀ d ∈ b.map UInt8.toNat, d < 256 := by
  intro d hd
  obtain ⟨x, -, rfl⟩ := List.mem_map.mp hd
  exact x.toNat_lt_size

theorem decode_encode (b : Bytes) : decode (encode b) = some b := by
  have hdigits : ∀ d ∈ Radix.convert 256 58 (b.map UInt8.toNat), d < alphabet.chars.length := by
    rw [alphabet_length]
    exact Radix.convert_lt (by omega) _
  rw [decode, encode, String.toList_ofList, Alphabet.digits?_map_char hdigits, Option.map_some,
    Radix.convert_convert 58 (by omega) (toNat_lt b), List.map_map]
  simp [Function.comp_def]

/-- Text with a character outside the alphabet is rejected. -/
theorem decode_eq_none {s : String} {c : Char} (h : c ∈ s.toList) (hc : c ∉ alphabet.chars) :
    decode s = none := by
  rw [decode, Alphabet.digits?_eq_none h hc, Option.map_none]

/-- `n` characters never stand for `m` bytes when these are too few for the values that `n`
digits have. -/
theorem length_ne_of_decode {s : String} {b : Bytes} {m : Nat} (h : decode s = some b)
    (hm : m < s.toList.length) (hpow : ∀ k ≤ m, 256 ^ (m - k) ≤ 58 ^ (s.toList.length - k - 1)) :
    b.length ≠ m := by
  intro hlen
  obtain ⟨ds, hds, rfl⟩ := Option.map_eq_some_iff.mp h
  have hdslen : ds.length = s.toList.length := by
    by_cases hall : ∀ c ∈ s.toList, c ∈ alphabet.chars
    · obtain ⟨ds', hds', hlen', -⟩ := Alphabet.exists_digits? hall
      obtain rfl := Option.some_inj.mp (hds.symm.trans hds')
      exact hlen'
    · push Not at hall
      obtain ⟨c, hc, hnot⟩ := hall
      rw [Alphabet.digits?_eq_none hc hnot] at hds
      cases hds
  rw [List.length_map] at hlen
  by_cases hzeros : Radix.zeros ds = ds.length
  · rw [Radix.length_convert_of_zeros hzeros] at hlen
    omega
  · have hle : Radix.zeros ds ≤ ds.length := by
      rw [Radix.length_eq ds]
      exact Nat.le_add_right _ _
    have hlt := Radix.pow_lt_pow_length_convert (b := 58) (c := 256) (by omega)
      (Nat.lt_of_le_of_ne hle hzeros)
    have hk := Radix.zeros_le_length_convert 58 256 ds
    rw [hlen] at hlt hk
    rw [hdslen] at hlt
    exact absurd hlt (Nat.not_lt.mpr (hpow _ hk))

end Base58

/-! ### base64 -/

namespace Base64

def alphabet : Alphabet where
  chars := "ABCDEFGHIJKLMNOPQRSTUVWXYZabcdefghijklmnopqrstuvwxyz0123456789+/".toList
  nodup := by decide

/-- Three bytes are four digits, of which a last group of one or two bytes takes two or three. -/
def digits : Bytes → List Nat
  | x :: y :: z :: rest =>
    x.toNat / 4 :: (x.toNat % 4 * 16 + y.toNat / 16) :: (y.toNat % 16 * 4 + z.toNat / 64) ::
      z.toNat % 64 :: digits rest
  | [x, y] => [x.toNat / 4, x.toNat % 4 * 16 + y.toNat / 16, y.toNat % 16 * 4]
  | [x] => [x.toNat / 4, x.toNat % 4 * 16]
  | [] => []

def padding : Bytes → Nat
  | _ :: _ :: _ :: rest => padding rest
  | [_, _] => 1
  | [_] => 2
  | [] => 0

/-- The padded encoding. -/
def encode (b : Bytes) : String :=
  .ofList ((digits b).map alphabet.char ++ List.replicate (padding b) '=')

/-- The bytes of groups of digits. Bits that are left over are dropped. -/
def bytes : List Nat → Option Bytes
  | w :: x :: y :: z :: rest =>
    (bytes rest).map fun b =>
      UInt8.ofNat (w * 4 + x / 16) :: UInt8.ofNat (x % 16 * 16 + y / 4) ::
        UInt8.ofNat (y % 4 * 64 + z) :: b
  | [w, x, y] => some [UInt8.ofNat (w * 4 + x / 16), UInt8.ofNat (x % 16 * 16 + y / 4)]
  | [w, x] => some [UInt8.ofNat (w * 4 + x / 16)]
  | [_] => none
  | [] => some []

def isAsciiWhitespace (c : Char) : Bool :=
  c == '\t' || c == '\n' || c == '\x0c' || c == '\r' || c == ' '

/-- Up to two `=` at the end go when the length is a multiple of four. -/
def dropPadding (cs : List Char) : List Char :=
  if cs.length % 4 = 0 then cs.take (cs.length - min 2 (cs.reverse.takeWhile (· == '=')).length)
  else cs

/-- The forgiving decoder: white space and missing padding are allowed. -/
def atob (s : String) : Option Bytes :=
  (alphabet.digits? (dropPadding (s.toList.filter (!isAsciiWhitespace ·)))).bind bytes

theorem alphabet_length : alphabet.chars.length = 64 := by decide

theorem digits_lt (b : Bytes) : ∀ d ∈ digits b, d < 64 := by
  fun_induction digits b with
  | case1 x y z rest ih =>
    have hx := x.toNat_lt_size
    have hy := y.toNat_lt_size
    have hz := z.toNat_lt_size
    simp only [UInt8.size] at hx hy hz
    simp only [List.forall_mem_cons]
    exact ⟨by omega, by omega, by omega, by omega, ih⟩
  | case2 x y =>
    have hx := x.toNat_lt_size
    have hy := y.toNat_lt_size
    simp only [UInt8.size] at hx hy
    simp only [List.forall_mem_cons, List.not_mem_nil, false_imp_iff, implies_true, and_true]
    omega
  | case3 x =>
    have hx := x.toNat_lt_size
    simp only [UInt8.size] at hx
    simp only [List.forall_mem_cons, List.not_mem_nil, false_imp_iff, implies_true, and_true]
    omega
  | case4 => simp

theorem bytes_digits (b : Bytes) : bytes (digits b) = some b := by
  fun_induction digits b with
  | case1 x y z rest ih =>
    have hx := x.toNat_lt_size
    have hy := y.toNat_lt_size
    have hz := z.toNat_lt_size
    simp only [UInt8.size] at hx hy hz
    rw [bytes, ih, Option.map_some,
      show x.toNat / 4 * 4 + (x.toNat % 4 * 16 + y.toNat / 16) / 16 = x.toNat by omega,
      show (x.toNat % 4 * 16 + y.toNat / 16) % 16 * 16 +
        (y.toNat % 16 * 4 + z.toNat / 64) / 4 = y.toNat by omega,
      show (y.toNat % 16 * 4 + z.toNat / 64) % 4 * 64 + z.toNat % 64 = z.toNat by omega]
    simp
  | case2 x y =>
    have hx := x.toNat_lt_size
    have hy := y.toNat_lt_size
    simp only [UInt8.size] at hx hy
    rw [bytes,
      show x.toNat / 4 * 4 + (x.toNat % 4 * 16 + y.toNat / 16) / 16 = x.toNat by omega,
      show (x.toNat % 4 * 16 + y.toNat / 16) % 16 * 16 + y.toNat % 16 * 4 / 4 = y.toNat by omega]
    simp
  | case3 x =>
    have hx := x.toNat_lt_size
    simp only [UInt8.size] at hx
    rw [bytes, show x.toNat / 4 * 4 + x.toNat % 4 * 16 / 16 = x.toNat by omega]
    simp
  | case4 => rfl

theorem length_digits (b : Bytes) : ((digits b).length + padding b) % 4 = 0 := by
  fun_induction digits b with
  | case1 x y z rest ih =>
    rw [padding]
    simp only [List.length_cons]
    omega
  | case2 | case3 | case4 => simp [padding]

theorem padding_eq (b : Bytes) : padding b = (3 - b.length % 3) % 3 := by
  fun_induction padding b with
  | case1 x y z rest ih =>
    simp only [List.length_cons]
    omega
  | case2 | case3 | case4 => rfl

theorem alphabet_plain : ∀ c ∈ alphabet.chars, c ≠ '=' ∧ isAsciiWhitespace c = false := by
  have hall : (alphabet.chars.all fun c => c != '=' && !isAsciiWhitespace c) = true := by decide
  intro c hc
  simpa using List.all_eq_true.mp hall c hc

theorem filter_plain {cs : List Char} (h : ∀ c ∈ cs, c ∈ alphabet.chars) (p : Nat) :
    (cs ++ List.replicate p '=').filter (!isAsciiWhitespace ·) = cs ++ List.replicate p '=' := by
  refine List.filter_eq_self.mpr fun c hc => ?_
  rcases List.mem_append.mp hc with hc | hc
  · simp [(alphabet_plain c (h c hc)).2]
  · rw [List.eq_of_mem_replicate hc]
    rfl

theorem dropPadding_append {cs : List Char} (h : ∀ c ∈ cs, c ∈ alphabet.chars) {p : Nat}
    (hp : p ≤ 2) (hlen : (cs.length + p) % 4 = 0) :
    dropPadding (cs ++ List.replicate p '=') = cs := by
  have hcs : cs.reverse.takeWhile (· == '=') = [] := by
    cases hr : cs.reverse with
    | nil => rfl
    | cons c rest =>
      have hc : c ∈ cs := List.mem_reverse.mp (by simp [hr])
      simp [(alphabet_plain c (h c hc)).1]
  have hlen' : (cs ++ List.replicate p '=').length = cs.length + p := by simp
  have htail : ((cs ++ List.replicate p '=').reverse.takeWhile (· == '=')).length = p := by
    rw [List.reverse_append, List.reverse_replicate, List.takeWhile_append_of_pos (by simp), hcs]
    simp
  rw [dropPadding, hlen', if_pos hlen, htail, Nat.min_eq_right hp, Nat.add_sub_cancel,
    List.take_left]

/-- Digits with the padding that completes their last group are read as these digits. -/
theorem atob_append {ds : List Nat} (h : ∀ d ∈ ds, d < 64) {p : Nat} (hp : p ≤ 2)
    (hlen : (ds.length + p) % 4 = 0) :
    atob (.ofList (ds.map alphabet.char ++ List.replicate p '=')) = bytes ds := by
  rw [← alphabet_length] at h
  have hchars : ∀ c ∈ ds.map alphabet.char, c ∈ alphabet.chars := by
    intro c hc
    obtain ⟨d, hd, rfl⟩ := List.mem_map.mp hc
    exact Alphabet.char_mem (h d hd)
  rw [atob, String.toList_ofList, filter_plain hchars,
    dropPadding_append hchars hp (by rwa [List.length_map]), Alphabet.digits?_map_char h,
    Option.bind_some]

theorem atob_encode (b : Bytes) : atob (encode b) = some b := by
  have hp : padding b ≤ 2 := by
    rw [padding_eq]
    omega
  rw [encode, atob_append (digits_lt b) hp (length_digits b), bytes_digits]

theorem length_bytes {n : Nat} {ds : List Nat} (h : ds.length = 4 * n) :
    ∃ b, bytes ds = some b ∧ b.length = 3 * n := by
  induction n generalizing ds with
  | zero =>
    obtain rfl := List.length_eq_zero_iff.mp (by omega : ds.length = 0)
    exact ⟨[], rfl, rfl⟩
  | succ n ih =>
    rcases ds with _ | ⟨w, _ | ⟨x, _ | ⟨y, _ | ⟨z, rest⟩⟩⟩⟩ <;> simp only [List.length_cons,
      List.length_nil] at h <;> try omega
    obtain ⟨b, hb, hlen⟩ := ih (show rest.length = 4 * n by omega)
    refine ⟨_, by rw [bytes, hb, Option.map_some], ?_⟩
    simp only [List.length_cons]
    omega

/-- Text of the alphabet in whole groups always decodes. -/
theorem atob_of_groups {n : Nat} {s : String} (h : ∀ c ∈ s.toList, c ∈ alphabet.chars)
    (hlen : s.toList.length = 4 * n) : ∃ b, atob s = some b ∧ b.length = 3 * n := by
  obtain ⟨ds, hds, hdslen, -⟩ := Alphabet.exists_digits? h
  obtain ⟨b, hb, hblen⟩ := length_bytes (hdslen.trans hlen)
  have hplain := filter_plain h 0
  have hdrop := dropPadding_append h (p := 0) (by omega) (by omega)
  simp only [List.replicate_zero, List.append_nil] at hplain hdrop
  exact ⟨b, by rw [atob, hplain, hdrop, hds, Option.bind_some, hb], hblen⟩

end Base64

end SovereignJedi.Js
