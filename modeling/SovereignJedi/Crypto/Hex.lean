import SovereignJedi.Js.CodeUnits
import SovereignJedi.Js.Platform

/-! The hex helpers of `@sj/crypto`, of which `index.ts` and `crypto-utils.ts` have a copy each. They
undo each other on bytes. A string of odd length is refused, but `parseInt` reads anything else, so
that other text than hexadecimal digits decodes to some bytes as well. -/

namespace SovereignJedi.Crypto

open SovereignJedi.Js
open CodeUnits

namespace Index

def toHex (bytes : Bytes) : CodeUnits :=
  bytes.flatMap fun b => padStart (ofNat b.toNat 16) 2 (ascii '0')

/-- The loop has `i++` and runs while `i < bytes.length`. -/
def fillBytes (hex : CodeUnits) (bytes : Bytes) : Bytes :=
  (List.range bytes.length).foldl
    (fun bytes i => bytes.set i (parseInt ((hex.drop (i * 2)).take 2) 16).toUint8) bytes

def fromHex (hex : CodeUnits) : Result Bytes :=
  if hex.length % 2 ≠ 0 then .error (.error "Invalid hex string length")
  else .ok (fillBytes hex (List.replicate (hex.length / 2) (.ofNat 0)))

end Index

namespace CryptoUtils

def toHex (bytes : Bytes) : CodeUnits :=
  bytes.flatMap fun b => padStart (ofNat b.toNat 16) 2 (ascii '0')

/-- The loop has `i += 2` and runs while `i < hex.length`. -/
def fillOut (hex : CodeUnits) (out : Bytes) : Bytes :=
  (List.range' 0 ((hex.length + 1) / 2) 2).foldl
    (fun out i => out.set (i / 2) (parseInt ((hex.take (i + 2)).drop i) 16).toUint8) out

def fromHex (hex : CodeUnits) : Result Bytes :=
  if hex.length % 2 ≠ 0 then .error (.error "Invalid hex string")
  else .ok (fillOut hex (List.replicate (hex.length / 2) (.ofNat 0)))

end CryptoUtils

/-- 0-9, a-f or A-F. -/
def IsHexDigit (u : UInt16) : Prop := u ∈ ofAscii "0123456789abcdefABCDEF".toList

/-- What decoding `s` is meant to do: the bytes are the ones that `s` is the text of, but for the
case of its letters, and only text made of pairs of digits has bytes. -/
structure DecodesHex (L : LowerCase) (toHex : Bytes → CodeUnits) (fromHex : CodeUnits → Result Bytes)
    (s : CodeUnits) : Prop where
  toHex_eq : ∀ b, fromHex s = .ok b → toHex b = L.toLowerCase s
  accepts : (∃ b, fromHex s = .ok b) ↔ s.length % 2 = 0 ∧ ∀ u ∈ s, IsHexDigit u

/-! ### The loops -/

/-- The bytes of the pairs of code units. -/
def decodePairs : CodeUnits → Bytes
  | [] => []
  | [_] => []
  | u :: v :: s => (parseInt [u, v] 16).toUint8 :: decodePairs s

/-- A loop that stores an element at each index of an array, one after the other. -/
theorem foldl_set_range {α : Type} (f : Nat → α) (x : α) {m n : Nat} (h : m ≤ n) :
    (List.range m).foldl (fun out i => out.set i (f i)) (List.replicate n x) =
      (List.range m).map f ++ List.replicate (n - m) x := by
  induction m with
  | zero => simp
  | succ m ih =>
    obtain ⟨k, hk⟩ : ∃ k, n - m = k + 1 := ⟨n - m - 1, by omega⟩
    have hk' : n - (m + 1) = k := by omega
    rw [List.range_succ, List.foldl_append, ih (by omega), hk, hk']
    simp [List.replicate_succ]

theorem map_range_pairs (s : CodeUnits) :
    (List.range (s.length / 2)).map (fun i => (parseInt ((s.drop (i * 2)).take 2) 16).toUint8) =
      decodePairs s := by
  induction s using decodePairs.induct with
  | case1 => rfl
  | case2 u => simp [decodePairs]
  | case3 u v s ih =>
    have hlen : (u :: v :: s).length / 2 = s.length / 2 + 1 := by
      simp only [List.length_cons]
      omega
    have hdrop : ∀ i, ((u :: v :: s).drop ((i + 1) * 2)) = s.drop (i * 2) := by
      intro i
      rw [show (i + 1) * 2 = i * 2 + 1 + 1 by omega, List.drop_succ_cons, List.drop_succ_cons]
    rw [hlen, List.range_succ_eq_map, List.map_cons, List.map_map, decodePairs, ← ih]
    simp only [Function.comp_def, Nat.succ_eq_add_one, hdrop]
    simp

theorem range'_two (m n : Nat) : List.range' (2 * m) n 2 = (List.range' m n).map (2 * ·) := by
  induction n generalizing m with
  | zero => rfl
  | succ n ih => rw [List.range'_succ, List.range'_succ, List.map_cons, ← ih, Nat.mul_succ]

theorem Index.fillBytes_eq (s : CodeUnits) :
    Index.fillBytes s (List.replicate (s.length / 2) (.ofNat 0)) = decodePairs s := by
  rw [Index.fillBytes, List.length_replicate, ← map_range_pairs,
    foldl_set_range (fun i => (parseInt ((s.drop (i * 2)).take 2) 16).toUint8) _ le_rfl,
    Nat.sub_self, List.replicate_zero, List.append_nil]

theorem CryptoUtils.fillOut_eq {s : CodeUnits} (h : s.length % 2 = 0) :
    CryptoUtils.fillOut s (List.replicate (s.length / 2) (.ofNat 0)) = decodePairs s := by
  have hrange : List.range' 0 ((s.length + 1) / 2) 2 = (List.range (s.length / 2)).map (2 * ·) := by
    rw [show (s.length + 1) / 2 = s.length / 2 by omega, List.range_eq_range', ← range'_two]
  have hslice : ∀ i, (s.take (2 * i + 2)).drop (2 * i) = (s.drop (i * 2)).take 2 := by
    intro i
    rw [List.drop_take, Nat.add_sub_cancel_left, Nat.mul_comm]
  have hindex : ∀ i, 2 * i / 2 = i := fun i => by omega
  rw [CryptoUtils.fillOut, hrange, List.foldl_map, ← map_range_pairs]
  simp only [hslice, hindex]
  rw [foldl_set_range (fun i => (parseInt ((s.drop (i * 2)).take 2) 16).toUint8) _ le_rfl,
    Nat.sub_self, List.replicate_zero, List.append_nil]

/-- `fromHex` decodes the pairs of a string of even length, whatever they are. -/
structure DecodesPairs (fromHex : CodeUnits → Result Bytes) : Prop where
  even : ∀ s : CodeUnits, s.length % 2 = 0 → fromHex s = .ok (decodePairs s)
  odd : ∀ s : CodeUnits, s.length % 2 ≠ 0 → ∀ b, fromHex s ≠ .ok b

theorem Index.decodesPairs : DecodesPairs Index.fromHex where
  even s h := by rw [Index.fromHex, if_neg (not_not.mpr h), Index.fillBytes_eq]
  odd s h b := by simp [Index.fromHex, h]

theorem CryptoUtils.decodesPairs : DecodesPairs CryptoUtils.fromHex where
  even s h := by rw [CryptoUtils.fromHex, if_neg (not_not.mpr h), CryptoUtils.fillOut_eq h]
  odd s h b := by simp [CryptoUtils.fromHex, h]

/-! ### Digits -/

/-- The code unit of a digit as `toString(16)` has it. -/
def hexUnit (d : Nat) : UInt16 := ascii (Nat.digitChar d)

theorem digit_hexUnit {d : Nat} (h : d < 16) : digit 16 (hexUnit d) = some d := by
  have hall : ((List.range 16).all fun d => digit 16 (hexUnit d) == some d) = true := by decide
  simpa using List.all_eq_true.mp hall d (List.mem_range.mpr h)

theorem IsHexDigit.digit {u : UInt16} (h : IsHexDigit u) :
    ∃ d, digit 16 u = some d ∧ lowerAscii u = hexUnit d := by
  have hall : ((ofAscii "0123456789abcdefABCDEF".toList).all fun u =>
      (CodeUnits.digit 16 u).any fun d => lowerAscii u == hexUnit d) = true := by decide
  simpa [Option.any_eq_true] using List.all_eq_true.mp hall u h

/-- A byte is written as two digits. -/
theorem padStart_ofNat {n : Nat} (h : n < 256) :
    padStart (ofNat n 16) 2 (ascii '0') = [hexUnit (n / 16), hexUnit (n % 16)] := by
  by_cases hn : n < 16
  · have hdigits : ofNat n 16 = [hexUnit n] := by rw [ofNat, Nat.toDigits_of_lt_base hn]; rfl
    rw [hdigits, Nat.div_eq_of_lt hn, Nat.mod_eq_of_lt hn]
    rfl
  · have hdigits : ofNat n 16 = [hexUnit (n / 16), hexUnit (n % 16)] := by
      rw [ofNat, Nat.toDigits_of_base_le (by omega) (by omega), Nat.toDigits_of_lt_base (by omega)]
      rfl
    rw [hdigits]
    rfl

/-! ### Both directions -/

theorem CryptoUtils.toHex_eq : CryptoUtils.toHex = Index.toHex := rfl

theorem Index.toHex_cons (b : UInt8) (bytes : Bytes) :
    Index.toHex (b :: bytes) =
      hexUnit (b.toNat / 16) :: hexUnit (b.toNat % 16) :: Index.toHex bytes := by
  rw [Index.toHex, List.flatMap_cons, padStart_ofNat b.toNat_lt_size, ← Index.toHex]
  rfl

theorem Index.length_toHex (bytes : Bytes) : (Index.toHex bytes).length = 2 * bytes.length := by
  induction bytes with
  | nil => rfl
  | cons b bytes ih =>
    rw [Index.toHex_cons, List.length_cons, List.length_cons, ih, List.length_cons]
    omega

theorem decodePairs_digits {u v : UInt16} {hi lo : Nat} (hu : CodeUnits.digit 16 u = some hi)
    (hv : CodeUnits.digit 16 v = some lo) (s : CodeUnits) :
    decodePairs (u :: v :: s) = UInt8.ofNat (16 * hi + lo) :: decodePairs s := by
  have hhi := (digit_eq_some.mp hu).2
  have hlo := (digit_eq_some.mp hv).2
  rw [decodePairs, parseInt_hexPair hu hv, Number.toUint8_ofInt (by omega)]

theorem decodePairs_toHex (bytes : Bytes) : decodePairs (Index.toHex bytes) = bytes := by
  induction bytes with
  | nil => rfl
  | cons b bytes ih =>
    have hb : b.toNat < 256 := b.toNat_lt_size
    rw [Index.toHex_cons, decodePairs_digits (digit_hexUnit (by omega)) (digit_hexUnit (by omega)),
      ih, Nat.div_add_mod, UInt8.ofNat_toNat]

theorem toHex_decodePairs {s : CodeUnits} (heven : s.length % 2 = 0) (h : ∀ u ∈ s, IsHexDigit u) :
    Index.toHex (decodePairs s) = s.map lowerAscii := by
  induction s using decodePairs.induct with
  | case1 => rfl
  | case2 u => simp at heven
  | case3 u v s ih =>
    rw [List.forall_mem_cons, List.forall_mem_cons] at h
    obtain ⟨hi, hhi, hu⟩ := h.1.digit
    obtain ⟨lo, hlo, hv⟩ := h.2.1.digit
    have hhilt := (digit_eq_some.mp hhi).2
    have hlolt := (digit_eq_some.mp hlo).2
    have hbyte : (UInt8.ofNat (16 * hi + lo)).toNat = 16 * hi + lo :=
      UInt8.toNat_ofNat_of_lt (by simp only [UInt8.size]; omega)
    have hlen : s.length % 2 = 0 := by
      simp only [List.length_cons] at heven
      omega
    rw [decodePairs_digits hhi hlo, Index.toHex_cons, hbyte, ih hlen h.2.2, List.map_cons,
      List.map_cons, hu, hv, show (16 * hi + lo) / 16 = hi by omega,
      show (16 * hi + lo) % 16 = lo by omega]

theorem lowerCase_of_hex (L : LowerCase) {s : CodeUnits} (h : ∀ u ∈ s, IsHexDigit u) :
    L.toLowerCase s = s.map lowerAscii := by
  refine L.ascii s fun u hu => ?_
  obtain ⟨d, hd, -⟩ := (h u hu).digit
  have hascii := alphanumeric_of_digit hd
  omega

theorem DecodesPairs.fromHex_toHex {fromHex : CodeUnits → Result Bytes} (h : DecodesPairs fromHex)
    (b : Bytes) : fromHex (Index.toHex b) = .ok b := by
  rw [h.even _ (by rw [Index.length_toHex]; omega), decodePairs_toHex]

/-- A decoder of pairs does what it is meant to do on the strings that it refuses and on those that
are made of digits, and on no other. -/
theorem DecodesPairs.decodesHex_iff {fromHex : CodeUnits → Result Bytes} (h : DecodesPairs fromHex)
    (L : LowerCase) (s : CodeUnits) :
    DecodesHex L Index.toHex fromHex s ↔ s.length % 2 = 1 ∨ ∀ u ∈ s, IsHexDigit u := by
  constructor
  · intro hmeant
    by_cases heven : s.length % 2 = 0
    · exact Or.inr (hmeant.accepts.mp ⟨_, h.even s heven⟩).2
    · exact Or.inl (by omega)
  · intro hs
    by_cases heven : s.length % 2 = 0
    · have hdigits : ∀ u ∈ s, IsHexDigit u := hs.resolve_left (by omega)
      refine ⟨fun b hb => ?_, fun _ => ⟨heven, hdigits⟩, fun _ => ⟨_, h.even s heven⟩⟩
      rw [h.even s heven] at hb
      cases hb
      rw [toHex_decodePairs heven hdigits, lowerCase_of_hex L hdigits]
    · refine ⟨fun b hb => absurd hb (h.odd s heven b), ?_, fun hacc => absurd hacc.1 heven⟩
      rintro ⟨b, hb⟩
      exact absurd hb (h.odd s heven b)

/-- Both copies of the helpers undo each other on all bytes, and decode a string as they are meant
to exactly if its length is odd or it is made of hexadecimal digits. -/
theorem hex_codec (L : LowerCase) :
    (∀ b : Bytes, Index.fromHex (Index.toHex b) = .ok b ∧
      CryptoUtils.fromHex (CryptoUtils.toHex b) = .ok b) ∧
    ∀ s : CodeUnits,
      (DecodesHex L Index.toHex Index.fromHex s ↔ s.length % 2 = 1 ∨ ∀ u ∈ s, IsHexDigit u) ∧
      (DecodesHex L CryptoUtils.toHex CryptoUtils.fromHex s ↔
        s.length % 2 = 1 ∨ ∀ u ∈ s, IsHexDigit u) := by
  refine ⟨fun b => ⟨Index.decodesPairs.fromHex_toHex b, ?_⟩, fun s => ⟨?_, ?_⟩⟩
  · rw [CryptoUtils.toHex_eq]
    exact CryptoUtils.decodesPairs.fromHex_toHex b
  · exact Index.decodesPairs.decodesHex_iff L s
  · rw [CryptoUtils.toHex_eq]
    exact CryptoUtils.decodesPairs.decodesHex_iff L s

/-- The text `zz` is decoded to a zero byte. -/
theorem fromHex_zz :
    Index.fromHex (ofAscii ['z', 'z']) = .ok [.ofNat 0] ∧
    CryptoUtils.fromHex (ofAscii ['z', 'z']) = .ok [.ofNat 0] ∧
    Index.toHex [.ofNat 0] = ofAscii ['0', '0'] ∧
    ¬ DecodesHex .basic Index.toHex Index.fromHex (ofAscii ['z', 'z']) ∧
    ¬ DecodesHex .basic CryptoUtils.toHex CryptoUtils.fromHex (ofAscii ['z', 'z']) := by
  have hdecoded : decodePairs (ofAscii ['z', 'z']) = [.ofNat 0] := by decide
  have hindex : Index.fromHex (ofAscii ['z', 'z']) = .ok [.ofNat 0] := by
    rw [Index.decodesPairs.even _ (by decide), hdecoded]
  have hutils : CryptoUtils.fromHex (ofAscii ['z', 'z']) = .ok [.ofNat 0] := by
    rw [CryptoUtils.decodesPairs.even _ (by decide), hdecoded]
  have hz : ¬ IsHexDigit (ascii 'z') := by
    rw [IsHexDigit]
    decide
  refine ⟨hindex, hutils, by decide, fun h => ?_, fun h => ?_⟩
  · exact hz ((h.accepts.mp ⟨_, hindex⟩).2 _ (by simp [ofAscii]))
  · exact hz ((h.accepts.mp ⟨_, hutils⟩).2 _ (by simp [ofAscii]))

end SovereignJedi.Crypto
