import SovereignJedi.Js.Encoding
import SovereignJedi.Wallet.Identity

/-! `decodeSignature` and `signatureToBase58` of `utils.ts` with the real codecs: the decoders that
are tried one after the other never take a signature in a later encoding for another one. -/

namespace SovereignJedi.Wallet

open SovereignJedi.Js

/-- What `decodeSignature` takes. -/
inductive SignatureInput where
  | bytes (b : Bytes)
  | text (s : String)

section Codecs

variable (C : TextCodecs)

def SignatureInput.decodeSignature : SignatureInput → Result Bytes
  | .bytes sig => do
    require (sig.length == 64) s!"Invalid signature length: {sig.length} (expected 64)"
    return sig
  | .text sig => Wallet.decodeSignature C sig

def SignatureInput.signatureToBase58 (sig : SignatureInput) : Result String := do
  let bytes ← sig.decodeSignature C
  return C.bs58Encode bytes

/-- `bs58` and `atob` are base58btc and base64. Where there is no `atob`, `Buffer.from` reads
whatever `atob` would. -/
structure StandardCodecs : Prop where
  bs58Encode : C.bs58Encode = Base58.encode
  bs58Decode : C.bs58Decode = Base58.decode
  atob : ∀ f, C.atob = some f → f = Base64.atob
  buffer : C.atob = none →
    ∃ f, C.buffer = some f ∧ ∀ s b, Base64.atob s = some b → f s = b

end Codecs

def hexLower (b : Bytes) : String := .ofList (b.flatMap hexByte)

def hexUpper (b : Bytes) : String := .ofList ((b.flatMap hexByte).map Char.toUpper)

variable {C : TextCodecs} {b : Bytes}

/-! ### Hexadecimal text -/

def nibbles (b : Bytes) : List Nat := b.flatMap fun x => [x.toNat / 16, x.toNat % 16]

theorem nibbles_lt (b : Bytes) : ∀ d ∈ nibbles b, d < 16 := by
  intro d hd
  obtain ⟨x, -, hx⟩ := List.mem_flatMap.mp hd
  have hlt := x.toNat_lt_size
  simp only [UInt8.size] at hlt
  simp only [List.mem_cons, List.not_mem_nil, or_false] at hx
  omega

theorem length_nibbles (b : Bytes) : (nibbles b).length = 2 * b.length := by
  induction b with
  | nil => rfl
  | cons x b ih =>
    rw [nibbles, List.flatMap_cons, List.length_append, ← nibbles, ih]
    simp only [List.length_cons, List.length_nil]
    omega

theorem hexToBytes_nibbles (b : Bytes) : hexToBytes (nibbles b) = b := by
  induction b with
  | nil => rfl
  | cons x b ih =>
    rw [nibbles, List.flatMap_cons, ← nibbles, List.cons_append, List.cons_append, List.nil_append,
      hexToBytes, ih, Nat.div_add_mod, UInt8.ofNat_toNat]

theorem flatMap_hexByte (b : Bytes) : b.flatMap hexByte = (nibbles b).map Nat.digitChar := by
  rw [nibbles, List.map_flatMap]
  rfl

/-- `e d` is a character for the hexadecimal digit `d`, and one that base64 has too. -/
structure HexDigits (e : Nat → Char) : Prop where
  hexDigit : ∀ d < 16, hexDigit (e d) = some d
  base64 : ∀ d < 16, e d ∈ Base64.alphabet.chars

theorem HexDigits.of_all {e : Nat → Char}
    (h : ((List.range 16).all fun d =>
      Wallet.hexDigit (e d) == some d && Base64.alphabet.chars.contains (e d)) = true) :
    HexDigits e := by
  have hall : ∀ d < 16, Wallet.hexDigit (e d) = some d ∧ e d ∈ Base64.alphabet.chars := by
    intro d hd
    simpa using List.all_eq_true.mp h d (List.mem_range.mpr hd)
  exact ⟨fun d hd => (hall d hd).1, fun d hd => (hall d hd).2⟩

theorem hexDigits_digitChar : HexDigits Nat.digitChar := .of_all (by decide)

theorem hexDigits_toUpper : HexDigits fun d => (Nat.digitChar d).toUpper := .of_all (by decide)

theorem HexDigits.mapM {e : Nat → Char} (h : HexDigits e) {ds : List Nat} (hds : ∀ d ∈ ds, d < 16) :
    (ds.map e).mapM Wallet.hexDigit = some ds := by
  induction ds with
  | nil => rfl
  | cons d ds ih =>
    rw [List.forall_mem_cons] at hds
    simp [h.hexDigit d hds.1, ih hds.2]

/-! ### Decoding -/

/-- The bytes of a decoder, where it gives 64. -/
abbrev whole (decoded : Option Bytes) : Option Bytes := decoded.filter fun b => b.length == 64

theorem whole_some (hb : b.length = 64) : whole (some b) = some b := by
  simp [whole, Option.filter_some, hb]

theorem whole_eq_none {decoded : Option Bytes} (h : ∀ b, decoded = some b → b.length ≠ 64) :
    whole decoded = none :=
  Option.filter_eq_none_iff.mpr fun b hb => by simpa using h b hb

theorem decodeSignature_of_base58 {s : String} (h : whole (C.bs58Decode s) = some b) :
    Wallet.decodeSignature C s = .ok b := by
  simp only [Wallet.decodeSignature, h]

theorem decodeSignature_of_base64 {s : String} (h58 : whole (C.bs58Decode s) = none)
    (h64 : whole (base64ToBytes C s) = some b) : Wallet.decodeSignature C s = .ok b := by
  simp only [Wallet.decodeSignature, h58, h64]

theorem decodeSignature_of_hex {s : String} (digits : List Nat)
    (h58 : whole (C.bs58Decode s) = none) (h64 : whole (base64ToBytes C s) = none)
    (h16 : s.toList.mapM hexDigit = some digits) (hlen : digits.length = 128) :
    Wallet.decodeSignature C s = .ok (hexToBytes digits) := by
  simp only [Wallet.decodeSignature, h58, h64, h16, hlen, if_true]

theorem length_hexToBytes {n : Nat} {digits : List Nat} (h : digits.length = 2 * n) :
    (hexToBytes digits).length = n := by
  induction n generalizing digits with
  | zero =>
    obtain rfl := List.length_eq_zero_iff.mp h
    rfl
  | succ n ih =>
    rcases digits with _ | ⟨hi, _ | ⟨lo, digits⟩⟩ <;> simp only [List.length_cons,
      List.length_nil] at h <;> try omega
    rw [hexToBytes, List.length_cons, ih (by omega)]

/-- Whatever is decoded has the length of a signature. -/
theorem length_decodeSignature {s : String} (h : Wallet.decodeSignature C s = .ok b) :
    b.length = 64 := by
  have hwhole : ∀ {o : Option Bytes}, whole o = some b → b.length = 64 := by
    intro o ho
    simpa using (Option.filter_eq_some_iff.mp ho).2
  rw [Wallet.decodeSignature] at h
  split at h
  · next h58 =>
    cases h
    exact hwhole h58
  · next h64 =>
    cases h
    exact hwhole h64
  · split at h
    · next hlen =>
      cases h
      exact length_hexToBytes hlen
    · cases h
  · cases h

theorem SignatureInput.length_decodeSignature {sig : SignatureInput}
    (h : sig.decodeSignature C = .ok b) : b.length = 64 := by
  cases sig with
  | bytes b' =>
    by_cases hb' : b'.length = 64
    · rw [SignatureInput.decodeSignature, hb'] at h
      cases h
      exact hb'
    · rw [SignatureInput.decodeSignature, show (b'.length == 64) = false by simpa using hb',
        require_false] at h
      cases h
  | text s => exact Wallet.length_decodeSignature h

theorem base64ToBytes_eq {s : String} (hC : StandardCodecs C) (h : Base64.atob s = some b) :
    base64ToBytes C s = some b := by
  cases hatob : C.atob with
  | some f => rw [base64ToBytes, hatob, hC.atob f hatob, ← h]
  | none =>
    obtain ⟨f, hf, hread⟩ := hC.buffer hatob
    rw [base64ToBytes, hatob, hf]
    exact congrArg some (hread s b h)

/-- The padding of 64 bytes is no base58. -/
theorem base58_decode_base64 (hb : b.length = 64) : Base58.decode (Base64.encode b) = none := by
  refine Base58.decode_eq_none (c := '=') ?_ (by decide)
  rw [Base64.encode, String.toList_ofList, Base64.padding_eq, hb]
  simp

/-- 128 characters of base58 are never 64 bytes, however many of them are a `1`. -/
theorem length_ne_of_base58 {s : String} (hlen : s.toList.length = 128)
    (h : Base58.decode s = some b) : b.length ≠ 64 := by
  refine Base58.length_ne_of_decode h (by omega) fun k hk => ?_
  rw [hlen]
  calc 256 ^ (64 - k) ≤ (5 * 58) ^ (64 - k) := Nat.pow_le_pow_left (by omega) _
    _ = 5 ^ (64 - k) * 58 ^ (64 - k) := Nat.mul_pow _ _ _
    _ ≤ 5 ^ 64 * 58 ^ (64 - k) :=
      Nat.mul_le_mul_right _ (Nat.pow_le_pow_right (by omega) (by omega))
    _ ≤ 58 ^ 63 * 58 ^ (64 - k) := Nat.mul_le_mul_right _ (by norm_num)
    _ = 58 ^ (128 - k - 1) := by
      rw [← pow_add]
      congr 1
      omega

theorem decodeSignature_base58 (hC : StandardCodecs C) (hb : b.length = 64) :
    Wallet.decodeSignature C (Base58.encode b) = .ok b := by
  refine decodeSignature_of_base58 ?_
  rw [hC.bs58Decode, Base58.decode_encode, whole_some hb]

theorem decodeSignature_base64 (hC : StandardCodecs C) (hb : b.length = 64) :
    Wallet.decodeSignature C (Base64.encode b) = .ok b := by
  refine decodeSignature_of_base64 ?_ ?_
  · rw [hC.bs58Decode, base58_decode_base64 hb]
    rfl
  · rw [base64ToBytes_eq hC (Base64.atob_encode b), whole_some hb]

/-- Hexadecimal text is decoded as such: base58 gives too many or too few bytes, base64 gives 96. -/
theorem decodeSignature_hex {e : Nat → Char} (hC : StandardCodecs C) (he : HexDigits e)
    (hb : b.length = 64) :
    Wallet.decodeSignature C (.ofList ((nibbles b).map e)) = .ok b := by
  have hlen : (String.ofList ((nibbles b).map e)).toList.length = 128 := by
    rw [String.toList_ofList, List.length_map, length_nibbles, hb]
  obtain ⟨a, ha, halen⟩ : ∃ a, Base64.atob (.ofList ((nibbles b).map e)) = some a ∧
      a.length = 96 := by
    refine Base64.atob_of_groups (n := 32) (fun c hc => ?_) hlen
    rw [String.toList_ofList] at hc
    obtain ⟨d, hd, rfl⟩ := List.mem_map.mp hc
    exact he.base64 d (nibbles_lt b d hd)
  have h := decodeSignature_of_hex (C := C) (s := .ofList ((nibbles b).map e)) (nibbles b)
    ?_ ?_ ?_ ?_
  · rw [h, hexToBytes_nibbles]
  · rw [hC.bs58Decode]
    exact whole_eq_none fun _ => length_ne_of_base58 hlen
  · rw [base64ToBytes_eq hC ha]
    exact whole_eq_none fun _ h => by cases h; omega
  · rw [String.toList_ofList, he.mapM (nibbles_lt b)]
  · rw [length_nibbles, hb]

theorem decodeSignature_hexLower (hC : StandardCodecs C) (hb : b.length = 64) :
    Wallet.decodeSignature C (hexLower b) = .ok b := by
  rw [hexLower, flatMap_hexByte]
  exact decodeSignature_hex hC hexDigits_digitChar hb

theorem decodeSignature_hexUpper (hC : StandardCodecs C) (hb : b.length = 64) :
    Wallet.decodeSignature C (hexUpper b) = .ok b := by
  rw [hexUpper, flatMap_hexByte, List.map_map]
  exact decodeSignature_hex hC hexDigits_toUpper hb

/-- The forms in which a signature can be given. -/
def signatureForms (b : Bytes) : List SignatureInput :=
  [.bytes b, .text (Base58.encode b), .text (Base64.encode b), .text (hexLower b),
    .text (hexUpper b)]

theorem decodeSignature_of_mem_forms (hC : StandardCodecs C) (hb : b.length = 64)
    {sig : SignatureInput} (h : sig ∈ signatureForms b) : sig.decodeSignature C = .ok b := by
  simp only [signatureForms, List.mem_cons, List.not_mem_nil, or_false] at h
  rcases h with rfl | rfl | rfl | rfl | rfl
  · simp [SignatureInput.decodeSignature, hb]
  · exact decodeSignature_base58 hC hb
  · exact decodeSignature_base64 hC hb
  · exact decodeSignature_hexLower hC hb
  · exact decodeSignature_hexUpper hC hb

theorem SignatureInput.signatureToBase58_eq {sig : SignatureInput}
    (h : sig.decodeSignature C = .ok b) : sig.signatureToBase58 C = .ok (C.bs58Encode b) := by
  simp [SignatureInput.signatureToBase58, h]

/-- The bytes of a signature, its base58, base64 and hexadecimal texts are all decoded as these
bytes and have one base58 form, and the base58 form of any input is its own. -/
theorem decodeSignature_unambiguous (hC : StandardCodecs C) :
    (∀ b : Bytes, b.length = 64 → ∀ sig ∈ signatureForms b,
      sig.decodeSignature C = .ok b ∧ sig.signatureToBase58 C = .ok (Base58.encode b)) ∧
    ∀ sig s, SignatureInput.signatureToBase58 C sig = .ok s →
      SignatureInput.signatureToBase58 C (.text s) = .ok s := by
  refine ⟨fun b hb sig hsig => ?_, fun sig s h => ?_⟩
  · have hdecode := decodeSignature_of_mem_forms hC hb hsig
    exact ⟨hdecode, by rw [SignatureInput.signatureToBase58_eq hdecode, hC.bs58Encode]⟩
  · cases hsig : sig.decodeSignature C with
    | error e => simp [SignatureInput.signatureToBase58, hsig] at h
    | ok b =>
      rw [SignatureInput.signatureToBase58_eq hsig] at h
      cases h
      have hb := SignatureInput.length_decodeSignature hsig
      have hdecode : SignatureInput.decodeSignature C (.text (C.bs58Encode b)) = .ok b := by
        rw [hC.bs58Encode]
        exact decodeSignature_base58 hC hb
      exact SignatureInput.signatureToBase58_eq hdecode

/-- A browser. -/
def webCodecs : TextCodecs where
  bs58Encode := Base58.encode
  bs58Decode := Base58.decode
  atob := some Base64.atob
  buffer := none

theorem standardCodecs_webCodecs : StandardCodecs webCodecs where
  bs58Encode := rfl
  bs58Decode := rfl
  atob f hf := (Option.some_inj.mp hf).symm
  buffer h := by cases h

theorem decodeSignature_unambiguous_web :
    SignatureInput.decodeSignature webCodecs (.text (hexLower (List.replicate 64 7))) =
      .ok (List.replicate 64 7) ∧
    SignatureInput.signatureToBase58 webCodecs (.text (hexLower (List.replicate 64 7))) =
      .ok (Base58.encode (List.replicate 64 7)) :=
  (decodeSignature_unambiguous standardCodecs_webCodecs).1 _ List.length_replicate _
    (by simp [signatureForms])

end SovereignJedi.Wallet
