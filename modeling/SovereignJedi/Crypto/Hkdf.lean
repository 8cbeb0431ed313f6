import SovereignJedi.Crypto.Kek
import SovereignJedi.Js.Symbolic

/-! HKDF as `index.ts` and `crypto-utils.ts` compute it, with the buffers that they fill, and the
definition of RFC 5869, which both follow. -/

namespace SovereignJedi.Crypto

open SovereignJedi.Js

/-- `new Uint8Array(n)`. -/
def newUint8Array (n : Nat) : Bytes := List.replicate n 0

/-- `target.set(source, offset)`, a `RangeError` where the source does not fit. -/
def setBytes (target source : Bytes) (offset : Nat) : Result Bytes :=
  if offset + source.length ≤ target.length then
    .ok (target.take offset ++ source ++ target.drop (offset + source.length))
  else .error (.rangeError "offset is out of bounds")

/-! ### The two copies -/

namespace Hkdf

variable (hmacSha256 : (key data : Bytes) → Bytes)

def normalizeSalt (salt : Option Bytes) (hashLen : Nat) : Bytes :=
  match salt with
  | none => newUint8Array hashLen
  | some salt => if salt.length = 0 then newUint8Array hashLen else salt

def hkdfExtract (salt : Option Bytes) (ikm : Bytes) : Bytes :=
  hmacSha256 (normalizeSalt salt 32) ikm

/-- `info ? info.length : 0`. -/
def infoLength (info : Option Bytes) : Nat :=
  match info with
  | none => 0
  | some info => info.length

/-- `if (info) input.set(info, offset)`. -/
def setInfo (input : Bytes) (info : Option Bytes) (offset : Nat) : Result Bytes :=
  match info with
  | none => .ok input
  | some info => setBytes input info offset

/-- The input of round `i`, after the block `t`. -/
def roundInput (t : Bytes) (info : Option Bytes) (i : Nat) : Result Bytes := do
  let input := newUint8Array (t.length + infoLength info + 1)
  let input ← setBytes input t 0
  let input ← setInfo input info t.length
  return input.set (t.length + infoLength info) (UInt8.ofNat i)

/-- The rounds from `i` on, `n` of them, with the parts so far. -/
def rounds (prk : Bytes) (info : Option Bytes) :
    (n i : Nat) → (t : Bytes) → (okmParts : List Bytes) → Result (List Bytes)
  | 0, _, _, okmParts => .ok okmParts
  | n + 1, i, t, okmParts => do
    let input ← roundInput t info i
    let t := hmacSha256 prk input
    rounds prk info n (i + 1) t (okmParts ++ [t])

/-- The parts one after the other from `offset` on. -/
def concatParts (okm : Bytes) (offset : Nat) : List Bytes → Result Bytes
  | [] => .ok okm
  | part :: parts => do
    let okm ← setBytes okm part offset
    concatParts okm (offset + part.length) parts

/-- `Math.ceil(length / hashLen)`. -/
def blockCount (length : Int) : Nat := ((length + 31) / 32).toNat

def hkdfExpand (prk : Bytes) (info : Option Bytes) (length : Int) : Result Bytes :=
  if length ≤ 0 ∨ length > 255 * 32 then .error (.error "hkdfExpand: invalid length")
  else do
    let n := blockCount length
    let okmParts ← rounds hmacSha256 prk info n 1 (newUint8Array 0) []
    let okm ← concatParts (newUint8Array (n * 32)) 0 okmParts
    return okm.take length.toNat

def deriveKeyHKDF (ikm : Bytes) (salt info : Option Bytes) (length : Int) : Result Bytes :=
  hkdfExpand hmacSha256 (hkdfExtract hmacSha256 salt ikm) info length

end Hkdf

section Copies

variable (P : Platform)

/-- The copy of `index.ts`. -/
def Index.deriveKeyHKDF : (ikm : Bytes) → (salt info : Option Bytes) → (length : Int) →
    Result Bytes :=
  Hkdf.deriveKeyHKDF P.hmacSha256

/-- The copy of `crypto-utils.ts`. -/
def CryptoUtils.deriveKeyHKDF : (ikm : Bytes) → (salt info : Option Bytes) → (length : Int) →
    Result Bytes :=
  Hkdf.deriveKeyHKDF P.hmacSha256

end Copies

/-! ### RFC 5869 -/

namespace Rfc5869

variable (hmac : (key data : Bytes) → Bytes)

/-- `PRK`, with 32 zero bytes for a missing or empty salt. -/
def prk (salt : Option Bytes) (ikm : Bytes) : Bytes :=
  hmac ((salt.filter fun s => !s.isEmpty).getD (List.replicate 32 0)) ikm

/-- `T(i)`. -/
def T (prk info : Bytes) : Nat → Bytes
  | 0 => []
  | i + 1 => hmac prk (T prk info i ++ info ++ [UInt8.ofNat (i + 1)])

/-- `T(1) || .. || T(n)`. -/
def blocks (prk info : Bytes) (n : Nat) : Bytes :=
  (List.range n).flatMap fun i => T hmac prk info (i + 1)

/-- The first `length` bytes of `T(1) || T(2) || ..`. -/
def okm (ikm : Bytes) (salt info : Option Bytes) (length : Nat) : Bytes :=
  (blocks hmac (prk hmac salt ikm) (info.getD []) length).take length

variable {hmac} (hlen : ∀ k b, (hmac k b).length = 32) (key info : Bytes)
include hlen

theorem length_blocks (n : Nat) : (blocks hmac key info n).length = 32 * n := by
  induction n with
  | zero => rfl
  | succ n ih =>
    rw [blocks, List.range_succ, List.flatMap_append, ← blocks, List.length_append, ih,
      List.flatMap_singleton, T, hlen]
    omega

omit hlen in
theorem blocks_prefix {m n : Nat} (h : m ≤ n) :
    blocks hmac key info m <+: blocks hmac key info n := by
  induction n, h using Nat.le_induction with
  | base => exact List.prefix_rfl
  | succ n _ ih =>
    refine ih.trans ?_
    rw [blocks, blocks, List.range_succ, List.flatMap_append]
    exact List.prefix_append _ _

/-- However many blocks are computed, the first bytes are the same. -/
theorem take_blocks {length m n : Nat} (hm : length ≤ 32 * m) (hn : length ≤ 32 * n) :
    (blocks hmac key info m).take length = (blocks hmac key info n).take length := by
  wlog h : m ≤ n generalizing m n with hother
  · exact (hother hn hm (by omega)).symm
  · have hpre : blocks hmac key info m <+: blocks hmac key info n := blocks_prefix key info h
    obtain ⟨rest, hrest⟩ := hpre
    rw [← hrest, List.take_append_of_le_length (by rw [length_blocks hlen]; omega)]

end Rfc5869

/-! ### The buffers hold the blocks -/

/-- Filling the zero bytes after `written` goes on where `written` ends. -/
theorem setBytes_append (written source : Bytes) (room : Nat) (h : source.length ≤ room) :
    setBytes (written ++ newUint8Array room) source written.length =
      .ok (written ++ source ++ newUint8Array (room - source.length)) := by
  have hfits : written.length + source.length ≤ (written ++ newUint8Array room).length := by
    rw [List.length_append, newUint8Array, List.length_replicate]
    omega
  rw [setBytes, if_pos hfits, List.take_left, List.drop_append, List.drop_of_length_le (by omega),
    Nat.add_sub_cancel_left, newUint8Array, List.drop_replicate, List.nil_append, newUint8Array]

namespace Hkdf

theorem normalizeSalt_eq (salt : Option Bytes) :
    normalizeSalt salt 32 = Crypto.normalizeSalt salt := by
  rcases salt with _ | _ | ⟨x, salt⟩ <;> rfl

theorem infoLength_eq (info : Option Bytes) : infoLength info = (info.getD []).length := by
  cases info <;> rfl

theorem setInfo_append (written : Bytes) (info : Option Bytes) :
    setInfo (written ++ newUint8Array (infoLength info + 1)) info written.length =
      .ok (written ++ info.getD [] ++ newUint8Array 1) := by
  cases info with
  | none => simp [setInfo, infoLength]
  | some info =>
    have h := setBytes_append written info (info.length + 1) (by omega)
    rwa [Nat.add_sub_cancel_left] at h

theorem roundInput_eq (t : Bytes) (info : Option Bytes) (i : Nat) :
    roundInput t info i = .ok (t ++ info.getD [] ++ [UInt8.ofNat i]) := by
  have hstart : setBytes (newUint8Array (t.length + infoLength info + 1)) t 0 =
      .ok (t ++ newUint8Array (infoLength info + 1)) := by
    have h := setBytes_append [] t (t.length + infoLength info + 1) (by omega)
    rwa [show t.length + infoLength info + 1 - t.length = infoLength info + 1 by omega] at h
  have hlast : (t ++ info.getD [] ++ newUint8Array 1).set (t.length + infoLength info)
      (UInt8.ofNat i) = t ++ info.getD [] ++ [UInt8.ofNat i] := by
    rw [infoLength_eq, ← List.length_append, List.set_append_right _ _ (Nat.le_refl _),
      Nat.sub_self]
    rfl
  rw [roundInput, hstart, ok_bind, setInfo_append, ok_bind, hlast]
  rfl

variable {P : Platform}

theorem rounds_eq (prk : Bytes) (info : Option Bytes) (n i : Nat) (t : Bytes)
    (okmParts : List Bytes) :
    rounds P.hmacSha256 prk info n i t okmParts =
      .ok (okmParts ++ expandBlocks P prk (info.getD []) n i t) := by
  induction n generalizing i t okmParts with
  | zero => simp [rounds, expandBlocks]
  | succ n ih => simp [rounds, roundInput_eq, ih, expandBlocks]

theorem concatParts_eq (written : Bytes) (parts : List Bytes) (room : Nat)
    (h : parts.flatten.length ≤ room) :
    concatParts (written ++ newUint8Array room) written.length parts =
      .ok (written ++ parts.flatten ++ newUint8Array (room - parts.flatten.length)) := by
  induction parts generalizing written room with
  | nil => simp [concatParts]
  | cons part parts ih =>
    rw [List.flatten_cons, List.length_append] at h
    have hrest := ih (written ++ part) (room - part.length) (by omega)
    rw [List.length_append] at hrest
    rw [concatParts, setBytes_append written part room (by omega), ok_bind, hrest,
      List.flatten_cons, List.length_append, Nat.sub_sub]
    simp only [List.append_assoc]

theorem expandBlocks_eq (prk info : Bytes) (n i : Nat) :
    expandBlocks P prk info n (i + 1) (Rfc5869.T P.hmacSha256 prk info i) =
      (List.range' i n).map fun j => Rfc5869.T P.hmacSha256 prk info (j + 1) := by
  induction n generalizing i with
  | zero => rfl
  | succ n ih =>
    have hnext : P.hmacSha256 prk (Rfc5869.T P.hmacSha256 prk info i ++ info ++
        [UInt8.ofNat (i + 1)]) = Rfc5869.T P.hmacSha256 prk info (i + 1) := rfl
    rw [expandBlocks, List.range'_succ, List.map_cons, hnext, ih (i + 1)]

theorem flatten_expandBlocks (prk info : Bytes) (n : Nat) :
    (expandBlocks P prk info n 1 []).flatten = Rfc5869.blocks P.hmacSha256 prk info n := by
  have h := expandBlocks_eq (P := P) prk info n 0
  rw [Rfc5869.T] at h
  rw [h, Rfc5869.blocks, List.range_eq_range', List.flatMap_def]

/-- The buffers give what the blocks joined as lists give. -/
theorem deriveKeyHKDF_eq (hlen : ∀ k b, (P.hmacSha256 k b).length = 32) (ikm : Bytes)
    (salt info : Option Bytes) (length : Int) :
    deriveKeyHKDF P.hmacSha256 ikm salt info length =
      Crypto.deriveKeyHKDF P ikm salt info length := by
  rw [deriveKeyHKDF, Crypto.deriveKeyHKDF, hkdfExtract, Crypto.hkdfExtract, normalizeSalt_eq,
    hkdfExpand, Crypto.hkdfExpand]
  split
  · rfl
  · have hblocks := flatten_expandBlocks (P := P)
      (P.hmacSha256 (Crypto.normalizeSalt salt) ikm) (info.getD []) (blockCount length)
    have hroom := Rfc5869.length_blocks hlen (P.hmacSha256 (Crypto.normalizeSalt salt) ikm)
      (info.getD []) (blockCount length)
    rw [← hblocks] at hroom
    have hconcat := concatParts_eq [] (expandBlocks P
      (P.hmacSha256 (Crypto.normalizeSalt salt) ikm) (info.getD []) (blockCount length) 1 [])
      (blockCount length * 32) (by omega)
    rw [hroom, Nat.mul_comm, Nat.sub_self] at hconcat
    simp only [rounds_eq, newUint8Array, List.replicate_zero, List.nil_append, List.append_nil,
      ok_bind, List.length_nil, Nat.mul_comm _ 32] at hconcat ⊢
    rw [hconcat]
    rfl

/-- The first bytes of `T(1) || T(2) || ..`, for a length in range. -/
theorem deriveKeyHKDF_okm (hlen : ∀ k b, (P.hmacSha256 k b).length = 32) (ikm : Bytes)
    (salt info : Option Bytes) {length : Nat} (hpos : 1 ≤ length) (hmax : length ≤ 8160) :
    deriveKeyHKDF P.hmacSha256 ikm salt info length =
      .ok (Rfc5869.okm P.hmacSha256 ikm salt info length) := by
  have hprk : Crypto.hkdfExtract P salt ikm = Rfc5869.prk P.hmacSha256 salt ikm := by
    rcases salt with _ | _ | ⟨x, salt⟩ <;> rfl
  have hcount : length ≤ 32 * blockCount length := by
    unfold blockCount
    omega
  rw [deriveKeyHKDF_eq hlen, Crypto.deriveKeyHKDF, Crypto.hkdfExpand, if_neg (by omega), hprk]
  simp only [flatten_expandBlocks, Int.toNat_natCast]
  rw [Rfc5869.okm, ← Rfc5869.take_blocks hlen _ _ hcount (show length ≤ 32 * length by omega)]
  rfl

theorem deriveKeyHKDF_invalid (hmacSha256 : (key data : Bytes) → Bytes) (ikm : Bytes)
    (salt info : Option Bytes) {length : Int} (h : ¬(1 ≤ length ∧ length ≤ 8160)) :
    deriveKeyHKDF hmacSha256 ikm salt info length =
      .error (.error "hkdfExpand: invalid length") := by
  rw [deriveKeyHKDF, hkdfExpand, if_pos (by omega)]

end Hkdf

variable {P : Platform}

/-- Every length from 1 to 8160 gives the bytes of RFC 5869 in both copies, whichever number of
blocks is taken for `T(1) || T(2) || ..`, with a counter that fits a byte; a shorter key is a prefix
of a longer one, and any other length is rejected. -/
theorem deriveKeyHKDF_conforms (hlen : ∀ k b, (P.hmacSha256 k b).length = 32) (ikm : Bytes)
    (salt info : Option Bytes) :
    (∀ length : Nat, 1 ≤ length → length ≤ 8160 →
      Index.deriveKeyHKDF P ikm salt info length =
        .ok (Rfc5869.okm P.hmacSha256 ikm salt info length) ∧
      CryptoUtils.deriveKeyHKDF P ikm salt info length =
        .ok (Rfc5869.okm P.hmacSha256 ikm salt info length) ∧
      (Rfc5869.okm P.hmacSha256 ikm salt info length).length = length ∧
      (∀ n, length ≤ 32 * n → Rfc5869.okm P.hmacSha256 ikm salt info length =
        (Rfc5869.blocks P.hmacSha256 (Rfc5869.prk P.hmacSha256 salt ikm) (info.getD []) n).take
          length) ∧
      ∀ i ≤ Hkdf.blockCount length, (UInt8.ofNat i).toNat = i) ∧
    (∀ length length' : Nat, length ≤ length' →
      Rfc5869.okm P.hmacSha256 ikm salt info length <+:
        Rfc5869.okm P.hmacSha256 ikm salt info length') ∧
    ∀ length : Int, ¬(1 ≤ length ∧ length ≤ 8160) →
      Index.deriveKeyHKDF P ikm salt info length = .error (.error "hkdfExpand: invalid length") ∧
      CryptoUtils.deriveKeyHKDF P ikm salt info length =
        .error (.error "hkdfExpand: invalid length") := by
  refine ⟨fun length hpos hmax => ?_, fun length length' h => ?_, fun length h => ?_⟩
  · refine ⟨Hkdf.deriveKeyHKDF_okm hlen ikm salt info hpos hmax,
      Hkdf.deriveKeyHKDF_okm hlen ikm salt info hpos hmax, ?_, fun n hn => ?_, fun i hi => ?_⟩
    · rw [Rfc5869.okm, List.length_take, Rfc5869.length_blocks hlen]
      omega
    · exact Rfc5869.take_blocks hlen _ _ (by omega) hn
    · have hcount : Hkdf.blockCount length ≤ 255 := by
        unfold Hkdf.blockCount
        omega
      exact UInt8.toNat_ofNat_of_lt (by simp only [UInt8.size]; omega)
  · rw [Rfc5869.okm, Rfc5869.okm,
      Rfc5869.take_blocks hlen _ _ (show length ≤ 32 * length by omega)
        (show length ≤ 32 * length' by omega)]
    exact List.take_prefix_take_left h
  · exact ⟨Hkdf.deriveKeyHKDF_invalid _ _ _ _ h, Hkdf.deriveKeyHKDF_invalid _ _ _ _ h⟩

theorem deriveKeyHKDF_conforms_symbolic :
    Index.deriveKeyHKDF symbolic [] none none (33 : Nat) =
      .ok (Rfc5869.okm symbolic.hmacSha256 [] none none 33) :=
  ((deriveKeyHKDF_conforms symbolic_lawful.hmac_length [] none none).1 33 (by omega) (by omega)).1

end SovereignJedi.Crypto
