import SovereignJedi.Js.Platform

/-! Key derivation of `@sj/crypto`: HKDF over HMAC-SHA256, and the key-encryption key that a wallet
signature gives. -/

namespace SovereignJedi.Crypto

open SovereignJedi.Js

variable (P : Platform)

/-- A missing or empty salt is 32 zero bytes. -/
def normalizeSalt (salt : Option Bytes) : Bytes :=
  match salt with
  | none => List.replicate 32 0
  | some [] => List.replicate 32 0
  | some s => s

def hkdfExtract (salt : Option Bytes) (ikm : Bytes) : Bytes :=
  P.hmacSha256 (normalizeSalt salt) ikm

/-- The blocks `T(i)`, `T(i + 1)`, .. of the expansion loop, `n` of them, after the block `t`. -/
def expandBlocks (prk info : Bytes) : (n i : Nat) → (t : Bytes) → List Bytes
  | 0, _, _ => []
  | n + 1, i, t =>
    let t' := P.hmacSha256 prk (t ++ info ++ [UInt8.ofNat i])
    t' :: expandBlocks prk info n (i + 1) t'

def hkdfExpand (prk : Bytes) (info : Option Bytes) (length : Int) : Result Bytes :=
  if length ≤ 0 ∨ length > 255 * 32 then
    .error (.error "hkdfExpand: invalid length")
  else
    let n := ((length + 31) / 32).toNat
    .ok ((expandBlocks P prk (info.getD []) n 1 []).flatten.take length.toNat)

def deriveKeyHKDF (ikm : Bytes) (salt info : Option Bytes) (length : Int) : Result Bytes :=
  hkdfExpand P (hkdfExtract P salt ikm) info length

/-- `ikm = SHA-256(signature)`, `kek = HKDF-SHA256(ikm, salt, "SJ-KEK-v1")`; an empty salt counts as
none. -/
def deriveKekFromSignature (signatureBytes : Bytes) (saltBytes : Option Bytes) : Result Bytes :=
  let salt := saltBytes.filter fun s => !s.isEmpty
  deriveKeyHKDF P (P.sha256 signatureBytes) salt (some (P.utf8Encode "SJ-KEK-v1")) 32

/-- The stable key of a wallet: no salt and no expiry. -/
def deriveVaultRootKekFromSignature (signatureBytes : Bytes) : Result Bytes :=
  deriveKekFromSignature P signatureBytes none

variable {P}

theorem expandBlocks_length (hP : P.Lawful) (prk info : Bytes) (n i : Nat) (t : Bytes) :
    (expandBlocks P prk info n i t).flatten.length = 32 * n := by
  induction n generalizing i t with
  | zero => rfl
  | succ n ih =>
    rw [expandBlocks, List.flatten_cons, List.length_append, ih, hP.hmac_length]
    omega

/-- A length in range is met exactly. -/
theorem hkdfExpand_ok (hP : P.Lawful) (prk : Bytes) (info : Option Bytes) {length : Int}
    (hpos : 0 < length) (hmax : length ≤ 255 * 32) :
    ∃ okm, hkdfExpand P prk info length = .ok okm ∧ okm.length = length.toNat := by
  refine ⟨_, by rw [hkdfExpand, if_neg (by omega)], ?_⟩
  rw [List.length_take, expandBlocks_length hP]
  omega

/-- The length of the key is in range. -/
theorem exists_deriveKekFromSignature (P : Platform) (sig : Bytes) (salt : Option Bytes) :
    ∃ kek, deriveKekFromSignature P sig salt = .ok kek :=
  ⟨_, rfl⟩

theorem deriveKekFromSignature_ok (hP : P.Lawful) (sig : Bytes) (salt : Option Bytes) :
    ∃ kek, deriveKekFromSignature P sig salt = .ok kek ∧ kek.length = 32 := by
  unfold deriveKekFromSignature deriveKeyHKDF
  exact hkdfExpand_ok hP _ _ (show (0 : Int) < 32 by omega) (by omega)

end SovereignJedi.Crypto
