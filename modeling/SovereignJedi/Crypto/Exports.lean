import SovereignJedi.Session.Unlock

/-! What a caller of `@sj/crypto` can compute. The package means to derive the key-encryption key of
an unlock signature by `deriveKekFromUnlockSignature` only, which refuses an unlock message that has
expired. But it exports the steps of the derivation as well, the expiry is read from the object that
the caller passes, and the key of a vault root is the one of an empty salt. -/

namespace SovereignJedi.Crypto

open SovereignJedi.Js
open SovereignJedi.Session (sampleDates sampleSign)

/-- A value that a caller holds. -/
inductive Datum where
  | null
  | bytes (b : Bytes)
  | text (s : String)
  | unlock (u : BuildUnlockResult)
  | undefined

/-- A call of an exported function. Its arguments are positions in the list of what the caller
holds, except for lengths and for unlock objects, which a caller can write down. -/
inductive Call where
  | utf8Encode (input : Nat)
  | sha256 (data : Nat)
  | hkdfExtract (salt ikm : Nat)
  | hkdfExpand (prk info : Nat) (length : Int)
  | deriveKeyHKDF (ikm salt info : Nat) (length : Int)
  | buildUnlockMessageV1 (windowOrigin : String) (draw : RandomBytes 16) (params : UnlockParams)
  | assertUnlockNotExpired (unlock : BuildUnlockResult)
  | deriveKekFromUnlockSignature (signatureBytes saltBytes : Nat) (unlock : BuildUnlockResult)
  | deriveVaultRootKekFromSignature (signatureBytes : Nat)

def Datum.asBytes : Datum → Result Bytes
  | .bytes b => .ok b
  | _ => .error (.typeError "not bytes")

def Datum.asBytesOrNull : Datum → Result (Option Bytes)
  | .bytes b => .ok (some b)
  | .null => .ok none
  | _ => .error (.typeError "not bytes")

def Datum.asText : Datum → Result String
  | .text s => .ok s
  | _ => .error (.typeError "not a string")

def Datum.ofOption : Option Bytes → Datum
  | some b => .bytes b
  | none => .null

@[simp]
theorem Datum.asBytes_bytes (b : Bytes) : (bytes b).asBytes = .ok b := rfl

@[simp]
theorem Datum.asBytesOrNull_bytes (b : Bytes) : (bytes b).asBytesOrNull = .ok (some b) := rfl

@[simp]
theorem Datum.asBytesOrNull_ofOption (b : Option Bytes) : (ofOption b).asBytesOrNull = .ok b := by
  cases b <;> rfl

@[simp]
theorem Datum.asText_text (s : String) : (text s).asText = .ok s := rfl

section Calls

variable (P : Platform) (D : Dates) (now : Int)

/-- What a call returns at the time `now`, to a caller that holds `held`. -/
def runCall (held : List Datum) : Call → Result Datum
  | .utf8Encode input => do
    let s ← (held.getD input .undefined).asText
    return .bytes (P.utf8Encode s)
  | .sha256 data => do
    let b ← (held.getD data .undefined).asBytes
    return .bytes (P.sha256 b)
  | .hkdfExtract salt ikm => do
    let salt ← (held.getD salt .undefined).asBytesOrNull
    let ikm ← (held.getD ikm .undefined).asBytes
    return .bytes (hkdfExtract P salt ikm)
  | .hkdfExpand prk info length => do
    let prk ← (held.getD prk .undefined).asBytes
    let info ← (held.getD info .undefined).asBytesOrNull
    return .bytes (← hkdfExpand P prk info length)
  | .deriveKeyHKDF ikm salt info length => do
    let ikm ← (held.getD ikm .undefined).asBytes
    let salt ← (held.getD salt .undefined).asBytesOrNull
    let info ← (held.getD info .undefined).asBytesOrNull
    return .bytes (← deriveKeyHKDF P ikm salt info length)
  | .buildUnlockMessageV1 windowOrigin draw params => do
    return .unlock (← buildUnlockMessageV1 P D windowOrigin now draw params)
  | .assertUnlockNotExpired unlock => do
    assertUnlockNotExpired D unlock now
    return .undefined
  | .deriveKekFromUnlockSignature signatureBytes saltBytes unlock => do
    let signatureBytes ← (held.getD signatureBytes .undefined).asBytes
    let saltBytes ← (held.getD saltBytes .undefined).asBytesOrNull
    return .bytes (← deriveKekFromUnlockSignature P D signatureBytes saltBytes unlock now)
  | .deriveVaultRootKekFromSignature signatureBytes => do
    let signatureBytes ← (held.getD signatureBytes .undefined).asBytes
    return .bytes (← deriveVaultRootKekFromSignature P signatureBytes)

/-- What a sequence of calls returns, in order. A later call may use the results of earlier ones. -/
def runCalls : List Datum → List Call → Result (List Datum)
  | _, [] => .ok []
  | held, call :: calls => do
    let result ← runCall P D now held call
    let results ← runCalls (held ++ [result]) calls
    return result :: results

/-- `HKDF(sha256(signature), salt, "SJ-KEK-v1")`. -/
def kekOf (signature : Bytes) (salt : Option Bytes) : Result Bytes :=
  deriveKeyHKDF P (P.sha256 signature) salt (some (P.utf8Encode "SJ-KEK-v1")) 32

/-- The caller holds an unlock message with its signature, a salt, and the public label of the
key. -/
def callerHolds (unlock : BuildUnlockResult) (signature : Bytes) (salt : Option Bytes) : List Datum :=
  [.unlock unlock, .bytes signature, .ofOption salt, .text "SJ-KEK-v1"]

/-- These calls return the key. -/
def Bypasses (calls : List Call) (unlock : BuildUnlockResult) (signature : Bytes)
    (salt : Option Bytes) : Prop :=
  ∃ results kek, runCalls P D now (callerHolds unlock signature salt) calls = .ok results ∧
    kekOf P signature salt = .ok kek ∧ .bytes kek ∈ results

/-- No sequence of calls returns the key. -/
def NoBypass (unlock : BuildUnlockResult) (signature : Bytes) (salt : Option Bytes) : Prop :=
  ∀ calls, ¬ Bypasses P D now calls unlock signature salt

end Calls

variable {P : Platform} {D : Dates} {now : Int} {unlock : BuildUnlockResult} {signature : Bytes}
  {salt : Option Bytes}

/-! ### Bypasses -/

/-- An empty salt counts as none. -/
theorem kekOf_eq (P : Platform) (signature : Bytes) (salt : Option Bytes) :
    kekOf P signature salt = deriveKekFromSignature P signature salt := by
  match salt with
  | none => rfl
  | some [] => rfl
  | some (b :: bs) => rfl

theorem exists_kekOf (P : Platform) (signature : Bytes) (salt : Option Bytes) :
    ∃ kek, kekOf P signature salt = .ok kek := by
  rw [kekOf_eq]
  exact exists_deriveKekFromSignature P signature salt

/-- The steps of the derivation: the hash of the signature, the label, and the key from both. -/
def derivationSteps : List Call := [.sha256 1, .utf8Encode 3, .deriveKeyHKDF 4 2 5 32]

/-- The exported steps of the derivation give the key, whatever the unlock message says. -/
theorem bypass_by_steps (P : Platform) (D : Dates) (now : Int) (unlock : BuildUnlockResult)
    (signature : Bytes) (salt : Option Bytes) :
    Bypasses P D now derivationSteps unlock signature salt := by
  obtain ⟨kek, hkek⟩ := exists_kekOf P signature salt
  have hderive : deriveKeyHKDF P (P.sha256 signature) salt (some (P.utf8Encode "SJ-KEK-v1")) 32 =
      .ok kek := hkek
  refine ⟨[.bytes (P.sha256 signature), .bytes (P.utf8Encode "SJ-KEK-v1"), .bytes kek], kek, ?_, hkek,
    by simp⟩
  simp [runCalls, derivationSteps, runCall, callerHolds, hderive]

/-- The message has expired at `now`. -/
def Expired (D : Dates) (unlock : BuildUnlockResult) (now : Int) : Prop :=
  ∃ t, D.parse unlock.canonicalObject.expiresAt = some t ∧ t ≤ now

/-- For every unlock message, signature, salt and time, some calls return the key. -/
theorem always_bypassed (P : Platform) (D : Dates) (now : Int) (unlock : BuildUnlockResult)
    (signature : Bytes) (salt : Option Bytes) : ¬ NoBypass P D now unlock signature salt :=
  fun h => h derivationSteps (bypass_by_steps P D now unlock signature salt)

def sampleParams : UnlockParams where
  origin := some "http://localhost"
  wallet := "Wa11et"
  vaultId := some "local-default"
  nonceBytes := none
  issuedAt := some "1970-01-01T00:00:00.000Z"
  expiresAt := some "1970-01-01T00:10:00.000Z"

/-- The key of an unlock message that has just expired. -/
theorem expired_unlock_bypassed : ∃ unlock, buildUnlockMessageV1 symbolic sampleDates
      "http://localhost" 0 (.zeros 16) sampleParams = .ok unlock ∧
    Expired sampleDates unlock 600000 ∧
    ¬ NoBypass symbolic sampleDates 600000 unlock
      (sampleSign (symbolic.utf8Encode unlock.messageToSign)) (some (List.replicate 32 0)) := by
  obtain ⟨unlock, hbuilt, hexpires⟩ := buildUnlockMessageV1_ok (D := sampleDates) symbolic_lawful
    "http://localhost" 0 (.zeros 16) sampleParams rfl rfl rfl
  refine ⟨unlock, hbuilt, ⟨600000, ?_, Int.le_refl _⟩, fun h => ?_⟩
  · rw [hexpires]
    rfl
  · exact h derivationSteps (bypass_by_steps ..)

end SovereignJedi.Crypto
