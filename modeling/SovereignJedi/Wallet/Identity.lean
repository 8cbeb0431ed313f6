import Mathlib.Data.List.Basic
import SovereignJedi.Crypto.Unlock
import SovereignJedi.Manifest.Storage

/-! The proof of control of a wallet (`types.ts`, `utils.ts` and `VerifyWallet.tsx`): a message with
a fresh nonce, its signature, and the identity that is stored with both. -/

namespace SovereignJedi.Wallet

open SovereignJedi.Js SovereignJedi.Crypto
open SovereignJedi.Manifest (LocalStorage setItem)

structure Identity where
  publicKey : String
  message : String
  signature : String
  issuedAt : String
  verifiedAt : String
  expiresAt : String
  nonce : String
  cluster : String
  domain : String

def Identity.toJson (id : Identity) : Json :=
  .obj [("publicKey", .str id.publicKey), ("message", .str id.message),
    ("signature", .str id.signature), ("issuedAt", .str id.issuedAt),
    ("verifiedAt", .str id.verifiedAt), ("expiresAt", .str id.expiresAt),
    ("nonce", .str id.nonce), ("cluster", .str id.cluster), ("domain", .str id.domain)]

/-- The property `k` when it is a string. -/
def stringOf (j : Json) (k : String) : Option String :=
  match j.get k with
  | some (.str s) => some s
  | _ => none

/-- The shape check of `loadIdentity`. -/
def Identity.ofJson (j : Json) : Option Identity := do
  let publicKey ← stringOf j "publicKey"
  let message ← stringOf j "message"
  let signature ← stringOf j "signature"
  let issuedAt ← stringOf j "issuedAt"
  let verifiedAt ← stringOf j "verifiedAt"
  let expiresAt ← stringOf j "expiresAt"
  let nonce ← stringOf j "nonce"
  let cluster ← stringOf j "cluster"
  let domain ← stringOf j "domain"
  return { publicKey, message, signature, issuedAt, verifiedAt, expiresAt, nonce, cluster, domain }

def storageKeyIdentity : String := "sj_identity"

section Storage

variable (P : Platform)

def loadIdentity (s : LocalStorage) : Option Identity :=
  match s storageKeyIdentity with
  | none => none
  | some raw =>
    if raw = "" then none
    else match P.jsonParse raw with
      | .ok parsed => Identity.ofJson parsed
      | .error _ => none

/-- `writable` tells whether the storage takes the item; an error of it is ignored. -/
def saveIdentity (writable : Bool) (id : Identity) (s : LocalStorage) : LocalStorage :=
  if writable then setItem s storageKeyIdentity (P.jsonStringify id.toJson) else s

def clearIdentity (s : LocalStorage) : LocalStorage := Function.update s storageKeyIdentity none

def storageKeyLastProvider : String := "sj_lastWalletProvider"

def clearLastWalletProvider (s : LocalStorage) : LocalStorage :=
  Function.update s storageKeyLastProvider none

end Storage

/-! ### Proof message -/

structure ProofParams where
  domain : String
  publicKey : String
  nonce : String
  issuedAt : String
  cluster : String
  statement : Option String

def ProofParams.lines (p : ProofParams) : List String :=
  ["Sovereign Jedi — Proof of Control", "domain: " ++ p.domain, "publicKey: " ++ p.publicKey,
    "statement: " ++ p.statement.getD "Prove you control this wallet for Sovereign Jedi",
    "nonce: " ++ p.nonce, "issuedAt: " ++ p.issuedAt, "chain: solana:" ++ p.cluster,
    "purpose: proof_of_control"]

def buildProofMessage (p : ProofParams) : String := "\n".intercalate p.lines

/-- `b.toString(16).padStart(2, '0')`. -/
def hexByte (b : UInt8) : List Char :=
  [Nat.digitChar (b.toNat / 16), Nat.digitChar (b.toNat % 16)]

/-- The nonce that `bytes`, drawn at random, give. -/
def generateNonce (bytes : Bytes) : String := .ofList (bytes.flatMap hexByte)

section Expiry

variable (D : Dates)

def computeExpiresAt (verifiedAtIso : String) (ttlSeconds : Int) : Result String :=
  isoAfter D verifiedAtIso (ttlSeconds * 1000)

def isIdentityExpired (identity : Identity) (now : Int) : Bool :=
  if identity.expiresAt = "" then true
  else match D.parse identity.expiresAt with
    | none => true
    | some expires => decide (expires < now)

def isVerified (identity : Option Identity) (now : Int) : Bool :=
  match identity with
  | none => false
  | some id =>
    if id.verifiedAt = "" ∨ id.expiresAt = "" then false else !isIdentityExpired D id now

end Expiry

/-! ### Signatures as text -/

section Codecs

variable (C : TextCodecs)

def base64ToBytes (b64 : String) : Option Bytes :=
  match C.atob, C.buffer with
  | some atob, _ => atob b64
  | none, some buffer => some (buffer b64)
  | none, none => none

def hexDigit (c : Char) : Option Nat :=
  if c.isDigit then some (c.toNat - '0'.toNat)
  else if 'a' ≤ c ∧ c ≤ 'f' then some (c.toNat - 'a'.toNat + 10)
  else if 'A' ≤ c ∧ c ≤ 'F' then some (c.toNat - 'A'.toNat + 10)
  else none

def hexToBytes : List Nat → Bytes
  | hi :: lo :: rest => UInt8.ofNat (16 * hi + lo) :: hexToBytes rest
  | _ => []

/-- The bytes of a signature given as text: base 58, else base 64, else hex, whichever has 64. -/
def decodeSignature (sig : String) : Result Bytes :=
  match (C.bs58Decode sig).filter fun b => b.length == 64,
    (base64ToBytes C sig).filter fun b => b.length == 64, sig.toList.mapM hexDigit with
  | some b, _, _ => .ok b
  | none, some b, _ => .ok b
  | none, none, some digits =>
    if digits.length = 128 then .ok (hexToBytes digits)
    else .error (.error "Unable to decode signature: unsupported format or invalid length")
  | none, none, none =>
    .error (.error "Unable to decode signature: unsupported format or invalid length")

/-- `signatureToBase58` of bytes. -/
def signatureToBase58 (sig : Bytes) : Result String := do
  require (sig.length == 64) s!"Invalid signature length: {sig.length} (expected 64)"
  return C.bs58Encode sig

end Codecs

/-! ### `VerifyWallet` -/

/-- What `signMessage` of a wallet gives: bytes, an object with a `signature`, text, or anything
else. -/
inductive SignMessageResult where
  | bytes (b : Bytes)
  | signature (b : Bytes)
  | text (s : String)
  | other

/-- What a verification gets from outside. The adapter is asked at most twice. `ed25519` verifies a
signature, and `none` stands for a public key that cannot be read. -/
structure VerifyEnv where
  domain : String
  domain_line : '\n' ∉ domain.toList
  cluster : String
  cluster_line : '\n' ∉ cluster.toList
  now : Int
  verifiedAt : Int
  ttlSeconds : Int
  nonce : RandomBytes 24
  adapter : Option (Bytes → Result SignMessageResult)
  adapterAgain : Bytes → Result SignMessageResult
  solana : Option (Bytes → Result SignMessageResult)
  ed25519 : (message signature : Bytes) → (publicKey : String) → Option Bool

def SignMessageResult.toBytes : SignMessageResult → Option Bytes
  | .bytes b => some b
  | .signature b => some b
  | _ => none

variable (P : Platform) (D : Dates) (C : TextCodecs) (env : VerifyEnv)

/-- The adapter, else `window.solana`, else the adapter once more for a signature in base 64. -/
def VerifyEnv.sign (message : Bytes) : Result (Option Bytes) := do
  let first := env.adapter.bind fun f =>
    match f message with
    | .ok signed => signed.toBytes
    | .error _ => none
  let second ← match first, env.solana with
    | some b, _ => .ok (some b)
    | none, some f => (f message).map SignMessageResult.toBytes
    | none, none => .ok none
  match second, env.adapter with
  | none, some _ =>
    match env.adapterAgain message with
    | .ok (.text s) => return C.buffer.map fun buffer => buffer s
    | _ => return none
  | signature, _ => return signature

/-- The `reason` of a failed verification. -/
def VerifyEnv.verifyMessageSignatureVerbose (message : String) (signature : Bytes)
    (publicKey : String) : Option String :=
  if message = "" then some "empty_message"
  else if publicKey = "" then some "empty_public_key"
  else if signature.length ≠ 64 then some "invalid_signature_encoding"
  else match env.ed25519 (P.utf8Encode message) signature publicKey with
    | none => some "invalid_public_key"
    | some false => some "signature_mismatch"
    | some true => none

def VerifyEnv.proof (publicKey issuedAt : String) : ProofParams where
  domain := env.domain
  publicKey
  nonce := generateNonce env.nonce.1
  issuedAt
  cluster := env.cluster
  statement := none

/-- The identity that is stored after a verification. -/
def doVerify (publicKey : String) : Result Identity := do
  require (publicKey != "") "No public key available. Connect a wallet first."
  let issuedAt ← D.toISOString env.now
  let proof := env.proof publicKey issuedAt
  let message := buildProofMessage proof
  match ← env.sign C (P.utf8Encode message) with
  | none => throw (.error "Unable to obtain signature from wallet (user rejected or unsupported).")
  | some signatureBytes => do
    let signature ← signatureToBase58 C signatureBytes
    match env.verifyMessageSignatureVerbose P message signatureBytes publicKey with
    | some reason => throw (.error ("Signature verification failed: " ++ reason))
    | none => do
      let verifiedAt ← D.toISOString env.verifiedAt
      let expiresAt ← computeExpiresAt D verifiedAt env.ttlSeconds
      return {
        publicKey
        message
        signature
        issuedAt
        verifiedAt
        expiresAt
        nonce := proof.nonce
        cluster := env.cluster
        domain := env.domain }

variable {P D C env}

/-! ### The stored identity -/

theorem Identity.toJson_wf (id : Identity) : id.toJson.WF := by
  refine .obj (show Json.OwnKeys ["publicKey", "message", "signature", "issuedAt", "verifiedAt",
    "expiresAt", "nonce", "cluster", "domain"] by decide) ?_
  simp only [List.mem_cons, List.not_mem_nil, or_false, forall_eq_or_imp, forall_eq]
  exact ⟨.str _, .str _, .str _, .str _, .str _, .str _, .str _, .str _, .str _⟩

theorem Identity.ofJson_toJson (id : Identity) : Identity.ofJson id.toJson = some id := rfl

/-- A stored identity is loaded back. -/
theorem loadIdentity_saveIdentity (hP : P.Lawful) (id : Identity) (s : LocalStorage) :
    loadIdentity P (saveIdentity P true id s) = some id := by
  have hparse := hP.parse_stringify id.toJson_wf
  simp only [loadIdentity, saveIdentity, if_true, setItem, Function.update_self,
    if_neg (hP.stringify_ne id.toJson), hparse]
  exact id.ofJson_toJson

/-! ### Proof messages -/

/-- Lines that are joined can be told apart again. -/
theorem intercalate_injective {ls ms : List String} (hlen : ls.length = ms.length)
    (hls : ∀ l ∈ ls, '\n' ∉ l.toList) (hms : ∀ l ∈ ms, '\n' ∉ l.toList)
    (h : "\n".intercalate ls = "\n".intercalate ms) : ls = ms := by
  induction ls generalizing ms with
  | nil => exact (List.length_eq_zero_iff.mp hlen.symm).symm
  | cons a as ih =>
    obtain ⟨b, bs, rfl⟩ := List.exists_cons_of_length_eq_add_one hlen.symm
    rw [List.forall_mem_cons] at hls hms
    have hlen' : as.length = bs.length := by simpa using hlen
    cases as with
    | nil =>
      obtain rfl := List.length_eq_zero_iff.mp hlen'.symm
      simpa using h
    | cons a' as =>
      obtain ⟨b', bs, rfl⟩ := List.exists_cons_of_length_eq_add_one hlen'.symm
      rw [String.intercalate_cons_cons, String.intercalate_cons_cons] at h
      have hlist := congrArg String.toList h
      simp only [String.toList_append, List.append_assoc] at hlist
      obtain ⟨hab, hrest⟩ := append_cons_injective hls.1 hms.1 hlist
      rw [String.toList_inj.mp hab, ih hlen' hls.2 hms.2 (String.toList_inj.mp hrest)]

/-- Every field is one line. -/
structure ProofParams.OneLine (p : ProofParams) : Prop where
  domain : '\n' ∉ p.domain.toList
  publicKey : '\n' ∉ p.publicKey.toList
  nonce : '\n' ∉ p.nonce.toList
  issuedAt : '\n' ∉ p.issuedAt.toList
  cluster : '\n' ∉ p.cluster.toList
  statement : ∀ s, p.statement = some s → '\n' ∉ s.toList

theorem ProofParams.OneLine.lines {p : ProofParams} (h : p.OneLine) :
    ∀ l ∈ p.lines, '\n' ∉ l.toList := by
  have hstatement : '\n' ∉ (p.statement.getD
      "Prove you control this wallet for Sovereign Jedi").toList := by
    cases hs : p.statement with
    | none => decide
    | some s => exact h.statement s hs
  simp only [ProofParams.lines, List.forall_mem_cons, String.toList_append, List.mem_append,
    not_or, h.domain, h.publicKey, h.nonce, h.issuedAt, h.cluster, hstatement]
  decide

/-- A proof message tells its nonce. -/
theorem buildProofMessage_nonce {p q : ProofParams} (hp : p.OneLine) (hq : q.OneLine)
    (h : buildProofMessage p = buildProofMessage q) : p.nonce = q.nonce := by
  have hlines : p.lines = q.lines := intercalate_injective rfl hp.lines hq.lines h
  simp only [ProofParams.lines, List.cons.injEq, String.append_right_inj] at hlines
  exact hlines.2.2.2.2.1

/-- The messages that unlock a vault begin with `SJ`, proof messages do not. -/
theorem buildProofMessage_second (p : ProofParams) :
    (buildProofMessage p).toList[1]? = some 'o' := by
  simp [buildProofMessage, ProofParams.lines, String.intercalate_cons_cons]

theorem generateNonce_oneLine (bytes : Bytes) : '\n' ∉ (generateNonce bytes).toList := by
  have hdigit : ∀ n < 16, '\n' ≠ Nat.digitChar n := by decide
  simp only [generateNonce, String.toList_ofList, List.mem_flatMap, not_exists, not_and]
  intro b _ h
  have hb := b.toNat_lt
  simp only [hexByte, List.mem_cons, List.not_mem_nil, or_false] at h
  exact h.elim (hdigit _ (by omega)) (hdigit _ (by omega))

/-! ### Verifications -/

theorem decodeSignature_bs58Encode (hC : C.Lawful) {b : Bytes} (hb : b.length = 64) :
    decodeSignature C (C.bs58Encode b) = .ok b := by
  simp [decodeSignature, hC b, Option.filter_some, hb]

theorem VerifyEnv.proof_oneLine (hD : D.OneLine) {publicKey issuedAt : String}
    (hkey : '\n' ∉ publicKey.toList) (hissued : D.toISOString env.now = .ok issuedAt) :
    (env.proof publicKey issuedAt).OneLine where
  domain := env.domain_line
  publicKey := hkey
  nonce := generateNonce_oneLine _
  issuedAt := hD _ _ hissued
  cluster := env.cluster_line
  statement := by simp [VerifyEnv.proof]

/-- What a verification of a wallet that signs by `sign` stores. -/
theorem doVerify_eq_ok (hC : C.Lawful) {sign : Bytes → Bytes}
    (hsign : ∀ m, env.sign C m = .ok (some (sign m))) {publicKey : String} {id : Identity}
    (h : doVerify P D C env publicKey = .ok id) :
    ∃ issuedAt, D.toISOString env.now = .ok issuedAt ∧
      id.nonce = (env.proof publicKey issuedAt).nonce ∧
      id.message = buildProofMessage (env.proof publicKey issuedAt) ∧
      decodeSignature C id.signature = .ok (sign (P.utf8Encode id.message)) := by
  simp only [doVerify, bind_eq_ok, require_eq_ok, hsign, signatureToBase58] at h
  obtain ⟨-, -, issuedAt, hissued, _, hanswer, h⟩ := h
  refine ⟨issuedAt, hissued, ?_⟩
  obtain rfl := Except.ok.inj hanswer
  simp only [bind_eq_ok, require_eq_ok, beq_iff_eq] at h
  obtain ⟨signature, ⟨-, hlength, hencode⟩, h⟩ := h
  obtain rfl := Except.ok.inj hencode
  split at h
  · cases h
  · simp only [bind_eq_ok] at h
    obtain ⟨verifiedAt, -, expiresAt, -, hid⟩ := h
    obtain rfl := Except.ok.inj hid
    exact ⟨rfl, rfl, decodeSignature_bs58Encode hC hlength⟩

end SovereignJedi.Wallet
