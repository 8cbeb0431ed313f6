import SovereignJedi.Async.Task
import SovereignJedi.Crypto.Unlock
import SovereignJedi.Manifest.Storage

/-! The session of `SessionManager.ts`: the connected wallet, the materials of the last unlock,
which are kept in memory only, and `unlockVault`, which asks the wallet for two signatures. -/

namespace SovereignJedi.Session

open SovereignJedi.Js SovereignJedi.Crypto SovereignJedi.Async
open SovereignJedi.Manifest (LocalStorage setItem)

/-- A string or `null`. -/
def nullable (s : Option String) : Json := orElse (s.map .str) .null

/-- The verified record. A stored one is used unchecked, so its fields may hold anything. -/
structure VerifiedState where
  walletPubKey : Value
  verifiedAt : Value
  expiresAt : Value
  walletProvider : Value
  nonce : Value
  issuedAt : Value

def VerifiedState.toJson (v : VerifiedState) : Json :=
  .ofFields [("walletPubKey", v.walletPubKey), ("verifiedAt", v.verifiedAt),
    ("expiresAt", v.expiresAt), ("walletProvider", v.walletProvider), ("nonce", v.nonce),
    ("issuedAt", v.issuedAt)]

/-- The fields of the session, and the storage of its browser. -/
structure SessionManager where
  walletPubKey : Option String
  walletProvider : Option String
  vaultUnlocked : Bool
  verified : Option VerifiedState
  lastUnlock : Option BuildUnlockResult
  lastUnlockSignatureBytes : Option Bytes
  lastVaultRoot : Option BuildVaultRootResult
  lastVaultRootSignatureBytes : Option Bytes
  localStorage : LocalStorage

/-! ### Signers -/

/-- What `window.solana` gives as a signature. -/
inductive SignatureValue where
  | bytes (b : Bytes)
  | string (s : String)
  | numbers (ns : List Int)

def toUint8Array (C : TextCodecs) : SignatureValue → Result Bytes
  | .bytes b => .ok b
  | .numbers ns => .ok (ns.map fun n => UInt8.ofInt n)
  | .string s =>
    match C.bs58Decode s, C.atob.bind fun atob => (atob s).or (C.buffer.map fun buffer => buffer s) with
    | some b, _ => .ok b
    | none, some b => .ok b
    | none, none => .error (.error "Unable to decode string into Uint8Array (not base58/base64)")

structure Solana where
  signMessage : Option (Bytes → Result (Option SignatureValue))
  request : Option (Bytes → Result (Option SignatureValue))

/-- The sources of a signature. The signers may return anything, also nothing, or throw. -/
structure Signers where
  walletAdapterSigner : Option (Bytes → Result (Option Bytes))
  signer : Option (Bytes → Result (Option Bytes))
  solana : Option Solana

/-- `res && res.signature`, converted; an error counts as no signature. -/
def windowSignature (C : TextCodecs) : Result (Option SignatureValue) → Option Bytes
  | .ok (some (.string "")) => none
  | .ok (some v) => (toUint8Array C v).toOption
  | _ => none

/-- Asks the first source that there is. -/
def requestSignature (C : TextCodecs) (signers : Signers) (message : Bytes) :
    Result (Option Bytes) :=
  match signers.walletAdapterSigner, signers.signer, signers.solana with
  | some f, _, _ => f message
  | none, some f, _ => f message
  | none, none, none => .ok none
  | none, none, some solana =>
    match solana.signMessage, solana.request with
    | some f, _ => .ok (windowSignature C (f message))
    | none, some f => .ok (windowSignature C (f message))
    | none, none => .ok none

/-! ### `unlockVault` -/

/-- The two messages that are signed. -/
inductive Round where
  | unlock | vaultRoot
  deriving DecidableEq, Repr

inductive UnlockPoint where
  | build (r : Round)
  | debugLog (r : Round)
  | signature (r : Round)
  | deriveKek
  deriving DecidableEq, Repr

/-- What a call of `unlockVault` gets from outside: the origin and the clock of the page, random
bytes, the builders that tests inject, the sources of signatures in each round, and whether the
storage can be written. -/
structure UnlockEnv where
  origin : String
  now : Int
  verifiedAt : Int
  nonce : RandomBytes 16
  salt : RandomBytes 32
  unlockBuilder : Option (UnlockParams → Result BuildUnlockResult)
  vaultRootBuilder : Option (VaultRootParams → Result BuildVaultRootResult)
  signers : Round → Signers
  codecs : TextCodecs
  storageWritable : Bool

abbrev SessionTask := Task UnlockPoint SessionManager JsError

section Unlock

variable (P : Platform) (D : Dates) (env : UnlockEnv)

/-- The unlock message, valid for ten minutes. -/
def UnlockEnv.buildUnlock (wallet : String) : Result BuildUnlockResult := do
  let issuedAt ← D.toISOString env.now
  let expiresAt ← D.toISOString (env.now + 10 * 60 * 1000)
  let builder := env.unlockBuilder.getD (buildUnlockMessageV1 P D env.origin env.now env.nonce)
  builder {
    origin := some env.origin
    wallet
    vaultId := some "local-default"
    nonceBytes := none
    issuedAt := some issuedAt
    expiresAt := some expiresAt }

def UnlockEnv.buildVaultRoot (wallet : Option String) : Result BuildVaultRootResult :=
  env.vaultRootBuilder.getD (buildVaultRootMessageV1 P) { wallet, vaultId := some "local-default" }

/-- The answer of the wallet in round `r`. -/
def UnlockEnv.answer (r : Round) (messageToSign : String) : Result (Option Bytes) :=
  requestSignature env.codecs (env.signers r) (P.utf8Encode messageToSign)

/-- `!signatureBytes` throws. -/
def UnlockEnv.sign (r : Round) (messageToSign missing : String) : SessionTask Bytes := do
  Task.op (.debugLog r) (.ok ())
  match ← Task.op (.signature r) (env.answer P r messageToSign) with
  | some signatureBytes => return signatureBytes
  | none => throw (.error missing)

/-- The unlock round. The derived key is dropped: only the expiry is checked. -/
def unlockRound (wallet : String) : SessionTask Unit := do
  let unlock ← Task.op (.build .unlock) (env.buildUnlock P D wallet)
  let signatureBytes ← env.sign P .unlock unlock.messageToSign
    "No signature available from wallet/provider"
  Task.modify fun s =>
    { s with lastUnlock := some unlock, lastUnlockSignatureBytes := some signatureBytes }
  let _ ← Task.op .deriveKek
    (deriveKekFromUnlockSignature P D signatureBytes (some env.salt.1) unlock env.now)

/-- The vault root round. -/
def vaultRootRound : SessionTask Unit := do
  let s : SessionManager ← .get
  let vaultRoot ← Task.op (.build .vaultRoot) (env.buildVaultRoot P s.walletPubKey)
  let signatureBytes ← env.sign P .vaultRoot vaultRoot.messageToSign
    "No vault-root signature available from wallet/provider"
  Task.modify fun s =>
    { s with lastVaultRoot := some vaultRoot, lastVaultRootSignatureBytes := some signatureBytes }

def saveVerified (v : VerifiedState) (s : LocalStorage) : LocalStorage :=
  if env.storageWritable then setItem s "sj_verified_v1" (P.jsonStringify v.toJson) else s

/-- The verified signal that `unlockVault` leaves. -/
def verifiedSignal (s : SessionManager) : VerifiedState where
  walletPubKey := some (nullable s.walletPubKey)
  verifiedAt := some (.num env.verifiedAt)
  expiresAt := some (.num (env.verifiedAt + 24 * 60 * 60 * 1000))
  walletProvider := (s.walletProvider.filter fun p => p != "").map .str
  nonce := s.verified.bind fun v => v.nonce
  issuedAt := s.verified.bind fun v => v.issuedAt

/-- The session after both rounds. -/
def markUnlocked (s : SessionManager) : SessionManager :=
  { s with
    verified := some (verifiedSignal env s)
    localStorage := saveVerified P env (verifiedSignal env s) s.localStorage
    vaultUnlocked := true }

def unlockVault : SessionTask Unit := do
  let s : SessionManager ← .get
  match s.walletPubKey.filter fun w => w != "" with
  | none => throw (.error "Wallet not connected")
  | some wallet => do
    unlockRound P D env wallet
    vaultRootRound P env
    Task.modify (markUnlocked P env)

end Unlock

end SovereignJedi.Session
