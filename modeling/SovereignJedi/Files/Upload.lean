import SovereignJedi.Files.Encryption
import SovereignJedi.Session.Unlock
import SovereignJedi.Wallet.Identity

/-! The upload of a file (`uploadEncryptedToIpfs.ts`), and who can open it later. The key-encryption
key comes from the signature of the proof of control that is stored at the time of the upload. That
message has a random nonce, so that no later verification or unlock signs it again. -/

namespace SovereignJedi.Files

open SovereignJedi.Js SovereignJedi.Crypto SovereignJedi.Wallet SovereignJedi.Session
open SovereignJedi.Manifest (LocalStorage WalletPubKey base58_of_all setItem)

structure File where
  name : String
  type : String
  bytes : Bytes

structure UploadResult where
  cid : String
  integritySha256B64 : String
  object : Json

/-- What an upload gets from outside. `readFault` and `addFault` are the errors of reading the file
and of adding it to IPFS, if any. -/
structure UploadEnv where
  localStorage : LocalStorage
  vaultUnlocked : Bool
  guardNow : Int
  now : Int
  origin : String
  salt : RandomBytes 32
  nonce : RandomBytes 16
  encryption : EncryptDraws
  exposeFileKey : Bool
  readFault : Option JsError
  addFault : Option JsError

def maxMvpFileBytes : Nat := 100 * 1024 * 1024

variable (P : Platform) (D : Dates) (C : TextCodecs)

def canPerformVaultActions (env : UploadEnv) (identity : Option Identity) : Bool :=
  isVerified D (identity.or (loadIdentity P env.localStorage)) env.guardNow && env.vaultUnlocked

/-- The object that is hashed. -/
def hashBasis (encryptedFile envelope : Json) : Json :=
  .obj [("version", .num 1), ("header", encryptedFile), ("envelope", envelope),
    ("payload", .ofFields [("ciphertextB64", encryptedFile.get "ciphertext")])]

def buildEncryptedIpfsObjectV1 (encryptedFile envelope : Json) (integritySha256B64 : String) : Json :=
  .obj [("version", .num 1), ("header", encryptedFile), ("envelope", envelope),
    ("payload", .ofFields [("ciphertextB64", encryptedFile.get "ciphertext")]),
    ("integrity", .obj [("sha256B64", .str integritySha256B64)])]

/-- The result of an operation outside, unless it fails. -/
def unlessFault {α : Type} (fault : Option JsError) (a : α) : Result α :=
  match fault with
  | some e => .error e
  | none => .ok a

def uploadEncryptedToIpfsOrThrow (env : UploadEnv) (file : File) (walletPubKey : String) :
    Result UploadResult := do
  require (!isBlank walletPubKey) "Wallet non connecté."
  let identity := loadIdentity P env.localStorage
  require (canPerformVaultActions P D env identity)
    "Upload denied — Verify identity and Unlock Vault before uploading files."
  require (decide (file.bytes.length ≤ maxMvpFileBytes))
    "Fichier trop volumineux (max 100MB pour le MVP)."
  match identity.filter fun id => id.signature != "" with
  | none => throw (.error "Signature de preuve introuvable. Re-vérifie ton wallet.")
  | some identity => do
    let signatureBytes ← decodeSignature C identity.signature
    let issuedAt ← D.toISOString env.now
    let unlock ← buildUnlockMessageV1 P D env.origin env.now env.nonce {
      origin := some env.origin
      wallet := walletPubKey
      vaultId := some "local-default"
      nonceBytes := none
      issuedAt := some issuedAt
      expiresAt := some identity.expiresAt }
    let kek ← deriveKekFromUnlockSignature P D signatureBytes (some env.salt.1) unlock env.now
    let plaintext ← unlessFault env.readFault file.bytes
    let r ← encryptFile P env.exposeFileKey env.encryption plaintext {
      fileKey := none
      kek
      salt := env.salt.1
      walletPubKey
      fileId := none
      filename := some file.name
      mimeType := some (if file.type = "" then "application/octet-stream" else file.type) }
    let sha256B64 := P.toBase64 (P.sha256 (P.encodeJsonToBytes (hashBasis r.encryptedFile r.envelope)))
    let object := buildEncryptedIpfsObjectV1 r.encryptedFile r.envelope sha256B64
    let cid ← unlessFault env.addFault (P.cidOf (P.encodeJsonToBytes object))
    return { cid, integritySha256B64 := sha256B64, object }

/-- What an upload checks before it adds the object to IPFS. -/
structure Admitted (env : UploadEnv) (file : File) (walletPubKey : String) (identity : Identity) :
    Prop where
  wallet : isBlank walletPubKey = false
  loaded : loadIdentity P env.localStorage = some identity
  verified : isVerified D (some identity) env.guardNow = true
  unlocked : env.vaultUnlocked = true
  size : file.bytes.length ≤ maxMvpFileBytes
  signed : identity.signature ≠ ""
  decoded : ∃ b, decodeSignature C identity.signature = .ok b
  issued : ∃ issuedAt, D.toISOString env.now = .ok issuedAt
  unexpired : ∃ t, D.parse identity.expiresAt = some t ∧ env.now < t
  readable : env.readFault = none

/-! ### Opening a file -/

/-- Opens an uploaded object with a signature: the key is derived as its envelope says. -/
def openWith (object : Json) (signatureBytes : Bytes) : Result Bytes := do
  let envelope ← prop (some object) "envelope"
  let salt ← P.fromBase64 (← prop (← prop envelope "kekDerivation") "salt")
  let kek ← deriveKekFromSignature P signatureBytes (some salt)
  decryptFile P (orElse (object.get "header") .null) (orElse envelope .null) kek

variable {P D C}

/-- Opening the object of an encrypted file decrypts that file. -/
theorem openWith_object (hP : P.Lawful) {expose : Bool} {draws : EncryptDraws} {plaintext : Bytes}
    {options : EncryptOptions} {r : EncryptResult}
    (h : encryptFile P expose draws plaintext options = .ok r) (sha sig : _) :
    openWith P (buildEncryptedIpfsObjectV1 r.encryptedFile r.envelope sha) sig =
      (deriveKekFromSignature P sig (some options.salt)).bind
        (decryptFile P r.encryptedFile r.envelope) := by
  obtain ⟨key, id, json, cipher, aad, wrapped, hs⟩ := encryptFile_eq_ok h
  rw [hs.encryptedFile, hs.envelope]
  simp [openWith, buildEncryptedIpfsObjectV1, envelopeObject, encryptedFileObject, prop, orElse,
    hP.base64]
  rfl

theorem isVerified_eq_true {identity : Identity} {now : Int}
    (h : isVerified D (some identity) now = true) :
    identity.expiresAt ≠ "" ∧ ∃ t, D.parse identity.expiresAt = some t ∧ now ≤ t := by
  simp only [isVerified] at h
  split at h
  · cases h
  · rename_i hne
    obtain ⟨-, hexpires⟩ := not_or.mp hne
    rw [isIdentityExpired, if_neg hexpires] at h
    split at h
    · cases h
    · rename_i t hparse
      refine ⟨hexpires, t, hparse, ?_⟩
      simpa using h

/-- What is admitted is uploaded, unless IPFS fails. -/
theorem upload_succeeds (hP : P.Lawful) {env : UploadEnv} {file : File} {w : String}
    {identity : Identity} (h : Admitted P D C env file w identity) (hadd : env.addFault = none) :
    ∃ r, uploadEncryptedToIpfsOrThrow P D C env file w = .ok r := by
  obtain ⟨signatureBytes, hsig⟩ := h.decoded
  obtain ⟨issuedAt, hnow⟩ := h.issued
  obtain ⟨t, hexpires, hlt⟩ := h.unexpired
  obtain ⟨hexpires_ne, -⟩ := isVerified_eq_true h.verified
  have hcan : canPerformVaultActions P D env (some identity) = true := by
    simp [canPerformVaultActions, h.verified, h.unlocked]
  have hsigned : (some identity).filter (fun id => id.signature != "") = some identity := by
    simp [Option.filter_some, h.signed]
  obtain ⟨unlock, hunlock, hobject⟩ := buildUnlockMessageV1_ok (D := D) hP env.origin env.now
    env.nonce {
      origin := some env.origin
      wallet := w
      vaultId := some "local-default"
      nonceBytes := none
      issuedAt := some issuedAt
      expiresAt := some identity.expiresAt } rfl rfl rfl
  obtain ⟨kek, hkek, hlen⟩ := deriveKekFromSignature_ok hP signatureBytes (some env.salt.1)
  have hderive : deriveKekFromUnlockSignature P D signatureBytes (some env.salt.1) unlock env.now =
      .ok kek := by
    refine deriveKekFromUnlockSignature_eq_ok.mpr ⟨?_, hkek⟩
    simp [assertUnlockNotExpired, hobject, hexpires, bne_iff_ne.mpr hexpires_ne, hlt]
  obtain ⟨r, hr⟩ := encryptFile_ok hP env.exposeFileKey env.encryption file.bytes {
      fileKey := none
      kek
      salt := env.salt.1
      walletPubKey := w
      fileId := none
      filename := some file.name
      mimeType := some (if file.type = "" then "application/octet-stream" else file.type) }
    rfl hlen h.wallet (Or.inr env.salt.2)
  simp only [uploadEncryptedToIpfsOrThrow, h.loaded, h.wallet, Bool.not_false, require_true, ok_bind,
    hcan, h.size, decide_true, hsigned, hsig, hnow, hunlock, hderive, unlessFault, h.readable, hadd, hr]
  exact ⟨_, rfl⟩

/-- A successful upload is encrypted under a key that the stored proof of control gives. -/
theorem upload_eq_ok (hP : P.Lawful) {env : UploadEnv} {file : File} {w : String} {r : UploadResult}
    (h : uploadEncryptedToIpfsOrThrow P D C env file w = .ok r) {identity : Identity}
    (hid : loadIdentity P env.localStorage = some identity) :
    ∃ signatureBytes options encrypted, decodeSignature C identity.signature = .ok signatureBytes ∧
      deriveKekFromSignature P signatureBytes (some env.salt.1) = .ok options.kek ∧
      options.fileId = none ∧
      encryptFile P env.exposeFileKey env.encryption file.bytes options = .ok encrypted ∧
      ∀ sig, openWith P r.object sig = (deriveKekFromSignature P sig (some env.salt.1)).bind
        (decryptFile P encrypted.encryptedFile encrypted.envelope) := by
  simp only [uploadEncryptedToIpfsOrThrow, bind_eq_ok, require_eq_ok, exists_const, hid] at h
  obtain ⟨-, -, -, h⟩ := h
  split at h
  · cases h
  · rename_i identity' hsome
    obtain rfl := Option.some.inj (Option.filter_eq_some_iff.mp hsome).1
    simp only [bind_eq_ok] at h
    obtain ⟨signatureBytes, hsig, issuedAt, -, unlock, -, kek, hkek, plaintext, hread, encrypted,
      hencrypt, cid, -, hr⟩ := h
    obtain rfl := Except.ok.inj hr
    obtain rfl : plaintext = file.bytes := by
      unfold unlessFault at hread
      split at hread
      · cases hread
      · exact (Except.ok.inj hread).symm
    exact ⟨signatureBytes, _, encrypted, hsig, (deriveKekFromUnlockSignature_eq_ok.mp hkek).2, rfl,
      hencrypt, fun sig => openWith_object hP hencrypt _ sig⟩

/-! ### Later sessions -/

/-- A successful upload for `w`, after a verification of `w`, which signs by `sign`. -/
structure Upload (P : Platform) (D : Dates) (C : TextCodecs) (sign : Bytes → Bytes)
    (w : WalletPubKey) where
  verification : VerifyEnv
  signs : ∀ m, verification.sign C m = .ok (some (sign m))
  identity : Identity
  verified : doVerify P D C verification w.val = .ok identity
  env : UploadEnv
  stored : loadIdentity P env.localStorage = some identity
  file : File
  result : UploadResult
  uploaded : uploadEncryptedToIpfsOrThrow P D C env file w.val = .ok result

/-- A session in which `w` has verified again, with another nonce than `earlier`, and unlocked its
vault. -/
structure LaterSession (P : Platform) (D : Dates) (C : TextCodecs) (sign : Bytes → Bytes)
    (w : WalletPubKey) (earlier : Identity) where
  verification : VerifyEnv
  signs : ∀ m, verification.sign C m = .ok (some (sign m))
  identity : Identity
  verified : doVerify P D C verification w.val = .ok identity
  fresh : identity.nonce ≠ earlier.nonce
  env : UnlockEnv
  unlockBuilder : env.unlockBuilder = none
  vaultRootBuilder : env.vaultRootBuilder = none
  answers : ∀ r m, env.answer P r m = .ok (some (sign (P.utf8Encode m)))
  before : SessionManager
  connected : before.walletPubKey = some w.val
  session : SessionManager
  unlocked : (unlockVault P D env).run before = (session, .ok ())

section Held

variable {sign : Bytes → Bytes} {w : WalletPubKey}

def Upload.message (u : Upload P D C sign w) : Bytes := P.utf8Encode u.identity.message

variable {earlier : Identity}

/-- The messages that the wallet has signed for the session. -/
def LaterSession.messages (s : LaterSession P D C sign w earlier) : List Bytes :=
  P.utf8Encode s.identity.message ::
    ((s.session.lastUnlock.map fun u => P.utf8Encode u.messageToSign).toList ++
      (s.session.lastVaultRoot.map fun r => P.utf8Encode r.messageToSign).toList)

/-- The signatures that the session holds: the stored proof, the unlock and the vault root. -/
def LaterSession.held (s : LaterSession P D C sign w earlier) : List Bytes :=
  (decodeSignature C s.identity.signature).toOption.toList ++
    (s.session.lastUnlockSignatureBytes.toList ++ s.session.lastVaultRootSignatureBytes.toList)

/-- The session can open the uploaded file. -/
def Recoverable (u : Upload P D C sign w) (s : LaterSession P D C sign w u.identity) : Prop :=
  ∃ sig ∈ s.held, openWith P u.result.object sig = .ok u.file.bytes

/-- Signing, hashing and key derivation do not collide on the messages of a run. -/
structure CollisionFree (P : Platform) (sign : Bytes → Bytes) (salt : Bytes)
    (messages : List Bytes) : Prop where
  signatures : ∀ m ∈ messages, ∀ m' ∈ messages, sign m = sign m' → m = m'
  digests : ∀ m ∈ messages, ∀ m' ∈ messages,
    P.sha256 (sign m) = P.sha256 (sign m') → sign m = sign m'
  keys : ∀ m ∈ messages, ∀ m' ∈ messages,
    deriveKeyHKDF P (P.sha256 (sign m)) (some salt) (some (P.utf8Encode "SJ-KEK-v1")) 32 =
        deriveKeyHKDF P (P.sha256 (sign m')) (some salt) (some (P.utf8Encode "SJ-KEK-v1")) 32 →
      P.sha256 (sign m) = P.sha256 (sign m')

/-- Without collisions, one key comes from one message. -/
theorem CollisionFree.kek_injective {salt : RandomBytes 32} {messages : List Bytes}
    (h : CollisionFree P sign salt.1 messages) {m m' : Bytes} (hm : m ∈ messages)
    (hm' : m' ∈ messages) (hkek : deriveKekFromSignature P (sign m) (some salt.1) =
      deriveKekFromSignature P (sign m') (some salt.1)) : m = m' := by
  have hsalt : (some salt.1).filter (fun s => !s.isEmpty) = some salt.1 := by
    have hlen := salt.2
    rw [Option.filter_some, if_pos]
    cases hs : salt.1 with
    | nil => simp [hs] at hlen
    | cons b bs => rfl
  rw [deriveKekFromSignature, deriveKekFromSignature, hsalt] at hkek
  exact h.signatures m hm m' hm' (h.digests m hm m' hm' (h.keys m hm m' hm' hkek))

/-- The session holds the wallet's signatures of messages that its builders made. -/
theorem LaterSession.materials (s : LaterSession P D C sign w earlier) :
    ∃ unlock vaultRoot jcs jcs', unlock.messageToSign = "SJ_UNLOCK_V1\n" ++ jcs ∧
      vaultRoot.messageToSign = "SJ_VAULT_ROOT_V1\n" ++ jcs' ∧
      s.session.lastUnlock = some unlock ∧ s.session.lastVaultRoot = some vaultRoot ∧
      s.session.lastUnlockSignatureBytes = some (sign (P.utf8Encode unlock.messageToSign)) ∧
      s.session.lastVaultRootSignatureBytes =
        some (sign (P.utf8Encode vaultRoot.messageToSign)) := by
  rcases run_unlockVault (P := P) (D := D) s.env s.connected w.ne with
    ⟨unlock, b, vaultRoot, b', hunlock, hroot, hrun⟩ | ⟨-, s', e, hrun, -⟩
  · have hsession : s.session = _ := congrArg Prod.fst (s.unlocked.symm.trans hrun)
    have hbuilt := hunlock.built
    simp only [UnlockEnv.buildUnlock, bind_eq_ok, s.unlockBuilder, Option.getD_none] at hbuilt
    obtain ⟨_, -, _, -, hbuilt⟩ := hbuilt
    have hrootBuilt := hroot.built
    rw [UnlockEnv.buildVaultRoot, s.vaultRootBuilder, Option.getD_none] at hrootBuilt
    obtain ⟨jcs, hjcs⟩ := buildUnlockMessageV1_message hbuilt
    obtain ⟨jcs', hjcs'⟩ := buildVaultRootMessageV1_message hrootBuilt
    have hb := (s.answers .unlock _).symm.trans hunlock.answered
    have hb' := (s.answers .vaultRoot _).symm.trans hroot.answered
    simp only [Except.ok.injEq, Option.some.injEq] at hb hb'
    rw [hsession]
    exact ⟨unlock, vaultRoot, jcs, jcs', hjcs, hjcs', rfl, rfl, congrArg some hb.symm,
      congrArg some hb'.symm⟩
  · cases s.unlocked.symm.trans hrun

/-- Every signature that the session holds is one of a message other than the proof behind the
upload. -/
theorem LaterSession.held_signed (hP : P.Lawful) (hC : C.Lawful) (hD : D.OneLine)
    (u : Upload P D C sign w) (s : LaterSession P D C sign w u.identity) {sig : Bytes}
    (hsig : sig ∈ s.held) : ∃ m ∈ s.messages, m ≠ u.message ∧ sig = sign m := by
  have hutf8 : ∀ {x y : String}, P.utf8Encode x = P.utf8Encode y → x = y := fun {x y} h => by
    rw [← hP.utf8 x, h, hP.utf8 y]
  obtain ⟨issuedAt, hissued, hnonce, hmessage, -⟩ := doVerify_eq_ok hC u.signs u.verified
  obtain ⟨issuedAt', hissued', hnonce', hmessage', hdecode⟩ := doVerify_eq_ok hC s.signs s.verified
  obtain ⟨unlock, vaultRoot, jcs, jcs', hjcs, hjcs', hunlock, hroot, hb, hb'⟩ := s.materials
  have hsecond := buildProofMessage_second (u.verification.proof w.val issuedAt)
  have hkey : '\n' ∉ w.val.toList := fun h => absurd (w.no_space _ h) (by decide)
  simp only [LaterSession.held, hdecode, hb, hb', List.mem_append, Except.toOption,
    Option.toList_some, List.mem_singleton] at hsig
  simp only [LaterSession.messages, hunlock, hroot, Option.map_some, Option.toList_some,
    List.mem_cons, List.mem_append, List.not_mem_nil, or_false]
  rcases hsig with rfl | rfl | rfl
  · refine ⟨_, Or.inl rfl, fun h => s.fresh ?_, rfl⟩
    have hproofs := hutf8 h
    rw [hmessage, hmessage'] at hproofs
    rw [hnonce, hnonce']
    exact buildProofMessage_nonce (s.verification.proof_oneLine hD hkey hissued')
      (u.verification.proof_oneLine hD hkey hissued) hproofs
  · refine ⟨_, Or.inr (Or.inl rfl), fun h => ?_, rfl⟩
    rw [← hmessage, ← hutf8 h, hjcs] at hsecond
    simp at hsecond
  · refine ⟨_, Or.inr (Or.inr rfl), fun h => ?_, rfl⟩
    rw [← hmessage, ← hutf8 h, hjcs'] at hsecond
    simp at hsecond

/-- The proof of control behind an upload opens the file. -/
theorem Upload.opens (hP : P.Lawful) (hC : C.Lawful) (u : Upload P D C sign w) :
    openWith P u.result.object (sign u.message) = .ok u.file.bytes := by
  obtain ⟨-, -, -, -, hdecode⟩ := doVerify_eq_ok hC u.signs u.verified
  obtain ⟨sig, options, encrypted, hsig, hkek, hid, hencrypt, hopen⟩ :=
    upload_eq_ok hP u.uploaded u.stored
  obtain rfl := Except.ok.inj (hsig.symm.trans hdecode)
  obtain ⟨kek, hkek', hlen⟩ := deriveKekFromSignature_ok hP (sign u.message) (some u.env.salt.1)
  obtain rfl := Except.ok.inj (hkek.symm.trans hkek')
  rw [hopen, hkek']
  exact decryptFile_encryptFile hP hencrypt (by simp [hid]) hlen

/-- No other message of the wallet does. -/
theorem Upload.opens_only (hP : P.Lawful) (hA : P.IdealAead) (hC : C.Lawful)
    (u : Upload P D C sign w) {messages : List Bytes}
    (hfree : CollisionFree P sign u.env.salt.1 messages) (hu : u.message ∈ messages) {m : Bytes}
    (hm : m ∈ messages) {plaintext : Bytes}
    (h : openWith P u.result.object (sign m) = .ok plaintext) : m = u.message := by
  obtain ⟨-, -, -, -, hdecode⟩ := doVerify_eq_ok hC u.signs u.verified
  obtain ⟨sig, options, encrypted, hsig, hkek, hid, hencrypt, hopen⟩ :=
    upload_eq_ok hP u.uploaded u.stored
  obtain rfl := Except.ok.inj (hsig.symm.trans hdecode)
  rw [hopen] at h
  obtain ⟨kek, hkek', hdecrypt⟩ := bind_eq_ok.mp h
  obtain ⟨rfl, -⟩ := decryptFile_unique hP hA hencrypt (by simp [hid]) hdecrypt
  exact hfree.kek_injective hm hu (hkek'.trans hkek.symm)

/-- No later session can open an uploaded file. -/
theorem upload_never_recoverable (hP : P.Lawful) (hA : P.IdealAead) (hC : C.Lawful) (hD : D.OneLine)
    (u : Upload P D C sign w) (s : LaterSession P D C sign w u.identity)
    (hfree : CollisionFree P sign u.env.salt.1 (u.message :: s.messages)) : ¬ Recoverable u s := by
  rintro ⟨sig, hsig, hopen⟩
  obtain ⟨m, hm, hne, rfl⟩ := s.held_signed hP hC hD u hsig
  exact hne (u.opens_only hP hA hC hfree (by simp) (List.mem_cons_of_mem _ hm) hopen)

end Held

/-! ### A sample run -/

def sampleKey : WalletPubKey := ⟨"Wa11et", by decide, base58_of_all (by decide)⟩

/-- A verification at the beginning of 1970, by a wallet adapter that signs by `sign`. -/
def sampleVerification (sign : Bytes → Bytes) (nonce : UInt8) : VerifyEnv where
  domain := "localhost:1620"
  domain_line := by decide
  cluster := "devnet"
  cluster_line := by decide
  now := 0
  verifiedAt := 0
  ttlSeconds := 600
  nonce := ⟨List.replicate 24 nonce, rfl⟩
  adapter := some fun m => .ok (.bytes (sign m))
  adapterAgain := fun _ => .ok .other
  solana := none
  ed25519 := fun _ _ _ => some true

def sampleProof (nonce : UInt8) : ProofParams where
  domain := "localhost:1620"
  publicKey := "Wa11et"
  nonce := generateNonce (List.replicate 24 nonce)
  issuedAt := "1970-01-01T00:00:00.000Z"
  cluster := "devnet"
  statement := none

def sampleIdentity (sign : Bytes → Bytes) (nonce : UInt8) : Identity where
  publicKey := "Wa11et"
  message := buildProofMessage (sampleProof nonce)
  signature := Symbolic.toBase64 (sign (Symbolic.utf8Encode (buildProofMessage (sampleProof nonce))))
  issuedAt := "1970-01-01T00:00:00.000Z"
  verifiedAt := "1970-01-01T00:00:00.000Z"
  expiresAt := "1970-01-01T00:10:00.000Z"
  nonce := generateNonce (List.replicate 24 nonce)
  cluster := "devnet"
  domain := "localhost:1620"

theorem sampleCodecs_lawful : sampleCodecs.Lawful := by
  intro b
  show some ((Symbolic.toBase64 b).toList.map Symbolic.charByte) = some b
  rw [Symbolic.toBase64, String.toList_ofList, Symbolic.map_charByte]

theorem sample_signs (sign : Bytes → Bytes) (nonce : UInt8) (m : Bytes) :
    (sampleVerification sign nonce).sign sampleCodecs m = .ok (some (sign m)) := rfl

theorem sample_doVerify {sign : Bytes → Bytes} (hsign : ∀ m, (sign m).length = 64) (nonce : UInt8) :
    doVerify symbolic sampleDates sampleCodecs (sampleVerification sign nonce) sampleKey.val =
      .ok (sampleIdentity sign nonce) := by
  have hmessage : buildProofMessage (sampleProof nonce) ≠ "" := by
    intro h
    have hlist := congrArg String.toList h
    simp [buildProofMessage, ProofParams.lines, String.intercalate_cons_cons] at hlist
  have hproof : (sampleVerification sign nonce).proof sampleKey.val "1970-01-01T00:00:00.000Z" =
    sampleProof nonce := rfl
  have hbase58 (m : Bytes) : signatureToBase58 sampleCodecs (sign m) =
      .ok (Symbolic.toBase64 (sign m)) := by
    simp [signatureToBase58, hsign, sampleCodecs]
  have hverify : (sampleVerification sign nonce).verifyMessageSignatureVerbose symbolic
      (buildProofMessage (sampleProof nonce))
      (sign (symbolic.utf8Encode (buildProofMessage (sampleProof nonce)))) sampleKey.val = none := by
    simp [VerifyEnv.verifyMessageSignatureVerbose, hmessage, hsign, sampleKey]
    rfl
  have hissued : sampleDates.toISOString (sampleVerification sign nonce).now =
    .ok "1970-01-01T00:00:00.000Z" := rfl
  have hverified : sampleDates.toISOString (sampleVerification sign nonce).verifiedAt =
    .ok "1970-01-01T00:00:00.000Z" := rfl
  have hexpires : computeExpiresAt sampleDates "1970-01-01T00:00:00.000Z"
    (sampleVerification sign nonce).ttlSeconds = .ok "1970-01-01T00:10:00.000Z" := rfl
  have hkey : require (sampleKey.val != "") "No public key available. Connect a wallet first." =
    .ok () := rfl
  simp only [doVerify, hkey, ok_bind, hissued, hproof, sample_signs, hbase58, hverify, hverified,
    hexpires]
  rfl

def sampleUploadEnv (sign : Bytes → Bytes) : UploadEnv where
  localStorage := setItem (fun _ => none) storageKeyIdentity
    (Symbolic.jsonStringify (sampleIdentity sign 1).toJson)
  vaultUnlocked := true
  guardNow := 0
  now := 0
  origin := "http://localhost:1620"
  salt := .zeros 32
  nonce := .zeros 16
  encryption := {
    fileKey := .zeros 32
    fileId := .zeros 16
    fileNonce := .zeros 24
    wrapNonce := .zeros 24 }
  exposeFileKey := false
  readFault := none
  addFault := none

theorem sample_stored (sign : Bytes → Bytes) :
    loadIdentity symbolic (sampleUploadEnv sign).localStorage = some (sampleIdentity sign 1) :=
  loadIdentity_saveIdentity symbolic_lawful (sampleIdentity sign 1) fun _ => none

def sampleFile : File := ⟨"a.txt", "text/plain", [1, 2, 3]⟩

/-- The gate lets an upload through for whatever wallet. -/
theorem sample_admitted {sign : Bytes → Bytes} (hsign : ∀ m, (sign m).length = 64) {w : String}
    (hwallet : isBlank w = false) : Admitted symbolic sampleDates sampleCodecs (sampleUploadEnv sign)
      sampleFile w (sampleIdentity sign 1) where
  wallet := hwallet
  loaded := sample_stored sign
  verified := rfl
  unlocked := rfl
  size := show 3 ≤ maxMvpFileBytes by decide
  signed := by
    refine symbolic_lawful.base64_ne fun h => ?_
    have hlen := hsign (Symbolic.utf8Encode (buildProofMessage (sampleProof 1)))
    simp [h] at hlen
  decoded := ⟨_, decodeSignature_bs58Encode sampleCodecs_lawful (hsign _)⟩
  issued := ⟨"1970-01-01T00:00:00.000Z", rfl⟩
  unexpired := ⟨600000, rfl, show (0 : Int) < 600000 by decide⟩
  readable := rfl

theorem sample_upload {sign : Bytes → Bytes} (hsign : ∀ m, (sign m).length = 64) :
    ∃ r, uploadEncryptedToIpfsOrThrow symbolic sampleDates sampleCodecs (sampleUploadEnv sign)
      sampleFile sampleKey.val = .ok r :=
  upload_succeeds symbolic_lawful (sample_admitted hsign (by simp [isBlank, sampleKey.ne])) rfl

theorem exists_sampleUpload {sign : Bytes → Bytes} (hsign : ∀ m, (sign m).length = 64) :
    ∃ u : Upload symbolic sampleDates sampleCodecs sign sampleKey,
      u.identity = sampleIdentity sign 1 ∧ u.env.salt.1 = List.replicate 32 0 := by
  obtain ⟨r, hr⟩ := sample_upload hsign
  exact ⟨⟨sampleVerification sign 1, sample_signs sign 1, _, sample_doVerify hsign 1,
    sampleUploadEnv sign, sample_stored sign, _, r, hr⟩, rfl, rfl⟩

theorem sampleDates_oneLine : sampleDates.OneLine := by
  intro t s h
  obtain rfl := Except.ok.inj h
  split <;> decide

/-- The messages of a later session do not depend on the signatures. -/
theorem exists_sampleLater : ∃ c d, ∀ {sign : Bytes → Bytes}, (∀ m, (sign m).length = 64) →
    ∀ {earlier : Identity}, earlier = sampleIdentity sign 1 →
      ∃ s : LaterSession symbolic sampleDates sampleCodecs sign sampleKey earlier,
        s.messages = [symbolic.utf8Encode (buildProofMessage (sampleProof 2)), c, d] := by
  obtain ⟨unlock, hunlock⟩ :=
    sampleEnv_unlockSigned symbolic_lawful (fun _ => []) sampleKey.val
  obtain ⟨vaultRoot, hroot⟩ :=
    sampleEnv_vaultRootSigned symbolic_lawful (fun _ => []) (some sampleKey.val)
  refine ⟨symbolic.utf8Encode unlock.messageToSign, symbolic.utf8Encode vaultRoot.messageToSign,
    fun {sign} hsign {earlier} hearlier => ?_⟩
  have hfresh : (sampleIdentity sign 2).nonce ≠ earlier.nonce := by
    rw [hearlier]
    show generateNonce (List.replicate 24 2) ≠ generateNonce (List.replicate 24 1)
    decide
  have hbuilt : (sampleEnv sign).buildUnlock symbolic sampleDates sampleKey.val = .ok unlock :=
    hunlock.built
  have hrootBuilt : (sampleEnv sign).buildVaultRoot symbolic (some sampleKey.val) =
    .ok vaultRoot := hroot.built
  rcases run_unlockVault (P := symbolic) (D := sampleDates) (sampleEnv sign)
    (s := sampleSession) (w := sampleKey.val) rfl sampleKey.ne with
    ⟨unlock', b, vaultRoot', b', hunlock', hroot', hrun⟩ | ⟨hnone, -⟩
  · obtain rfl := Except.ok.inj (hunlock'.built.symm.trans hbuilt)
    obtain rfl := Except.ok.inj (hroot'.built.symm.trans hrootBuilt)
    exact ⟨⟨sampleVerification sign 2, sample_signs sign 2, _, sample_doVerify hsign 2, hfresh,
      sampleEnv sign, rfl, rfl, sampleEnv_answer symbolic sign, sampleSession, rfl, _, hrun⟩, rfl⟩
  · exact absurd ⟨hrootBuilt, sampleEnv_answer ..⟩
      (hnone unlock _ vaultRoot _ ⟨hbuilt, sampleEnv_answer .., hunlock.unexpired⟩)

/-- Tells the messages `a`, `b`, `c` and one more apart. -/
def messageTag (a b c m : Bytes) : UInt8 :=
  if m = a then 1 else if m = b then 2 else if m = c then 3 else 4

def taggedSign (a b c m : Bytes) : Bytes := messageTag a b c m :: List.replicate 63 0

theorem messageTag_mem (a b c m : Bytes) : messageTag a b c m ∈ ([1, 2, 3, 4] : List UInt8) := by
  unfold messageTag
  split_ifs <;> decide

theorem messageTag_injective {a b c d m m' : Bytes} (hm : m ∈ [a, b, c, d]) (hm' : m' ∈ [a, b, c, d])
    (h : messageTag a b c m = messageTag a b c m') : m = m' := by
  simp only [List.mem_cons, List.not_mem_nil, or_false] at hm hm'
  unfold messageTag at h
  split_ifs at h <;> simp_all

/-- The digests and the keys of the signatures show the tag. -/
theorem taggedSign_collisionFree (a b c d : Bytes) :
    CollisionFree symbolic (taggedSign a b c) (List.replicate 32 0) [a, b, c, d] := by
  have hdigests : ∀ t ∈ ([1, 2, 3, 4] : List UInt8), ∀ t' ∈ ([1, 2, 3, 4] : List UInt8),
      symbolic.sha256 (t :: List.replicate 63 0) = symbolic.sha256 (t' :: List.replicate 63 0) →
        t = t' := by decide +kernel
  have hkeys : ∀ t ∈ ([1, 2, 3, 4] : List UInt8), ∀ t' ∈ ([1, 2, 3, 4] : List UInt8),
      deriveKeyHKDF symbolic (symbolic.sha256 (t :: List.replicate 63 0))
        (some (List.replicate 32 0)) (some (symbolic.utf8Encode "SJ-KEK-v1")) 32 =
      deriveKeyHKDF symbolic (symbolic.sha256 (t' :: List.replicate 63 0))
        (some (List.replicate 32 0)) (some (symbolic.utf8Encode "SJ-KEK-v1")) 32 → t = t' := by
    decide +kernel
  have htag := messageTag_mem a b c
  refine ⟨fun m hm m' hm' h => ?_, fun m _ m' _ h => ?_, fun m _ m' _ h => ?_⟩
  · exact messageTag_injective hm hm' (List.cons.inj h).1
  · exact congrArg (· :: List.replicate 63 0) (hdigests _ (htag m) _ (htag m') h)
  · exact congrArg (fun t => symbolic.sha256 (t :: List.replicate 63 0))
      (hkeys _ (htag m) _ (htag m') h)

/-- An upload and a later session of one wallet, without collisions. -/
theorem exists_sampleRun : ∃ sign, ∃ u : Upload symbolic sampleDates sampleCodecs sign sampleKey,
    ∃ s : LaterSession symbolic sampleDates sampleCodecs sign sampleKey u.identity,
      CollisionFree symbolic sign u.env.salt.1 (u.message :: s.messages) := by
  obtain ⟨c, d, hlater⟩ := exists_sampleLater
  let a := symbolic.utf8Encode (buildProofMessage (sampleProof 1))
  let b := symbolic.utf8Encode (buildProofMessage (sampleProof 2))
  have hsign (m : Bytes) : (taggedSign a b c m).length = 64 := by simp [taggedSign]
  obtain ⟨u, hu, hsalt⟩ := exists_sampleUpload hsign
  obtain ⟨s, hs⟩ := hlater hsign hu
  refine ⟨taggedSign a b c, u, s, ?_⟩
  have hmessage : u.message = a := by rw [Upload.message, hu, sampleIdentity]
  rw [hsalt, hmessage, hs]
  exact taggedSign_collisionFree a b c d

theorem upload_never_recoverable_sample : ∃ sign,
    ∃ u : Upload symbolic sampleDates sampleCodecs sign sampleKey,
    ∃ s : LaterSession symbolic sampleDates sampleCodecs sign sampleKey u.identity,
      ¬ Recoverable u s := by
  obtain ⟨sign, u, s, hfree⟩ := exists_sampleRun
  exact ⟨sign, u, s, upload_never_recoverable symbolic_lawful symbolic_idealAead sampleCodecs_lawful
    sampleDates_oneLine u s hfree⟩

/-- An uploaded file that the proof of its upload opens, and no signature of a later session. -/
theorem sample_file_lost : ∃ sign, ∃ u : Upload symbolic sampleDates sampleCodecs sign sampleKey,
    ∃ s : LaterSession symbolic sampleDates sampleCodecs sign sampleKey u.identity,
      openWith symbolic u.result.object (sign u.message) = .ok u.file.bytes ∧
      ∀ sig ∈ s.held, openWith symbolic u.result.object sig ≠ .ok u.file.bytes := by
  obtain ⟨sign, u, s, hfree⟩ := exists_sampleRun
  refine ⟨sign, u, s, u.opens symbolic_lawful sampleCodecs_lawful, fun sig hsig hopen => ?_⟩
  obtain ⟨m, hm, hne, rfl⟩ :=
    s.held_signed symbolic_lawful sampleCodecs_lawful sampleDates_oneLine u hsig
  exact hne (u.opens_only symbolic_lawful symbolic_idealAead sampleCodecs_lawful hfree (by simp)
    (List.mem_cons_of_mem _ hm) hopen)

end SovereignJedi.Files
