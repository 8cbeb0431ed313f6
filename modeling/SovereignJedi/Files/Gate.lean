import SovereignJedi.Files.Upload
import SovereignJedi.Session.Calls

/-! Whose identity an upload uses. The gate in front of an upload asks that the stored proof of
control is unexpired and that the vault of the session is unlocked. It does not ask whose they are:
neither the identity nor the wallet of the session is compared with the wallet that the file is
encrypted for. -/

namespace SovereignJedi.Files

open SovereignJedi.Js SovereignJedi.Crypto SovereignJedi.Wallet SovereignJedi.Session

/-- An upload in `session`. -/
def UploadEnv.inSession (env : UploadEnv) (session : SessionManager) : UploadEnv :=
  { env with vaultUnlocked := session.vaultUnlocked }

variable (P : Platform) (D : Dates) (C : TextCodecs)

/-- The upload comes to the point where it adds `r.object` to IPFS. -/
def ReachesIpfs (env : UploadEnv) (file : File) (walletPubKey : String) (r : UploadResult) : Prop :=
  uploadEncryptedToIpfsOrThrow P D C { env with addFault := none } file walletPubKey = .ok r

/-- The key of the uploaded object comes from the signature of `identity`. -/
def KeyedBy (env : UploadEnv) (file : File) (identity : Identity) (r : UploadResult) : Prop :=
  ∃ signatureBytes options encrypted, decodeSignature C identity.signature = .ok signatureBytes ∧
    deriveKekFromSignature P signatureBytes (some env.salt.1) = .ok options.kek ∧
    encryptFile P env.exposeFileKey env.encryption file.bytes options = .ok encrypted ∧
    r.object = buildEncryptedIpfsObjectV1 encrypted.encryptedFile encrypted.envelope
      r.integritySha256B64

/-- `identity` has not expired when the gate looks at it, nor when the key is derived. -/
def Unexpired (env : UploadEnv) (identity : Identity) : Prop :=
  ∃ t, D.parse identity.expiresAt = some t ∧ env.guardNow ≤ t ∧ env.now < t

/-- The identity that keys the upload is unexpired, and it and the session are of the wallet that
the file is uploaded for. -/
def RightIdentity (env : UploadEnv) (session : SessionManager) (file : File)
    (walletPubKey : String) : Prop :=
  ∀ r, ReachesIpfs P D C (env.inSession session) file walletPubKey r →
    ∃ identity, loadIdentity P env.localStorage = some identity ∧ KeyedBy P C env file identity r ∧
      Unexpired D env identity ∧ identity.publicKey = walletPubKey ∧
      session.walletPubKey = some walletPubKey

variable {P D C} {env : UploadEnv} {file : File} {w : String}

/-- An upload that reaches IPFS has been admitted, and is keyed by the stored identity. -/
theorem ReachesIpfs.admitted {r : UploadResult} (h : ReachesIpfs P D C env file w r) :
    ∃ identity, Admitted P D C env file w identity ∧ KeyedBy P C env file identity r := by
  simp only [ReachesIpfs, uploadEncryptedToIpfsOrThrow, bind_eq_ok, require_eq_ok, exists_const,
    Bool.not_eq_true', decide_eq_true_eq] at h
  obtain ⟨hwallet, hcan, hsize, h⟩ := h
  split at h
  · cases h
  · rename_i identity hsome
    obtain ⟨hloaded, hsigned⟩ := Option.filter_eq_some_iff.mp hsome
    simp only [bind_eq_ok] at h
    obtain ⟨signatureBytes, hdecoded, issuedAt, hissued, unlock, hunlock, kek, hkek, plaintext, hread,
      encrypted, hencrypt, cid, -, hr⟩ := h
    obtain rfl := Except.ok.inj hr
    obtain ⟨hnotExpired, hkek⟩ := deriveKekFromUnlockSignature_eq_ok.mp hkek
    have hexpires := buildUnlockMessageV1_expiresAt hunlock rfl
    obtain ⟨-, t, hparse, hlt⟩ := assertUnlockNotExpired_eq_ok.mp hnotExpired
    obtain ⟨hfault, rfl⟩ : env.readFault = none ∧ file.bytes = plaintext := by
      unfold unlessFault at hread
      split at hread
      · cases hread
      · exact ⟨‹_›, Except.ok.inj hread⟩
    have hcan : isVerified D (some identity) env.guardNow = true ∧ env.vaultUnlocked = true := by
      simpa [canPerformVaultActions, hloaded] using hcan
    refine ⟨identity, ?_, signatureBytes, _, encrypted, hdecoded, hkek, hencrypt, rfl⟩
    exact {
      wallet := hwallet
      loaded := hloaded
      verified := hcan.1
      unlocked := hcan.2
      size := hsize
      signed := bne_iff_ne.mp hsigned
      decoded := ⟨_, hdecoded⟩
      issued := ⟨_, hissued⟩
      unexpired := ⟨t, hexpires ▸ hparse, hlt⟩
      readable := hfault }

theorem Admitted.unexpired_both {identity : Identity} (h : Admitted P D C env file w identity) :
    Unexpired D env identity := by
  obtain ⟨-, t, hparse, hguard⟩ := isVerified_eq_true h.verified
  obtain ⟨t', hparse', hlt⟩ := h.unexpired
  obtain rfl := Option.some.inj (hparse.symm.trans hparse')
  exact ⟨t, hparse, hguard, hlt⟩

/-- What is admitted reaches IPFS. -/
theorem Admitted.reaches (hP : P.Lawful) {identity : Identity}
    (h : Admitted P D C env file w identity) : ∃ r, ReachesIpfs P D C env file w r := by
  have h' : Admitted P D C { env with addFault := none } file w identity :=
    ⟨h.wallet, h.loaded, h.verified, h.unlocked, h.size, h.signed, h.decoded, h.issued, h.unexpired,
      h.readable⟩
  exact upload_succeeds hP h' rfl

/-- An upload uses the right identity exactly when, if it is admitted, the stored identity and the
session are of the wallet that it is called for. -/
theorem rightIdentity_iff (hP : P.Lawful) {session : SessionManager} :
    RightIdentity P D C env session file w ↔
      ∀ identity, Admitted P D C (env.inSession session) file w identity →
        identity.publicKey = w ∧ session.walletPubKey = some w := by
  constructor
  · intro h identity hadmitted
    obtain ⟨r, hr⟩ := hadmitted.reaches hP
    obtain ⟨identity', hloaded, -, -, hright⟩ := h r hr
    obtain rfl := Option.some.inj (hadmitted.loaded.symm.trans hloaded)
    exact hright
  · intro h r hr
    obtain ⟨identity, hadmitted, hkeyed⟩ := hr.admitted
    exact ⟨identity, hadmitted.loaded, hkeyed, hadmitted.unexpired_both, h identity hadmitted⟩

/-! ### Samples -/

/-- A session with an unlocked vault. -/
def sampleSession (P : Platform) (w : String) : SessionManager :=
  { freshSession P 0 fun _ => none with walletPubKey := some w, vaultUnlocked := true }

/-- The wallet that has verified uploads a file. -/
theorem rightIdentity_sample : RightIdentity symbolic sampleDates sampleCodecs
    (sampleUploadEnv sampleSign) (sampleSession symbolic "Wa11et") sampleFile "Wa11et" := by
  refine (rightIdentity_iff symbolic_lawful).mpr fun identity h => ⟨?_, rfl⟩
  obtain rfl := Option.some.inj ((sample_stored sampleSign).symm.trans h.loaded)
  rfl

theorem sampleSign_length (m : Bytes) : (sampleSign m).length = 64 := by
  simp [sampleSign]

/-- The user has switched to another wallet, and its file is keyed by the proof of the first. -/
theorem switched_wallet_uploads : ∃ r, ReachesIpfs symbolic sampleDates sampleCodecs
      ((sampleUploadEnv sampleSign).inSession (sampleSession symbolic "0ther")) sampleFile "0ther" r ∧
    ¬ RightIdentity symbolic sampleDates sampleCodecs (sampleUploadEnv sampleSign)
      (sampleSession symbolic "0ther") sampleFile "0ther" := by
  have hadmitted : Admitted symbolic sampleDates sampleCodecs
      ((sampleUploadEnv sampleSign).inSession (sampleSession symbolic "0ther")) sampleFile "0ther"
        (sampleIdentity sampleSign 1) := sample_admitted sampleSign_length (by decide)
  obtain ⟨r, hr⟩ := hadmitted.reaches symbolic_lawful
  refine ⟨r, hr, fun h => ?_⟩
  obtain ⟨identity, hloaded, -, -, hpublicKey, -⟩ := h r hr
  obtain rfl := Option.some.inj ((sample_stored sampleSign).symm.trans hloaded)
  exact absurd hpublicKey (show "Wa11et" ≠ "0ther" by decide)

end SovereignJedi.Files
