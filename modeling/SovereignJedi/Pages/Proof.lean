import SovereignJedi.Files.Upload
import SovereignJedi.Pages.Components

/-! The proof of control that the vault's guard asks for. In every run of the page, an identity in the
storage was there from the start, or it proves that a wallet for which the user asked a verification
has signed a message of its own; the guard lets it pass for as long as its time to live says. -/

namespace SovereignJedi.Pages

open SovereignJedi.Js SovereignJedi.Async SovereignJedi.Session SovereignJedi.Wallet
open SovereignJedi.Manifest (LocalStorage WalletPubKey)

/-! ### Proofs of control -/

/-- Dates are read back as they are written. -/
structure ReadBack (D : Dates) : Prop where
  parse_toISOString : ∀ t s, D.toISOString t = .ok s → D.parse s = some t
  parse_empty : D.parse "" = none

/-- The parameters of the message of an identity. -/
def proofOf (id : Identity) : ProofParams where
  domain := id.domain
  publicKey := id.publicKey
  nonce := id.nonce
  issuedAt := id.issuedAt
  cluster := id.cluster
  statement := none

section Statements

variable (P : Platform) (D : Dates) (C : TextCodecs)
  (ed25519 : (message signature : Bytes) → (publicKey : String) → Option Bool) (ttlSeconds : Int)

/-- The identity proves that `w` has signed its message. It was verified at `t`. -/
structure Proves (id : Identity) (w : WalletPubKey) (t : Int) : Prop where
  publicKey : id.publicKey = w.val
  message : id.message = buildProofMessage (proofOf id)
  signed : ∃ signature, decodeSignature C id.signature = .ok signature ∧
    ed25519 (P.utf8Encode id.message) signature w.val = some true
  verifiedAt : D.toISOString t = .ok id.verifiedAt
  expiresAt : computeExpiresAt D id.verifiedAt ttlSeconds = .ok id.expiresAt

/-- Verifications use the check `ed25519`, the configured time to live and the clock. -/
def Genuine (p : Panel) : Action → Prop
  | .verified _ env _ =>
    env.ed25519 = ed25519 ∧ env.ttlSeconds = ttlSeconds ∧ env.verifiedAt = p.now
  | _ => True

/-- The wallets for which an action asks a verification. -/
def Action.asks (p : Panel) : Action → List WalletPubKey
  | .verify => p.adapter.toList
  | _ => []

/-- The wallets for which a verification is asked in a run. -/
def asked : Panel → List Action → List WalletPubKey
  | _, [] => []
  | p, a :: as => a.asks p ++ asked (p.apply P D C a) as

/-- The identities in the storage were there at the start, or prove the control of one of `wallets`
since `start`. -/
structure Proven (s : LocalStorage) (start : Int) (wallets : List WalletPubKey) (p : Panel) :
    Prop where
  started : start ≤ p.now
  waiting : ∀ w ∈ p.verifications, w ∈ wallets
  identity : ∀ id, loadIdentity P p.storage = some id → loadIdentity P s = some id ∨
    ∃ w t, w ∈ wallets ∧ start ≤ t ∧ t ≤ p.now ∧ Proves P D C ed25519 ttlSeconds id w t

end Statements

variable {P : Platform} {D : Dates} {C : TextCodecs}
  {ed25519 : (message signature : Bytes) → (publicKey : String) → Option Bool} {ttlSeconds : Int}

/-- What a verification stores is a proof. -/
theorem proves_doVerify (hC : C.Lawful) {env : VerifyEnv} {w : WalletPubKey} {id : Identity}
    (h : doVerify P D C env w.val = .ok id) :
    Proves P D C env.ed25519 env.ttlSeconds id w env.verifiedAt := by
  simp only [doVerify, bind_eq_ok, require_eq_ok, signatureToBase58] at h
  obtain ⟨-, -, issuedAt, hissued, answer, -, h⟩ := h
  cases answer with
  | none => cases h
  | some signatureBytes =>
    simp only [bind_eq_ok, require_eq_ok, beq_iff_eq] at h
    obtain ⟨signature, ⟨-, hlength, hencode⟩, h⟩ := h
    obtain rfl := Except.ok.inj hencode
    split at h
    · cases h
    · rename_i hvalid
      simp only [bind_eq_ok] at h
      obtain ⟨verifiedAt, hverified, expiresAt, hexpires, hid⟩ := h
      obtain rfl := Except.ok.inj hid
      refine ⟨rfl, rfl, ⟨signatureBytes, decodeSignature_bs58Encode hC hlength, ?_⟩, hverified,
        hexpires⟩
      simp only [VerifyEnv.verifyMessageSignatureVerbose] at hvalid
      split at hvalid
      · cases hvalid
      · split at hvalid
        · cases hvalid
        · split at hvalid
          · cases hvalid
          · split at hvalid
            · cases hvalid
            · cases hvalid
            · assumption

/-- A proof passes the guard for its time to live. -/
theorem Proves.isVerified_iff (hD : ReadBack D) {id : Identity} {w : WalletPubKey} {t : Int}
    (h : Proves P D C ed25519 ttlSeconds id w t) (now : Int) :
    isVerified D (some id) now = true ↔ now ≤ t + ttlSeconds * 1000 := by
  have hexpires := h.expiresAt
  simp only [computeExpiresAt, Crypto.isoAfter, hD.parse_toISOString _ _ h.verifiedAt] at hexpires
  have hparse := hD.parse_toISOString _ _ hexpires
  have hverified : id.verifiedAt ≠ "" := fun he => by
    have := hD.parse_toISOString _ _ h.verifiedAt
    rw [he, hD.parse_empty] at this
    cases this
  have hne : id.expiresAt ≠ "" := fun he => by
    rw [he, hD.parse_empty] at hparse
    cases hparse
  simp [isVerified, isIdentityExpired, hverified, hne, hparse]

/-! ### The storage of the identity -/

theorem loadIdentity_congr {s s' : LocalStorage}
    (h : s' storageKeyIdentity = s storageKeyIdentity) : loadIdentity P s' = loadIdentity P s := by
  rw [loadIdentity, loadIdentity, h]

theorem identity_ne_verified : storageKeyIdentity ≠ verifiedStorageKey := by decide

theorem loadVerified_identity (now : Int) (s : LocalStorage) :
    (loadVerified P now s).1 storageKeyIdentity = s storageKeyIdentity := by
  rcases loadVerified_storage (P := P) now s with h | h <;> rw [h]
  exact Function.update_of_ne identity_ne_verified none s

theorem update_identity (c : SessionCall) (s : SessionManager) :
    (c.update P s).localStorage storageKeyIdentity = s.localStorage storageKeyIdentity := by
  cases c with
  | connectWallet pubKey provider now =>
    rw [SessionCall.update, connectWallet_localStorage]
    rcases reconcileVerified_cases P now pubKey.normalized (connecting pubKey provider s) with
      ⟨-, h⟩ | ⟨-, h⟩ | ⟨-, h⟩ <;> rw [h]
    · exact Function.update_of_ne identity_ne_verified none s.localStorage
    · rfl
    · exact loadVerified_identity now s.localStorage
  | lockVault => rfl
  | disconnectWallet => exact Function.update_of_ne identity_ne_verified none s.localStorage
  | unlockVault wallet env => rfl

theorem advance_identity (stage : Stage) (w : String) (env : UnlockEnv) (s : SessionManager) :
    (stage.advance P D env w s).1.localStorage storageKeyIdentity =
      s.localStorage storageKeyIdentity := by
  rcases stage.advance_cases (P := P) (D := D) w s with
    h | ⟨unlock, b, -, -, h⟩ | ⟨vaultRoot, b, -, -, h⟩
  · rw [h]
  · rw [h]
  · rw [h]
    simp only [markUnlocked, saveVerified]
    split
    · exact Function.update_of_ne identity_ne_verified _ s.localStorage
    · rfl

/-! ### What an action leaves as it is -/

namespace Panel

/-- The identity is `v` now, and the rest of what concerns proofs of control is as it was. -/
structure Aside (p q : Panel) (v : Option String) : Prop where
  now : q.now = p.now
  verifications : q.verifications = p.verifications
  identity : q.storage storageKeyIdentity = v

variable {p q r : Panel} {v v' : Option String}

theorem Aside.refl (p : Panel) : Aside p p (p.storage storageKeyIdentity) := ⟨rfl, rfl, rfl⟩

theorem Aside.trans (h : Aside p q v) (h' : Aside q r v') : Aside p r v' :=
  ⟨h'.now.trans h.now, h'.verifications.trans h.verifications, h'.identity⟩

theorem aside_call (p : Panel) (c : SessionCall) :
    Aside p (p.call P D c) (p.storage storageKeyIdentity) := by
  refine ⟨rfl, rfl, ?_⟩
  rw [storage, call_session]
  exact update_identity c p.session.state

theorem aside_resume (hp : p.Standing P D) (k : Nat) :
    Aside p (p.resume k) (p.storage storageKeyIdentity) := by
  unfold resume
  split
  · rename_i c point ready next hk
    split
    · obtain ⟨w, env, stage, -, -, -, -, -, rfl⟩ := hp.waiting hk
      refine ⟨rfl, rfl, ?_⟩
      rw [storage, Pool.resume, Stage.seg_next]
      exact advance_identity stage w env p.session.state
    · exact .refl p
  · exact .refl p

theorem aside_clearIdentity (p : Panel) : Aside p (p.clearIdentity P D) none := by
  refine ⟨rfl, rfl, ?_⟩
  rw [clearIdentity, (aside_call _ _).identity]
  exact Function.update_self storageKeyIdentity none p.storage

theorem aside_afterDisconnect (p : Panel) : Aside p p.afterDisconnect none := by
  refine ⟨rfl, rfl, ?_⟩
  have hne : storageKeyIdentity ≠ storageKeyLastProvider := by decide
  have hlast : p.afterDisconnect.storage storageKeyIdentity =
      Wallet.clearIdentity p.storage storageKeyIdentity :=
    Function.update_of_ne hne none (Wallet.clearIdentity p.storage)
  rw [hlast]
  exact Function.update_self storageKeyIdentity none p.storage

theorem aside_refreshWidget (p : Panel) (walletPubKey : Option String) :
    Aside p (p.refreshWidget P walletPubKey) (p.storage storageKeyIdentity) :=
  ⟨rfl, rfl, localManifestCid_records _ _ _ _ isRecord_identity⟩

theorem aside_setManifestCid {w cid : String} (h : p.setManifestCid P w cid = .ok q) :
    Aside p q (p.storage storageKeyIdentity) := by
  obtain ⟨s, hs, rfl⟩ := setManifestCid_eq_ok.mp h
  have hstored : Aside p (p.onStorage fun _ => s) (p.storage storageKeyIdentity) :=
    ⟨rfl, rfl, setManifestCid_records hs _ isRecord_identity⟩
  unfold manifestCidChanged
  split
  · refine ⟨rfl, rfl, ?_⟩
    exact (aside_refreshWidget (P := P) _ _).identity.trans hstored.identity
  · exact hstored

/-- The actions that concern proofs of control. -/
def OfProof : Action → Prop
  | .tick _ | .verify | .verified .. => True
  | _ => False

/-- The other actions keep the identity or clear it. -/
theorem aside_apply (hp : p.Standing P D) (a : Action) :
    OfProof a ∨ ∃ v, Aside p (p.apply P D C a) v ∧
      (v = p.storage storageKeyIdentity ∨ v = none) := by
  cases a with
  | tick now => exact Or.inl trivial
  | verify => exact Or.inl trivial
  | verified i env writable => exact Or.inl trivial
  | refresh => exact Or.inr ⟨_, ⟨rfl, rfl, loadVerified_identity p.now p.storage⟩, Or.inl rfl⟩
  | syncSession =>
    refine Or.inr ⟨_, ?_, Or.inl rfl⟩
    simp only [apply, syncSession]
    split
    · exact .refl p
    · split
      · exact Aside.trans (q := { p with connect := { p.connect with
          synced := some p.connect.view, publicKeyStr := p.connect.view.address } })
          ⟨rfl, rfl, rfl⟩ (aside_call _ _)
      · exact ⟨rfl, rfl, rfl⟩
  | renderConnect =>
    refine Or.inr ⟨_, ?_, Or.inl rfl⟩
    simp only [apply, renderConnect]
    split
    · exact ⟨rfl, rfl, rfl⟩
    · exact ⟨rfl, rfl, localManifestCid_records _ _ _ _ isRecord_identity⟩
  | clearUnconnected =>
    refine Or.inr ?_
    simp only [apply, clearUnconnected]
    split
    · exact ⟨_, .refl p, Or.inl rfl⟩
    · split
      · exact ⟨_, ⟨rfl, rfl, rfl⟩, Or.inl rfl⟩
      · refine ⟨none, ⟨rfl, rfl, ?_⟩, Or.inr rfl⟩
        exact (aside_clearIdentity _).identity
  | readPointer =>
    refine Or.inr ⟨_, ?_, Or.inl rfl⟩
    simp only [apply, readPointer]
    split
    · exact .refl p
    · exact ⟨rfl, rfl, (aside_refreshWidget _ _).identity⟩
  | unlockVault env => exact Or.inr ⟨_, aside_call p _, Or.inl rfl⟩
  | lockVault => exact Or.inr ⟨_, aside_call p _, Or.inl rfl⟩
  | resume k => exact Or.inr ⟨_, aside_resume hp k, Or.inl rfl⟩
  | clearIdentity => exact Or.inr ⟨none, aside_clearIdentity p, Or.inr rfl⟩
  | disconnect =>
    refine Or.inr ?_
    simp only [apply, clickDisconnect]
    split
    · exact ⟨_, ⟨rfl, rfl, rfl⟩, Or.inl rfl⟩
    · exact ⟨none, aside_afterDisconnect p, Or.inr rfl⟩
  | disconnected =>
    refine Or.inr ?_
    simp only [apply, finishDisconnect]
    split
    · exact ⟨none, ⟨rfl, rfl, (aside_afterDisconnect p).identity⟩, Or.inr rfl⟩
    · exact ⟨_, .refl p, Or.inl rfl⟩
  | setManifestCid w cid =>
    refine Or.inr ⟨_, ?_, Or.inl rfl⟩
    simp only [apply, storePointer]
    split
    · exact aside_setManifestCid ‹_›
    · exact .refl p
  | removeManifestCid w =>
    refine Or.inr ⟨_, ?_, Or.inl rfl⟩
    simp only [apply, dropPointer]
    split
    · rename_i s hs
      exact ⟨rfl, rfl, removeManifestCid_records hs _ isRecord_identity⟩
    · exact .refl p
  | restore =>
    obtain ⟨restores, loading, h⟩ := p.clickRestore_changes
    rw [apply, h]
    exact Or.inr ⟨_, ⟨rfl, rfl, rfl⟩, Or.inl rfl⟩
  | restored i =>
    refine Or.inr ⟨_, ?_, Or.inl rfl⟩
    simp only [apply, finishRestore]
    split
    · split
      · rename_i q hq
        exact ⟨(aside_setManifestCid hq).now, (aside_setManifestCid hq).verifications,
          (aside_setManifestCid hq).identity⟩
      · exact ⟨rfl, rfl, rfl⟩
    · exact .refl p
  | publishConnect =>
    obtain ⟨sent, publishing, h⟩ := p.clickPublish_changes
    rw [apply, h]
    exact Or.inr ⟨_, ⟨rfl, rfl, rfl⟩, Or.inl rfl⟩
  | publishWidget =>
    obtain ⟨sent, loading, h⟩ := p.handlePublish_changes
    rw [apply, h]
    exact Or.inr ⟨_, ⟨rfl, rfl, rfl⟩, Or.inl rfl⟩
  | _ => exact Or.inr ⟨_, ⟨rfl, rfl, rfl⟩, Or.inl rfl⟩

end Panel

/-! ### Runs -/

section Runs

open Panel

variable {s : LocalStorage} {start : Int} {wallets : List WalletPubKey} {p q : Panel}

theorem Proven.aside (h : Proven P D C ed25519 ttlSeconds s start wallets p) {v : Option String}
    (haside : Aside p q v) (hv : v = p.storage storageKeyIdentity ∨ v = none) :
    Proven P D C ed25519 ttlSeconds s start wallets q where
  started := haside.now ▸ h.started
  waiting w hw := h.waiting w (haside.verifications ▸ hw)
  identity id hid := by
    rcases hv with rfl | rfl
    · rw [loadIdentity_congr haside.identity] at hid
      rw [haside.now]
      exact h.identity id hid
    · rw [loadIdentity, haside.identity] at hid
      cases hid

theorem Proven.mono (h : Proven P D C ed25519 ttlSeconds s start wallets p)
    {wallets' : List WalletPubKey} (hw : wallets ⊆ wallets') :
    Proven P D C ed25519 ttlSeconds s start wallets' p where
  started := h.started
  waiting w hmem := hw (h.waiting w hmem)
  identity id hid := by
    rcases h.identity id hid with hstart | ⟨w, t, hmem, hproof⟩
    · exact Or.inl hstart
    · exact Or.inr ⟨w, t, hw hmem, hproof⟩

/-- A verification that the wallet has answered. -/
theorem Proven.finishVerify (hP : P.Lawful) (hC : C.Lawful)
    (h : Proven P D C ed25519 ttlSeconds s start wallets p) (i : Nat) {env : VerifyEnv}
    (writable : Bool) (henv : Genuine ed25519 ttlSeconds p (.verified i env writable)) :
    Proven P D C ed25519 ttlSeconds s start wallets (p.finishVerify P D C i env writable) := by
  unfold Panel.finishVerify
  split
  · rename_i w hw
    have hmem : w ∈ wallets := h.waiting w (List.mem_of_getElem? hw)
    have hrest : Proven P D C ed25519 ttlSeconds s start wallets
        { p with verifications := p.verifications.eraseIdx i } :=
      ⟨h.started, fun w hw => h.waiting w (List.mem_of_mem_eraseIdx hw), h.identity⟩
    dsimp only
    split
    · rename_i id hverify
      refine ⟨h.started, hrest.waiting, fun id' hid => ?_⟩
      cases writable with
      | false => exact h.identity id' hid
      | true =>
        obtain rfl := Option.some.inj ((loadIdentity_saveIdentity hP id p.storage).symm.trans hid)
        obtain ⟨hed, httl, hat⟩ := henv
        have hproof := proves_doVerify hC hverify
        rw [hed, httl] at hproof
        exact Or.inr ⟨w, env.verifiedAt, hmem, hat ▸ h.started, hat.le, hproof⟩
    · exact hrest
  · exact h

/-- An action adds the proofs of the wallets that it asks a verification for. -/
theorem Proven.apply (hP : P.Lawful) (hC : C.Lawful)
    (h : Proven P D C ed25519 ttlSeconds s start wallets p) (hp : p.Standing P D) {a : Action}
    (hallows : p.Allows a) (ha : Genuine ed25519 ttlSeconds p a) :
    Proven P D C ed25519 ttlSeconds s start (wallets ++ a.asks p) (p.apply P D C a) := by
  rcases aside_apply (C := C) hp a with hof | ⟨v, haside, hv⟩
  · cases a with
    | tick now =>
      have hnow : p.now ≤ now := hallows
      have hmono := h.mono (List.subset_append_left wallets ((Action.tick now).asks p))
      refine ⟨h.started.trans hnow, hmono.waiting, fun id hid => ?_⟩
      rcases hmono.identity id hid with hstart | ⟨w, t, hw, hle, hge, hproof⟩
      · exact Or.inl hstart
      · exact Or.inr ⟨w, t, hw, hle, hge.trans hnow, hproof⟩
    | verify =>
      have hmono := h.mono (List.subset_append_left wallets (Action.verify.asks p))
      refine ⟨h.started, fun w hw => ?_, hmono.identity⟩
      rcases List.mem_append.mp hw with hw | hw
      · exact hmono.waiting w hw
      · exact List.mem_append_right _ hw
    | verified i env writable =>
      exact (h.finishVerify hP hC i writable ha).mono (List.subset_append_left _ _)
    | _ => exact hof.elim
  · exact (h.aside haside hv).mono (List.subset_append_left _ _)

theorem Proven.run (hP : P.Lawful) (hC : C.Lawful) {as : List Action}
    (h : Proven P D C ed25519 ttlSeconds s start wallets p) (hp : p.Standing P D)
    (hrun : Run P D C (Genuine ed25519 ttlSeconds) p as q) :
    Proven P D C ed25519 ttlSeconds s start (wallets ++ asked P D C p as) q := by
  induction as generalizing p wallets with
  | nil =>
    obtain rfl := hrun
    exact h.mono (List.subset_append_left _ _)
  | cons a as ih =>
    obtain ⟨hallows, ha, hrest⟩ := hrun
    have hstep := ih (h.apply hP hC hp hallows ha) (standing_apply hp a) hrest
    rwa [List.append_assoc] at hstep

theorem proven_mount (now : Int) (s : LocalStorage) (isVerified : Bool) :
    Proven P D C ed25519 ttlSeconds s now [] (mount P now s isVerified) where
  started := le_refl now
  waiting w hw := by cases hw
  identity id hid := by
    have hsame : loadIdentity P (mount P now s isVerified).storage = loadIdentity P s :=
      loadIdentity_congr (loadVerified_identity now s)
    exact Or.inl (hsame ▸ hid)

/-- A passed guard means a proof of control. In every run of the page, an identity in the storage was
there when the page was opened, or it carries a signature of a wallet for which the user asked a
verification since, over a message with the fields of the identity; and the guard lets it pass
exactly until its time to live has passed since the verification. -/
theorem guard_proven (hP : P.Lawful) (hC : C.Lawful) (hD : ReadBack D) {now : Int}
    {s : LocalStorage} {verified : Bool} {as : List Action}
    (hrun : Run P D C (Genuine ed25519 ttlSeconds) (mount P now s verified) as q) {id : Identity}
    (hid : loadIdentity P q.storage = some id) :
    loadIdentity P s = some id ∨
    ∃ w t, w ∈ asked P D C (mount P now s verified) as ∧ now ≤ t ∧ t ≤ q.now ∧
      Proves P D C ed25519 ttlSeconds id w t ∧
      (isVerified D (loadIdentity P q.storage) q.now = true ↔ q.now ≤ t + ttlSeconds * 1000) := by
  have hmount : (mount P now s verified).Standing P D := staged_init _
  rcases (Proven.run hP hC (proven_mount now s verified) hmount hrun).identity id hid with
    hstart | ⟨w, t, hw, hle, hge, hproof⟩
  · exact Or.inl hstart
  · rw [hid]
    exact Or.inr ⟨w, t, by simpa using hw, hle, hge, hproof, hproof.isVerified_iff hD q.now⟩

end Runs

/-! ### A sample -/

/-- `Date` at two instants. -/
def twoDates : Dates where
  toISOString t :=
    if t = 0 then .ok "1970-01-01T00:00:00.000Z"
    else if t = 600000 then .ok "1970-01-01T00:10:00.000Z"
    else .error (.rangeError "Invalid time value")
  parse s :=
    if s = "1970-01-01T00:10:00.000Z" then some 600000
    else if s = "1970-01-01T00:00:00.000Z" then some 0
    else none

theorem twoDates_readBack : ReadBack twoDates where
  parse_toISOString t s h := by
    simp only [twoDates] at h
    split at h
    · obtain rfl := Except.ok.inj h
      simp [twoDates, *]
    · split at h
      · obtain rfl := Except.ok.inj h
        simp [twoDates, *]
      · cases h
  parse_empty := by simp [twoDates]

/-- A verification asks for two dates, and for one that is computed of the second. -/
theorem doVerify_of_agree {P : Platform} {C : TextCodecs} {D D' : Dates} {env : VerifyEnv}
    (hissued : D'.toISOString env.now = D.toISOString env.now)
    (hverified : D'.toISOString env.verifiedAt = D.toISOString env.verifiedAt)
    (hexpires : ∀ v, D.toISOString env.verifiedAt = .ok v →
      computeExpiresAt D' v env.ttlSeconds = computeExpiresAt D v env.ttlSeconds)
    (publicKey : String) : doVerify P D' C env publicKey = doVerify P D C env publicKey := by
  simp only [doVerify, hissued, hverified]
  cases hv : D.toISOString env.verifiedAt with
  | error e => rfl
  | ok v => simp only [ok_bind, hexpires v hv]

theorem sample_verified : doVerify symbolic twoDates sampleCodecs
    (Files.sampleVerification sampleSign 1) Files.sampleKey.val =
      .ok (Files.sampleIdentity sampleSign 1) := by
  have hagree : doVerify symbolic twoDates sampleCodecs (Files.sampleVerification sampleSign 1)
      Files.sampleKey.val = doVerify symbolic sampleDates sampleCodecs
        (Files.sampleVerification sampleSign 1) Files.sampleKey.val := by
    refine doVerify_of_agree rfl rfl (fun v hv => ?_) _
    obtain rfl := Except.ok.inj hv
    rfl
  rw [hagree, Files.sample_doVerify (by simp [sampleSign])]

/-- A page whose user has connected a wallet and asked for its verification. -/
noncomputable def verifyingPanel : Panel :=
  (((Panel.mount symbolic 0 (fun _ => none) false).apply symbolic twoDates sampleCodecs
    .syncSession).apply symbolic twoDates sampleCodecs (.adapter (some Files.sampleKey))).apply
      symbolic twoDates sampleCodecs .verify

/-- The wallet verifies, and the guard lets it pass. -/
theorem guard_proven_sample : ∃ (q : Panel) (id : Identity) (w : WalletPubKey) (t : Int),
    Panel.Run symbolic twoDates sampleCodecs (Genuine (fun _ _ _ => some true) 600)
      (Panel.mount symbolic 0 (fun _ => none) false)
      [.syncSession, .adapter (some Files.sampleKey), .verify,
        .verified 0 (Files.sampleVerification sampleSign 1) true] q ∧
    loadIdentity symbolic q.storage = some id ∧
    Proves symbolic twoDates sampleCodecs (fun _ _ _ => some true) 600 id w t ∧
    (isVerified twoDates (loadIdentity symbolic q.storage) q.now = true ↔
      q.now ≤ t + 600 * 1000) := by
  have hrun : Panel.Run symbolic twoDates sampleCodecs (Genuine (fun _ _ _ => some true) 600)
      (Panel.mount symbolic 0 (fun _ => none) false)
      [.syncSession, .adapter (some Files.sampleKey), .verify,
        .verified 0 (Files.sampleVerification sampleSign 1) true]
      (verifyingPanel.apply symbolic twoDates sampleCodecs
        (.verified 0 (Files.sampleVerification sampleSign 1) true)) :=
    ⟨trivial, trivial, rfl, trivial, trivial, trivial, trivial, ⟨rfl, rfl, rfl⟩, rfl⟩
  have hid : loadIdentity symbolic (verifyingPanel.apply symbolic twoDates sampleCodecs
      (.verified 0 (Files.sampleVerification sampleSign 1) true)).storage =
        some (Files.sampleIdentity sampleSign 1) := by
    have hasked : verifyingPanel.verifications[0]? = some Files.sampleKey := rfl
    simp only [Panel.apply, Panel.finishVerify, hasked, sample_verified]
    exact loadIdentity_saveIdentity symbolic_lawful _ verifyingPanel.storage
  rcases guard_proven symbolic_lawful Files.sampleCodecs_lawful twoDates_readBack hrun hid with
    hstart | ⟨w, t, -, -, -, hproof, hguard⟩
  · cases hstart
  · exact ⟨_, _, w, t, hrun, hid, hproof, hguard⟩

end SovereignJedi.Pages
