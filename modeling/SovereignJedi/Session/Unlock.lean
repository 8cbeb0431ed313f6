import SovereignJedi.Js.Symbolic
import SovereignJedi.Session.Manager

/-! When `unlockVault` keeps its contract: a vault is unlocked by two valid signatures of the
connected wallet, or the call throws and the vault is as locked as before. The signatures are never
verified, so this depends on the wallet's answers. -/

namespace SovereignJedi.Session

open SovereignJedi.Js SovereignJedi.Crypto SovereignJedi.Async

variable {P : Platform} {D : Dates} {env : UnlockEnv}

/-! ### Rounds -/

/-- The wallet `w` answers the unlock message with `signatureBytes`, while the message is valid. -/
structure UnlockSigned (P : Platform) (D : Dates) (env : UnlockEnv) (w : String)
    (unlock : BuildUnlockResult) (signatureBytes : Bytes) : Prop where
  built : env.buildUnlock P D w = .ok unlock
  answered : env.answer P .unlock unlock.messageToSign = .ok (some signatureBytes)
  unexpired : assertUnlockNotExpired D unlock env.now = .ok ()

/-- It answers the vault root message with `signatureBytes`. -/
structure VaultRootSigned (P : Platform) (env : UnlockEnv) (w : Option String)
    (vaultRoot : BuildVaultRootResult) (signatureBytes : Bytes) : Prop where
  built : env.buildVaultRoot P w = .ok vaultRoot
  answered : env.answer P .vaultRoot vaultRoot.messageToSign = .ok (some signatureBytes)

/-- Either the wallet has signed, or the call throws; the session is as it was. -/
theorem run_sign (env : UnlockEnv) (r : Round) (messageToSign missing : String)
    (s : SessionManager) :
    (∃ b, env.answer P r messageToSign = .ok (some b) ∧
      (env.sign P r messageToSign missing).run s = (s, .ok b)) ∨
    ((∀ b, env.answer P r messageToSign ≠ .ok (some b)) ∧ ∃ e,
      (env.sign P r messageToSign missing).run s = (s, .error e)) := by
  simp only [UnlockEnv.sign, Task.bind_def, Task.run_bind, Task.run_op]
  cases env.answer P r messageToSign with
  | error e => exact Or.inr ⟨by simp, e, rfl⟩
  | ok b =>
    cases b with
    | none => exact Or.inr ⟨by simp, .error missing, rfl⟩
    | some b => exact Or.inl ⟨b, rfl, rfl⟩

/-- The wallet `w` answers the unlock message with `signatureBytes`, expired or not. -/
structure UnlockAnswered (P : Platform) (D : Dates) (env : UnlockEnv) (w : String)
    (unlock : BuildUnlockResult) (signatureBytes : Bytes) : Prop where
  built : env.buildUnlock P D w = .ok unlock
  answered : env.answer P .unlock unlock.messageToSign = .ok (some signatureBytes)

theorem UnlockAnswered.unique {w : String} {unlock unlock' : BuildUnlockResult} {b b' : Bytes}
    (h : UnlockAnswered P D env w unlock b) (h' : UnlockAnswered P D env w unlock' b') :
    unlock = unlock' ∧ b = b' := by
  obtain rfl := Except.ok.inj (h.built.symm.trans h'.built)
  have hb := h.answered.symm.trans h'.answered
  simp only [Except.ok.injEq, Option.some.injEq] at hb
  exact ⟨rfl, hb⟩

/-- The unlock round stores the answer before it checks the expiry, and throws without an answer. -/
theorem run_unlockRound (env : UnlockEnv) (w : String) (s : SessionManager) :
    (∃ unlock b, UnlockAnswered P D env w unlock b ∧ (unlockRound P D env w).run s =
      ({ s with lastUnlock := some unlock, lastUnlockSignatureBytes := some b },
        assertUnlockNotExpired D unlock env.now)) ∨
    ((∀ unlock b, ¬ UnlockAnswered P D env w unlock b) ∧ ∃ e,
      (unlockRound P D env w).run s = (s, .error e)) := by
  cases hbuilt : env.buildUnlock P D w with
  | error e =>
    refine Or.inr ⟨fun unlock b h => ?_, e, ?_⟩
    · simpa [hbuilt] using h.built
    · simp [unlockRound, Task.run_bind, hbuilt]
  | ok unlock =>
    rcases run_sign (P := P) env .unlock unlock.messageToSign
      "No signature available from wallet/provider" s with ⟨b, hanswer, hsign⟩ | ⟨hanswer, e, hsign⟩
    · refine Or.inl ⟨unlock, b, ⟨hbuilt, hanswer⟩, ?_⟩
      obtain ⟨kek, hkek⟩ := exists_deriveKekFromSignature P b (some env.salt.1)
      cases hexpired : assertUnlockNotExpired D unlock env.now with
      | error e =>
        simp [unlockRound, Task.run_bind, hbuilt, hsign, deriveKekFromUnlockSignature, hexpired]
      | ok u =>
        simp [unlockRound, Task.run_bind, hbuilt, hsign, deriveKekFromUnlockSignature, hexpired,
          hkek]
    · refine Or.inr ⟨fun unlock' b h => ?_, e, ?_⟩
      · obtain rfl := Except.ok.inj (h.built.symm.trans hbuilt)
        exact hanswer b h.answered
      · simp [unlockRound, Task.run_bind, hbuilt, hsign]

/-- Either the vault root round stores what the wallet has signed, or it throws. -/
theorem run_vaultRootRound (env : UnlockEnv) (s : SessionManager) :
    (∃ vaultRoot b, VaultRootSigned P env s.walletPubKey vaultRoot b ∧
      (vaultRootRound P env).run s =
        ({ s with lastVaultRoot := some vaultRoot, lastVaultRootSignatureBytes := some b },
          .ok ())) ∨
    ((∀ vaultRoot b, ¬ VaultRootSigned P env s.walletPubKey vaultRoot b) ∧ ∃ e,
      (vaultRootRound P env).run s = (s, .error e)) := by
  cases hbuilt : env.buildVaultRoot P s.walletPubKey with
  | error e =>
    refine Or.inr ⟨fun vaultRoot b h => ?_, e, ?_⟩
    · simpa [hbuilt] using h.built
    · simp [vaultRootRound, Task.run_bind, hbuilt]
  | ok vaultRoot =>
    rcases run_sign (P := P) env .vaultRoot vaultRoot.messageToSign
      "No vault-root signature available from wallet/provider" s with
      ⟨b, hanswer, hsign⟩ | ⟨hanswer, e, hsign⟩
    · refine Or.inl ⟨vaultRoot, b, ⟨hbuilt, hanswer⟩, ?_⟩
      simp [vaultRootRound, Task.run_bind, hbuilt, hsign]
    · refine Or.inr ⟨fun vaultRoot' b h => ?_, e, ?_⟩
      · obtain rfl := Except.ok.inj (h.built.symm.trans hbuilt)
        exact hanswer b h.answered
      · simp [vaultRootRound, Task.run_bind, hbuilt, hsign]

/-! ### The whole call -/

/-- The session after an unlock with these messages and answers. -/
def unlocked (P : Platform) (env : UnlockEnv) (s : SessionManager) (unlock : BuildUnlockResult)
    (b : Bytes) (vaultRoot : BuildVaultRootResult) (b' : Bytes) : SessionManager :=
  markUnlocked P env { s with
    lastUnlock := some unlock
    lastUnlockSignatureBytes := some b
    lastVaultRoot := some vaultRoot
    lastVaultRootSignatureBytes := some b' }

/-- The session after the unlock message has been answered. -/
def storedUnlock (s : SessionManager) (unlock : BuildUnlockResult) (b : Bytes) : SessionManager :=
  { s with lastUnlock := some unlock, lastUnlockSignatureBytes := some b }

/-- The session after the vault root message has been answered. -/
def storedRoot (s : SessionManager) (vaultRoot : BuildVaultRootResult) (b : Bytes) :
    SessionManager :=
  { s with lastVaultRoot := some vaultRoot, lastVaultRootSignatureBytes := some b }

/-- How a call ends: both messages are answered in time, only the first one is answered or it has
expired, or nothing is answered. -/
theorem run_unlockVault_cases (env : UnlockEnv) {s : SessionManager} {w : String}
    (hw : s.walletPubKey = some w) (hne : w ≠ "") :
    (∃ unlock b, UnlockAnswered P D env w unlock b ∧
      ((assertUnlockNotExpired D unlock env.now = .ok () ∧
        ∃ vaultRoot b', VaultRootSigned P env (some w) vaultRoot b' ∧
          (unlockVault P D env).run s = (unlocked P env s unlock b vaultRoot b', .ok ())) ∨
      (¬ (assertUnlockNotExpired D unlock env.now = .ok () ∧
        ∃ vaultRoot b', VaultRootSigned P env (some w) vaultRoot b') ∧
          ∃ e, (unlockVault P D env).run s = (storedUnlock s unlock b, .error e)))) ∨
    ((∀ unlock b, ¬ UnlockAnswered P D env w unlock b) ∧
      ∃ e, (unlockVault P D env).run s = (s, .error e)) := by
  have hrounds : (unlockVault P D env).run s = ((unlockRound P D env w).bind fun _ =>
      (vaultRootRound P env).bind fun _ => Task.modify (markUnlocked P env)).run s := by
    simp [unlockVault, Task.run_bind, hw, hne, Option.filter_some]
  rw [hrounds]
  rcases run_unlockRound (P := P) (D := D) env w s with
    ⟨unlock, b, hanswered, hround⟩ | ⟨hnone, e, hround⟩
  · refine Or.inl ⟨unlock, b, hanswered, ?_⟩
    cases hexpired : assertUnlockNotExpired D unlock env.now with
    | error e =>
      rw [hexpired] at hround
      rw [Task.run_bind_error hround]
      exact Or.inr ⟨by simp, e, rfl⟩
    | ok u =>
      rw [hexpired] at hround
      rw [Task.run_bind_ok hround]
      rcases run_vaultRootRound (P := P) env (storedUnlock s unlock b) with
        ⟨vaultRoot, b', hroot, hround'⟩ | ⟨hnone, e, hround'⟩
      · rw [storedUnlock] at hround'
        rw [Task.run_bind_ok hround']
        exact Or.inl ⟨rfl, vaultRoot, b', hw ▸ hroot, rfl⟩
      · rw [storedUnlock] at hround'
        rw [Task.run_bind_error hround']
        refine Or.inr ⟨?_, e, rfl⟩
        rintro ⟨-, vaultRoot, b', hroot⟩
        exact hnone vaultRoot b' (hw.symm ▸ hroot)
  · rw [Task.run_bind_error hround]
    exact Or.inr ⟨hnone, e, rfl⟩

/-- A call unlocks the vault exactly when the wallet answers both messages. -/
theorem run_unlockVault (env : UnlockEnv) {s : SessionManager} {w : String}
    (hw : s.walletPubKey = some w) (hne : w ≠ "") :
    (∃ unlock b vaultRoot b', UnlockSigned P D env w unlock b ∧
      VaultRootSigned P env (some w) vaultRoot b' ∧
      (unlockVault P D env).run s = (unlocked P env s unlock b vaultRoot b', .ok ())) ∨
    ((∀ unlock b vaultRoot b', UnlockSigned P D env w unlock b →
        ¬ VaultRootSigned P env (some w) vaultRoot b') ∧ ∃ s' e,
      (unlockVault P D env).run s = (s', .error e) ∧ s'.vaultUnlocked = s.vaultUnlocked) := by
  rcases run_unlockVault_cases (P := P) (D := D) env hw hne with
    ⟨unlock, b, hanswered, hcase⟩ | ⟨hnone, e, hrun⟩
  · rcases hcase with ⟨hexpired, vaultRoot, b', hroot, hrun⟩ | ⟨hfails, e, hrun⟩
    · exact Or.inl ⟨unlock, b, vaultRoot, b',
        ⟨hanswered.built, hanswered.answered, hexpired⟩, hroot, hrun⟩
    · refine Or.inr ⟨fun unlock' c vaultRoot b' h hroot => ?_, _, e, hrun, rfl⟩
      obtain ⟨rfl, -⟩ := hanswered.unique ⟨h.built, h.answered⟩
      exact hfails ⟨h.unexpired, vaultRoot, b', hroot⟩
  · exact Or.inr ⟨fun unlock b _ _ h _ => hnone unlock b ⟨h.built, h.answered⟩, s, e, hrun, rfl⟩

/-! ### Valid signatures -/

section Valid

-- `valid w m b`: `b` is an ed25519 signature of `m` by the key `w`
variable (valid : String → Bytes → Bytes → Prop)

/-- The session holds valid signatures of `w` for both of its messages. -/
def HoldsValidSignatures (P : Platform) (w : String) (s : SessionManager) : Prop :=
  (∃ unlock b, s.lastUnlock = some unlock ∧ s.lastUnlockSignatureBytes = some b ∧
    valid w (P.utf8Encode unlock.messageToSign) b) ∧
  ∃ vaultRoot b, s.lastVaultRoot = some vaultRoot ∧ s.lastVaultRootSignatureBytes = some b ∧
    valid w (P.utf8Encode vaultRoot.messageToSign) b

/-- A call unlocks the vault with valid signatures of `w`, or throws and leaves it as locked as it
was. -/
def RequiresValidSignatures (P : Platform) (D : Dates) (env : UnlockEnv) (w : String)
    (s : SessionManager) : Prop :=
  match (unlockVault P D env).run s with
  | (s', .ok ()) => s'.vaultUnlocked = true ∧ HoldsValidSignatures valid P w s'
  | (s', .error _) => s'.vaultUnlocked = s.vaultUnlocked

/-- When the wallet answers both messages, it answers with valid signatures. -/
def AnswersValid (P : Platform) (D : Dates) (env : UnlockEnv) (w : String) : Prop :=
  ∀ unlock b vaultRoot b', UnlockSigned P D env w unlock b →
    VaultRootSigned P env (some w) vaultRoot b' →
      valid w (P.utf8Encode unlock.messageToSign) b ∧
        valid w (P.utf8Encode vaultRoot.messageToSign) b'

variable {valid}

/-- `unlockVault` keeps its contract exactly when the wallet does not answer both messages with one
invalid signature among them. -/
theorem unlockVault_requires_iff {s : SessionManager} {w : String} (hw : s.walletPubKey = some w)
    (hne : w ≠ "") :
    RequiresValidSignatures valid P D env w s ↔ AnswersValid valid P D env w := by
  unfold RequiresValidSignatures
  rcases run_unlockVault (P := P) (D := D) env hw hne with
    ⟨unlock, b, vaultRoot, b', hunlock, hroot, hrun⟩ | ⟨hnone, s', e, hrun, hs'⟩
  · rw [hrun]
    constructor
    · rintro ⟨-, ⟨unlock', c, hu, hc, hvalid⟩, vaultRoot', c', hr, hc', hvalid'⟩
      obtain rfl := Option.some.inj hu
      obtain rfl := Option.some.inj hc
      obtain rfl := Option.some.inj hr
      obtain rfl := Option.some.inj hc'
      -- the messages and the answers are determined by the call
      intro unlock' c vaultRoot' c' hunlock' hroot'
      obtain rfl := Except.ok.inj (hunlock.built.symm.trans hunlock'.built)
      obtain rfl := Except.ok.inj (hroot.built.symm.trans hroot'.built)
      have hb := hunlock.answered.symm.trans hunlock'.answered
      have hb' := hroot.answered.symm.trans hroot'.answered
      simp only [Except.ok.injEq, Option.some.injEq] at hb hb'
      subst hb hb'
      exact ⟨hvalid, hvalid'⟩
    · intro h
      obtain ⟨hvalid, hvalid'⟩ := h unlock b vaultRoot b' hunlock hroot
      exact ⟨rfl, ⟨unlock, b, rfl, rfl, hvalid⟩, vaultRoot, b', rfl, rfl, hvalid'⟩
  · rw [hrun]
    exact ⟨fun _ unlock b vaultRoot b' h h' => absurd h' (hnone unlock b vaultRoot b' h),
      fun _ => hs'⟩

end Valid

/-! ### Samples -/

/-- `Date` on the first ten minutes of 1970. -/
def sampleDates : Dates where
  toISOString t := .ok (if t = 600000 then "1970-01-01T00:10:00.000Z" else "1970-01-01T00:00:00.000Z")
  parse s :=
    if s = "1970-01-01T00:10:00.000Z" then some 600000
    else if s = "1970-01-01T00:00:00.000Z" then some 0
    else none

/-- An encoding of bytes that stands for base 58. -/
def sampleCodecs : TextCodecs where
  bs58Encode := Symbolic.toBase64
  bs58Decode s := some (s.toList.map Symbolic.charByte)
  atob := none
  buffer := none

/-- A call with a wallet adapter that signs by `sign`. -/
def sampleEnv (sign : Bytes → Bytes) : UnlockEnv where
  origin := "http://localhost"
  now := 0
  verifiedAt := 0
  nonce := ⟨List.replicate 16 0, rfl⟩
  salt := ⟨List.replicate 32 0, rfl⟩
  unlockBuilder := none
  vaultRootBuilder := none
  signers _ := {
    walletAdapterSigner := some fun m => .ok (some (sign m))
    signer := none
    solana := none }
  codecs := sampleCodecs
  storageWritable := true

def sampleSession : SessionManager where
  walletPubKey := some "Wa11et"
  walletProvider := some "phantom"
  vaultUnlocked := false
  verified := none
  lastUnlock := none
  lastUnlockSignatureBytes := none
  lastVaultRoot := none
  lastVaultRootSignatureBytes := none
  localStorage := fun _ => none

/-- A signature scheme with signatures of 64 bytes. -/
def sampleSign (m : Bytes) : Bytes := (m ++ List.replicate 64 0).take 64

theorem sampleEnv_answer (P : Platform) (sign : Bytes → Bytes) (r : Round) (m : String) :
    (sampleEnv sign).answer P r m = .ok (some (sign (P.utf8Encode m))) := rfl

theorem sampleEnv_unlockSigned (hP : P.Lawful) (sign : Bytes → Bytes) (w : String) :
    ∃ unlock, UnlockSigned P sampleDates (sampleEnv sign) w unlock
      (sign (P.utf8Encode unlock.messageToSign)) := by
  obtain ⟨unlock, hbuilt, hexpires⟩ := buildUnlockMessageV1_ok (D := sampleDates) hP
    "http://localhost" 0 ⟨List.replicate 16 0, rfl⟩ {
      origin := some "http://localhost"
      wallet := w
      vaultId := some "local-default"
      nonceBytes := none
      issuedAt := some "1970-01-01T00:00:00.000Z"
      expiresAt := some "1970-01-01T00:10:00.000Z" } rfl rfl rfl
  refine ⟨unlock, hbuilt, rfl, ?_⟩
  rw [assertUnlockNotExpired, hexpires]
  rfl

theorem sampleEnv_vaultRootSigned (hP : P.Lawful) (sign : Bytes → Bytes) (w : Option String) :
    ∃ vaultRoot, VaultRootSigned P (sampleEnv sign) w vaultRoot
      (sign (P.utf8Encode vaultRoot.messageToSign)) := by
  obtain ⟨vaultRoot, hbuilt⟩ := buildVaultRootMessageV1_ok hP
    { wallet := w, vaultId := some "local-default" }
  exact ⟨vaultRoot, hbuilt, rfl⟩

/-- An honest wallet. -/
theorem unlockVault_requires_iff_sample :
    RequiresValidSignatures (fun _ m b => b = sampleSign m) symbolic sampleDates
      (sampleEnv sampleSign) "Wa11et" sampleSession := by
  refine (unlockVault_requires_iff rfl (by decide)).mpr ?_
  intro unlock b vaultRoot b' hunlock hroot
  have hb := hunlock.answered.symm.trans (sampleEnv_answer ..)
  have hb' := hroot.answered.symm.trans (sampleEnv_answer ..)
  simp only [Except.ok.injEq, Option.some.injEq] at hb hb'
  exact ⟨hb, hb'⟩

/-- A signer that answers with no bytes at all unlocks the vault. -/
theorem empty_signature_unlocks :
    (∃ s', (unlockVault symbolic sampleDates (sampleEnv fun _ => [])).run sampleSession =
      (s', .ok ()) ∧ s'.vaultUnlocked = true) ∧
    ∀ valid : String → Bytes → Bytes → Prop, (∀ w m b, valid w m b → b.length = 64) →
      ¬ RequiresValidSignatures valid symbolic sampleDates (sampleEnv fun _ => []) "Wa11et"
        sampleSession := by
  obtain ⟨unlock, hunlock⟩ := sampleEnv_unlockSigned symbolic_lawful (fun _ => []) "Wa11et"
  obtain ⟨vaultRoot, hroot⟩ :=
    sampleEnv_vaultRootSigned symbolic_lawful (fun _ => []) (some "Wa11et")
  rcases run_unlockVault (P := symbolic) (D := sampleDates) (sampleEnv fun _ => [])
    (s := sampleSession) (w := "Wa11et") rfl (by decide) with
    ⟨unlock', b, vaultRoot', b', hunlock', -, hrun⟩ | ⟨hnone, -⟩
  · refine ⟨⟨_, hrun, rfl⟩, fun valid hlength h => ?_⟩
    rw [RequiresValidSignatures, hrun] at h
    obtain ⟨-, ⟨unlock'', c, -, hc, hvalid⟩, -⟩ := h
    obtain rfl := Option.some.inj hc
    have hb := hunlock'.answered.symm.trans (sampleEnv_answer ..)
    simp only [Except.ok.injEq, Option.some.injEq] at hb
    have := hlength _ _ _ hvalid
    simp [hb] at this
  · exact absurd hroot (hnone _ _ _ _ hunlock)

end SovereignJedi.Session
