import SovereignJedi.Async.Timed
import SovereignJedi.Session.Unlock

/-! Whether an unlock message is still valid when the wallet returns the signature of it.
`unlockVault` reads the clock when it is called, and compares `expiresAt` with that time after the
wallet has answered. -/

namespace SovereignJedi.Session

open SovereignJedi.Js SovereignJedi.Crypto SovereignJedi.Async

variable {P : Platform} {D : Dates} {env : UnlockEnv} {delay : UnlockPoint → Nat}
  {amid : UnlockPoint → SessionManager → SessionManager}

/-! ### Rounds in time -/

/-- What a wallet's answer comes to. -/
def signatureOf (missing : String) : Result (Option Bytes) → Result Bytes
  | .ok (some b) => .ok b
  | .ok none => .error (.error missing)
  | .error e => .error e

theorem signatureOf_eq_ok {missing : String} {answer : Result (Option Bytes)} {b : Bytes}
    (h : signatureOf missing answer = .ok b) : answer = .ok (some b) := by
  rcases answer with e | (_ | b') <;> simp_all [signatureOf]

theorem runTimed_sign (r : Round) (messageToSign missing : String) (now : Int)
    (s : SessionManager) :
    (env.sign P r messageToSign missing).runTimed delay amid now s =
      { resumed := [(.debugLog r, now + delay (.debugLog r)),
          (.signature r, now + delay (.debugLog r) + delay (.signature r))]
        clock := now + delay (.debugLog r) + delay (.signature r)
        state := amid (.signature r) (amid (.debugLog r) s)
        result := signatureOf missing (env.answer P r messageToSign) } := by
  simp only [UnlockEnv.sign, Task.bind_def, Task.runTimed_bind, Task.runTimed_op]
  rcases env.answer P r messageToSign with e | (_ | b) <;> rfl

/-- The time at which the signature of the unlock message is there. -/
def signedAt (env : UnlockEnv) (delay : UnlockPoint → Nat) : Int :=
  env.now + delay (.build .unlock) + delay (.debugLog .unlock) + delay (.signature .unlock)

/-- The session when the vault root message is built. -/
def atVaultRoot (amid : UnlockPoint → SessionManager → SessionManager) (s : SessionManager)
    (unlock : BuildUnlockResult) (b : Bytes) : SessionManager :=
  amid .deriveKek { amid (.signature .unlock) (amid (.debugLog .unlock)
      (amid (.build .unlock) s)) with
    lastUnlock := some unlock
    lastUnlockSignatureBytes := some b }

/-- Either the unlock round succeeds with what the wallet has signed at `signedAt`, or it throws. -/
theorem runTimed_unlockRound (P : Platform) (D : Dates) (env : UnlockEnv)
    (delay : UnlockPoint → Nat) (amid : UnlockPoint → SessionManager → SessionManager)
    (w : String) (s : SessionManager) :
    (∃ unlock b, UnlockSigned P D env w unlock b ∧
      (unlockRound P D env w).runTimed delay amid env.now s =
        { resumed := [(.build .unlock, env.now + delay (.build .unlock)),
            (.debugLog .unlock, env.now + delay (.build .unlock) + delay (.debugLog .unlock)),
            (.signature .unlock, signedAt env delay),
            (.deriveKek, signedAt env delay + delay .deriveKek)]
          clock := signedAt env delay + delay .deriveKek
          state := atVaultRoot amid s unlock b
          result := .ok () }) ∨
    ((∀ unlock b, ¬ UnlockSigned P D env w unlock b) ∧
      ∃ e, ((unlockRound P D env w).runTimed delay amid env.now s).result = .error e) := by
  cases hbuilt : env.buildUnlock P D w with
  | error e =>
    refine Or.inr ⟨fun unlock b h => ?_, e, ?_⟩
    · simpa [hbuilt] using h.built
    · simp [unlockRound, Task.runTimed_bind, hbuilt]
  | ok unlock =>
    have hunique : ∀ {unlock' b}, UnlockSigned P D env w unlock' b → unlock' = unlock :=
      fun h => Except.ok.inj (h.built.symm.trans hbuilt)
    cases hanswer : signatureOf "No signature available from wallet/provider"
      (env.answer P .unlock unlock.messageToSign) with
    | error e =>
      refine Or.inr ⟨fun unlock' b h => ?_, e, ?_⟩
      · rw [hunique h |>.symm, h.answered] at hanswer
        cases hanswer
      · simp [unlockRound, Task.runTimed_bind, hbuilt, runTimed_sign, hanswer]
    | ok b =>
      have hsigned := signatureOf_eq_ok hanswer
      cases hexpired : assertUnlockNotExpired D unlock env.now with
      | error e =>
        refine Or.inr ⟨fun unlock' b' h => ?_, e, ?_⟩
        · simpa [hunique h, hexpired] using h.unexpired
        · simp [unlockRound, Task.runTimed_bind, hbuilt, runTimed_sign, hanswer,
            deriveKekFromUnlockSignature, hexpired]
      | ok u =>
        obtain ⟨kek, hkek⟩ := exists_deriveKekFromSignature P b (some env.salt.1)
        refine Or.inl ⟨unlock, b, ⟨hbuilt, hsigned, hexpired⟩, ?_⟩
        simp [unlockRound, Task.runTimed_bind, hbuilt, runTimed_sign, hanswer,
          deriveKekFromUnlockSignature, hexpired, hkek, signedAt, atVaultRoot]

/-- The vault root round succeeds exactly when the wallet answers it. -/
theorem runTimed_vaultRootRound (P : Platform) (env : UnlockEnv) (delay : UnlockPoint → Nat)
    (amid : UnlockPoint → SessionManager → SessionManager) (now : Int) (s : SessionManager) :
    ((vaultRootRound P env).runTimed delay amid now s).result = .ok () ↔
      ∃ root b, VaultRootSigned P env s.walletPubKey root b := by
  cases hbuilt : env.buildVaultRoot P s.walletPubKey with
  | error e =>
    refine iff_of_false ?_ fun ⟨root, b, h⟩ => ?_
    · simp [vaultRootRound, Task.runTimed_bind, hbuilt]
    · simpa [hbuilt] using h.built
  | ok root =>
    cases hanswer : signatureOf "No vault-root signature available from wallet/provider"
      (env.answer P .vaultRoot root.messageToSign) with
    | error e =>
      refine iff_of_false ?_ fun ⟨root', b, h⟩ => ?_
      · simp [vaultRootRound, Task.runTimed_bind, hbuilt, runTimed_sign, hanswer]
      · obtain rfl := Except.ok.inj (h.built.symm.trans hbuilt)
        rw [h.answered] at hanswer
        cases hanswer
    | ok b =>
      refine iff_of_true ?_ ⟨root, b, hbuilt, signatureOf_eq_ok hanswer⟩
      simp [vaultRootRound, Task.runTimed_bind, hbuilt, runTimed_sign, hanswer]

theorem signature_vaultRootRound (P : Platform) (env : UnlockEnv) (delay : UnlockPoint → Nat)
    (amid : UnlockPoint → SessionManager → SessionManager) (now : Int) (s : SessionManager) (t : Int) :
    (.signature .unlock, t) ∉ ((vaultRootRound P env).runTimed delay amid now s).resumed := by
  simp only [vaultRootRound, Task.bind_def, Task.runTimed_bind, Task.runTimed_get, Task.runTimed_op]
  cases env.buildVaultRoot P s.walletPubKey with
  | error e => simp
  | ok root =>
    simp only [runTimed_sign]
    cases signatureOf "No vault-root signature available from wallet/provider"
      (env.answer P .vaultRoot root.messageToSign) <;> simp

/-! ### The whole call -/

/-- When the call completes with the vault unlocked, the message was valid as the wallet returned
the signature of it. -/
def ExpiryEnforced (P : Platform) (D : Dates) (env : UnlockEnv) (delay : UnlockPoint → Nat)
    (amid : UnlockPoint → SessionManager → SessionManager) (s : SessionManager) : Prop :=
  let call := (unlockVault P D env).runTimed delay amid env.now s
  call.result = .ok () → call.state.vaultUnlocked = true →
    ∀ t, (.signature .unlock, t) ∈ call.resumed → ∀ w unlock, s.walletPubKey = some w →
      env.buildUnlock P D w = .ok unlock →
        ∃ ts, D.parse unlock.canonicalObject.expiresAt = some ts ∧ t < ts

/-- When the wallet answers both messages, it returns the signature of the first before that message
expires. -/
def SignedInTime (P : Platform) (D : Dates) (env : UnlockEnv) (delay : UnlockPoint → Nat)
    (amid : UnlockPoint → SessionManager → SessionManager) (s : SessionManager) : Prop :=
  ∀ w unlock b root b', s.walletPubKey = some w → w ≠ "" → UnlockSigned P D env w unlock b →
    VaultRootSigned P env (atVaultRoot amid s unlock b).walletPubKey root b' →
      ∀ ts, D.parse unlock.canonicalObject.expiresAt = some ts → signedAt env delay < ts

/-- A call that completes has both signatures, the first since `signedAt`. -/
theorem runTimed_unlockVault (P : Platform) (D : Dates) (env : UnlockEnv)
    (delay : UnlockPoint → Nat) (amid : UnlockPoint → SessionManager → SessionManager)
    {s : SessionManager} {w : String} (hw : s.walletPubKey = some w)
    (hne : w ≠ "") :
    (∃ unlock b root b', UnlockSigned P D env w unlock b ∧
      VaultRootSigned P env (atVaultRoot amid s unlock b).walletPubKey root b' ∧
      ((unlockVault P D env).runTimed delay amid env.now s).result = .ok () ∧
      ((unlockVault P D env).runTimed delay amid env.now s).state.vaultUnlocked = true ∧
      ∀ t, (.signature .unlock, t) ∈ ((unlockVault P D env).runTimed delay amid env.now s).resumed ↔
        t = signedAt env delay) ∨
    ((∀ unlock b root b', UnlockSigned P D env w unlock b →
        ¬ VaultRootSigned P env (atVaultRoot amid s unlock b).walletPubKey root b') ∧
      ((unlockVault P D env).runTimed delay amid env.now s).result ≠ .ok ()) := by
  have hcall : (unlockVault P D env).runTimed delay amid env.now s =
      ((unlockRound P D env w).bind fun _ => (vaultRootRound P env).bind fun _ =>
        Task.modify (markUnlocked P env)).runTimed delay amid env.now s := by
    simp [unlockVault, Task.runTimed_bind, hw, hne, Option.filter_some]
  rw [hcall]
  rcases runTimed_unlockRound P D env delay amid w s with
    ⟨unlock, b, hunlock, hround⟩ | ⟨hnone, e, hround⟩
  · rw [Task.runTimed_bind_ok hround, Task.runTimed_bind]
    have hroot := runTimed_vaultRootRound P env delay amid
      (signedAt env delay + delay .deriveKek) (atVaultRoot amid s unlock b)
    have hlater := signature_vaultRootRound P env delay amid
      (signedAt env delay + delay .deriveKek) (atVaultRoot amid s unlock b)
    generalize (vaultRootRound P env).runTimed delay amid (signedAt env delay + delay .deriveKek)
      (atVaultRoot amid s unlock b) = round at hroot hlater ⊢
    obtain ⟨resumed, clock, s', result⟩ := round
    cases result with
    | error e =>
      refine Or.inr ⟨fun unlock' b₁ root b' hunlock' hroot' => ?_, by simp⟩
      obtain rfl := Except.ok.inj (hunlock.built.symm.trans hunlock'.built)
      have hb := hunlock.answered.symm.trans hunlock'.answered
      simp only [Except.ok.injEq, Option.some.injEq] at hb
      subst hb
      simpa using hroot.mpr ⟨root, b', hroot'⟩
    | ok u =>
      obtain ⟨root, b', hroot⟩ := hroot.mp rfl
      refine Or.inl ⟨unlock, b, root, b', hunlock, hroot, rfl, rfl, fun t => ?_⟩
      have hlater : (UnlockPoint.signature .unlock, t) ∉ resumed := hlater t
      simp [hlater]
  · refine Or.inr ⟨fun unlock b _ _ h => absurd h (hnone unlock b), ?_⟩
    rw [Task.runTimed_bind_error hround]
    simp

theorem runTimed_disconnected {s : SessionManager} (hw : ∀ w, s.walletPubKey = some w → w = "") :
    ((unlockVault P D env).runTimed delay amid env.now s).result ≠ .ok () := by
  have hnone : s.walletPubKey.filter (fun w => w != "") = none := by
    rw [Option.filter_eq_none_iff]
    intro w hw'
    simp [hw w hw']
  simp [unlockVault, Task.runTimed_bind, hnone]

theorem ExpiryEnforced.signedInTime {s : SessionManager}
    (h : ExpiryEnforced P D env delay amid s) : SignedInTime P D env delay amid s := by
  intro w unlock b root b' hw hne hunlock hroot ts hparse
  rcases runTimed_unlockVault P D env delay amid hw hne with
    ⟨_, _, _, _, -, -, hok, hunlocked, htime⟩ | ⟨hnone, -⟩
  · obtain ⟨ts', hparse', hlt⟩ := h hok hunlocked _ ((htime _).mpr rfl) w unlock hw hunlock.built
    obtain rfl := Option.some.inj (hparse.symm.trans hparse')
    exact hlt
  · exact absurd hroot (hnone unlock b root b' hunlock)

theorem SignedInTime.expiryEnforced {s : SessionManager}
    (h : SignedInTime P D env delay amid s) : ExpiryEnforced P D env delay amid s := by
  intro hok _ t ht w unlock hw hbuilt
  by_cases hne : w = ""
  · refine absurd hok (runTimed_disconnected fun w' hw' => ?_)
    rw [← hne, Option.some.inj (hw.symm.trans hw')]
  · rcases runTimed_unlockVault P D env delay amid hw hne with
      ⟨unlock', b, root, b', hunlock, hroot, -, -, htime⟩ | ⟨-, hfail⟩
    · obtain rfl := Except.ok.inj (hunlock.built.symm.trans hbuilt)
      obtain ⟨-, ts, hparse, -⟩ := assertUnlockNotExpired_eq_ok.mp hunlock.unexpired
      exact ⟨ts, hparse, (htime t).mp ht ▸ h w unlock' b root b' hw hne hunlock hroot ts hparse⟩
    · exact absurd hok hfail

/-- The expiry is enforced exactly when the wallet does not let the message expire. -/
theorem expiryEnforced_iff (P : Platform) (D : Dates) (env : UnlockEnv) (delay : UnlockPoint → Nat)
    (amid : UnlockPoint → SessionManager → SessionManager) (s : SessionManager) :
    ExpiryEnforced P D env delay amid s ↔ SignedInTime P D env delay amid s :=
  ⟨ExpiryEnforced.signedInTime, SignedInTime.expiryEnforced⟩

/-- The message of the session itself expires ten minutes after the call. -/
theorem buildUnlock_expiresAt {w : String} {unlock : BuildUnlockResult}
    (hbuilder : env.unlockBuilder = none) (h : env.buildUnlock P D w = .ok unlock) :
    D.toISOString (env.now + 10 * 60 * 1000) = .ok unlock.canonicalObject.expiresAt := by
  simp only [UnlockEnv.buildUnlock, hbuilder, Option.getD_none, bind_eq_ok] at h
  obtain ⟨issuedAt, -, expiresAt, hexpires, h⟩ := h
  rw [hexpires, buildUnlockMessageV1_expiresAt h rfl]

/-- The owner of the wallet answers after ten minutes: the vault is unlocked by a message that has
expired. -/
theorem expired_signature_unlocks :
    ¬ ExpiryEnforced symbolic sampleDates (sampleEnv sampleSign)
      (fun p => if p = .signature .unlock then 600000 else 0) (fun _ s => s) sampleSession := by
  intro h
  obtain ⟨unlock, hunlock⟩ := sampleEnv_unlockSigned symbolic_lawful sampleSign "Wa11et"
  obtain ⟨root, hroot⟩ := sampleEnv_vaultRootSigned symbolic_lawful sampleSign (some "Wa11et")
  have hexpires := Except.ok.inj (buildUnlock_expiresAt rfl hunlock.built)
  have hparse : sampleDates.parse unlock.canonicalObject.expiresAt = some 600000 := by
    rw [← hexpires]
    rfl
  exact absurd (h.signedInTime "Wa11et" _ _ _ _ rfl (by decide) hunlock hroot 600000 hparse)
    (by decide)

end SovereignJedi.Session
