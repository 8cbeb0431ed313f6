import SovereignJedi.Session.Tabs

/-! What a failed `unlockVault` leaves. The answer to the unlock message is stored before the expiry
of this message is checked and before the vault root message is signed, so a call that fails there
leaves the material of an unlock that did not happen. -/

namespace SovereignJedi.Session

open SovereignJedi.Js SovereignJedi.Crypto SovereignJedi.Async

variable {P : Platform} {D : Dates} {env : UnlockEnv}

/-- The getters and the storage say the same of both sessions. -/
structure Unchanged (P : Platform) (s s' : SessionManager) : Prop where
  vaultUnlocked : s'.vaultUnlocked = s.vaultUnlocked
  lastUnlock : s'.lastUnlock = s.lastUnlock
  lastUnlockSignatureBytes : s'.lastUnlockSignatureBytes = s.lastUnlockSignatureBytes
  lastVaultRoot : s'.lastVaultRoot = s.lastVaultRoot
  lastVaultRootSignatureBytes : s'.lastVaultRootSignatureBytes = s.lastVaultRootSignatureBytes
  verified : ∀ now, (getVerified P now s').2 = (getVerified P now s).2
  localStorage : s'.localStorage = s.localStorage

/-- A call that throws changes nothing. -/
def FailsCleanly (P : Platform) (D : Dates) (env : UnlockEnv) (s : SessionManager) : Prop :=
  ∀ s' e, (unlockVault P D env).run s = (s', .error e) → Unchanged P s s'

theorem unchanged_refl (s : SessionManager) : Unchanged P s s :=
  ⟨rfl, rfl, rfl, rfl, rfl, fun _ => rfl, rfl⟩

theorem unchanged_storedUnlock {s : SessionManager} {unlock : BuildUnlockResult} {b : Bytes} :
    Unchanged P s (storedUnlock s unlock b) ↔
      s.lastUnlock = some unlock ∧ s.lastUnlockSignatureBytes = some b := by
  constructor
  · intro h
    exact ⟨h.lastUnlock.symm, h.lastUnlockSignatureBytes.symm⟩
  · rintro ⟨hunlock, hb⟩
    exact ⟨rfl, hunlock.symm, hb.symm, rfl, rfl, fun _ => rfl, rfl⟩

/-- A failed call changes nothing exactly when no unlock message is answered that has expired or
that no answer to the vault root message follows, unless the session has this very answer. -/
theorem failsCleanly_iff {s : SessionManager} {w : String} (hw : s.walletPubKey = some w)
    (hne : w ≠ "") :
    FailsCleanly P D env s ↔ ∀ unlock b, UnlockAnswered P D env w unlock b →
      (assertUnlockNotExpired D unlock env.now = .ok () ∧
        ∃ vaultRoot b', VaultRootSigned P env (some w) vaultRoot b') ∨
      (s.lastUnlock = some unlock ∧ s.lastUnlockSignatureBytes = some b) := by
  rcases run_unlockVault_cases (P := P) (D := D) env hw hne with
    ⟨unlock, b, hanswered, hcase⟩ | ⟨hnone, e, hrun⟩
  · rcases hcase with ⟨hexpired, vaultRoot, b', hroot, hrun⟩ | ⟨hfails, e, hrun⟩
    · constructor
      · intro _ unlock' c h
        obtain ⟨rfl, rfl⟩ := hanswered.unique h
        exact Or.inl ⟨hexpired, vaultRoot, b', hroot⟩
      · intro _ s' e h
        rw [hrun] at h
        cases h
    · constructor
      · intro hclean unlock' c h
        obtain ⟨rfl, rfl⟩ := hanswered.unique h
        exact Or.inr (unchanged_storedUnlock.mp (hclean _ e hrun))
      · intro h s' e' hrun'
        rw [hrun] at hrun'
        obtain ⟨rfl, -⟩ := Prod.mk.inj hrun'
        exact unchanged_storedUnlock.mpr ((h unlock b hanswered).resolve_left hfails)
  · constructor
    · intro _ unlock b h
      exact absurd h (hnone unlock b)
    · intro _ s' e' hrun'
      rw [hrun] at hrun'
      obtain ⟨rfl, -⟩ := Prod.mk.inj hrun'
      exact unchanged_refl s

/-- A wallet that answers no message. -/
def silentEnv : UnlockEnv :=
  { sampleEnv sampleSign with
    signers := fun _ => {
      walletAdapterSigner := some fun _ => .ok none
      signer := none
      solana := none } }

/-- A wallet that answers the unlock message only. -/
def halfEnv : UnlockEnv :=
  { sampleEnv sampleSign with
    signers := fun r => {
      walletAdapterSigner := some fun m =>
        match r with
        | .unlock => .ok (some (sampleSign m))
        | .vaultRoot => .ok none
      signer := none
      solana := none } }

theorem failsCleanly_iff_silent : FailsCleanly symbolic sampleDates silentEnv sampleSession := by
  refine (failsCleanly_iff (w := "Wa11et") rfl (by decide)).mpr ?_
  intro unlock b h
  have hanswered : Except.ok none = Except.ok (some b) := h.answered
  cases hanswered

/-- The wallet signs the unlock message and not the vault root message, in a session that has never
been unlocked: its signature stays. -/
theorem failed_unlock_leaves_signature :
    sampleSession.lastUnlockSignatureBytes = none ∧
    (∃ s' e b, (unlockVault symbolic sampleDates halfEnv).run sampleSession = (s', .error e) ∧
      s'.vaultUnlocked = false ∧ s'.lastUnlockSignatureBytes = some b) ∧
    ¬ FailsCleanly symbolic sampleDates halfEnv sampleSession := by
  obtain ⟨unlock, hsigned⟩ := sampleEnv_unlockSigned symbolic_lawful sampleSign "Wa11et"
  have hanswered : UnlockAnswered symbolic sampleDates halfEnv "Wa11et" unlock
      (sampleSign (symbolic.utf8Encode unlock.messageToSign)) := ⟨hsigned.built, rfl⟩
  rcases run_unlockVault_cases (P := symbolic) (D := sampleDates) halfEnv (s := sampleSession)
    (w := "Wa11et") rfl (by decide) with ⟨unlock', b, -, hcase⟩ | ⟨hnone, -⟩
  · rcases hcase with ⟨-, vaultRoot, b', hroot, -⟩ | ⟨-, e, hrun⟩
    · have hnone : Except.ok none = Except.ok (some b') := hroot.answered
      cases hnone
    · refine ⟨rfl, ⟨_, e, b, hrun, rfl, rfl⟩, fun hclean => ?_⟩
      have hb := (hclean _ e hrun).lastUnlockSignatureBytes
      cases hb
  · exact absurd hanswered (hnone _ _)

end SovereignJedi.Session
