import SovereignJedi.Session.Calls

/-! The materials of an unlocked session and the connected wallet. `unlockVault` reads
`walletPubKey` again after its suspensions and stores what it is given, whatever has happened to the
session in between: the materials belong to the connected wallet as long as nothing has. -/

namespace SovereignJedi.Session

open SovereignJedi.Js SovereignJedi.Crypto SovereignJedi.Async Relation

section Statements

variable (P : Platform) (D : Dates)

/-- Some call of `unlockVault` asked for a signature of `m` and was given `b`. -/
def Produced (calls : List SessionCall) (r : Round) (m : String) (b : Bytes) : Prop :=
  ∃ wallet env, SessionCall.unlockVault wallet env ∈ calls ∧ env.answer P r m = .ok (some b)

/-- The session and its materials belong to `w`. -/
structure BoundTo (calls : List SessionCall) (w : String) (s : SessionManager) : Prop where
  connected : s.walletPubKey = some w
  unlock : ∃ unlock b, s.lastUnlock = some unlock ∧ unlock.canonicalObject.wallet = w ∧
    s.lastUnlockSignatureBytes = some b ∧ Produced P calls .unlock unlock.messageToSign b
  vaultRoot : ∃ vaultRoot b, s.lastVaultRoot = some vaultRoot ∧
    vaultRoot.canonicalObject.wallet = some w ∧ s.lastVaultRootSignatureBytes = some b ∧
    Produced P calls .vaultRoot vaultRoot.messageToSign b
  verified : ∃ v, s.verified = some v ∧ v.walletPubKey = some (.str w) ∧
    s.localStorage verifiedStorageKey = some (P.jsonStringify v.toJson)

/-- An unlocked session belongs to the connected wallet. -/
def MaterialBound (calls : List SessionCall) (s : SessionManager) : Prop :=
  s.vaultUnlocked = true → ∃ w, BoundTo P calls w s

/-- The builders put the wallet that they are given into their messages, and the storage takes the
verified record. -/
structure Plain (env : UnlockEnv) : Prop where
  unlock : ∀ {w : String} {unlock : BuildUnlockResult}, env.buildUnlock P D w = .ok unlock →
    unlock.canonicalObject.wallet = w
  vaultRoot : ∀ {w : Option String} {vaultRoot : BuildVaultRootResult},
    env.buildVaultRoot P w = .ok vaultRoot → vaultRoot.canonicalObject.wallet = w
  storageWritable : env.storageWritable = true

def SessionCall.Plain : SessionCall → Prop
  | .unlockVault _ env => Session.Plain P D env
  | _ => True

/-- Where a call writes the session, or reads it again, its wallet is still connected; and the
unlock material is still there when the vault root is stored. -/
def SessionCall.Undisturbed : SessionCall → UnlockPoint → SessionManager → Prop
  | .unlockVault (some w) env, .signature .unlock, s =>
    (∃ unlock b, env.buildUnlock P D w = .ok unlock ∧
      env.answer P .unlock unlock.messageToSign = .ok (some b)) → s.walletPubKey = some w
  | .unlockVault (some w) env, .deriveKek, s =>
    (∃ unlock b, UnlockSigned P D env w unlock b) → s.walletPubKey = some w
  | .unlockVault (some w) env, .signature .vaultRoot, s =>
    (∃ vaultRoot b, VaultRootSigned P env (some w) vaultRoot b) →
      s.walletPubKey = some w ∧ s.lastUnlock ≠ none
  | _, _, _ => True

end Statements

variable {P : Platform} {D : Dates}

theorem Produced.mono {calls calls' : List SessionCall} {r : Round} {m : String} {b : Bytes}
    (h : Produced P calls r m b) (hsub : calls ⊆ calls') : Produced P calls' r m b := by
  obtain ⟨wallet, env, hmem, hanswer⟩ := h
  exact ⟨wallet, env, hsub hmem, hanswer⟩

/-- The builders of `@sj/crypto` do. -/
theorem plain_of_default {env : UnlockEnv} (hunlock : env.unlockBuilder = none)
    (hroot : env.vaultRootBuilder = none) (hwritable : env.storageWritable = true) :
    Plain P D env where
  unlock {w unlock} h := by
    simp only [UnlockEnv.buildUnlock, hunlock, Option.getD_none, bind_eq_ok] at h
    obtain ⟨issuedAt, -, expiresAt, -, h⟩ := h
    simp only [buildUnlockMessageV1, bind_eq_ok] at h
    obtain ⟨_, -, _, -, _, -, jcs, -, h⟩ := h
    obtain rfl := Except.ok.inj h
    rfl
  vaultRoot {w vaultRoot} h := by
    simp only [UnlockEnv.buildVaultRoot, hroot, Option.getD_none, buildVaultRootMessageV1,
      bind_eq_ok] at h
    obtain ⟨jcs, -, h⟩ := h
    obtain rfl := Except.ok.inj h
    rfl
  storageWritable := hwritable

/-! ### The invariant -/

/-- The materials belong to the connected wallet, also while the session is locked. -/
structure Owned (P : Platform) (calls : List SessionCall) (s : SessionManager) : Prop where
  unlock : ∀ unlock, s.lastUnlock = some unlock → unlock.canonicalObject.wallet ≠ "" ∧
    s.walletPubKey = some unlock.canonicalObject.wallet ∧
    ∃ b, s.lastUnlockSignatureBytes = some b ∧ Produced P calls .unlock unlock.messageToSign b
  vaultRoot : ∀ vaultRoot, s.lastVaultRoot = some vaultRoot →
    (∃ w, w ≠ "" ∧ s.walletPubKey = some w) ∧
    s.walletPubKey = vaultRoot.canonicalObject.wallet ∧
    ∃ b, s.lastVaultRootSignatureBytes = some b ∧
      Produced P calls .vaultRoot vaultRoot.messageToSign b
  unlocked : s.vaultUnlocked = true → s.lastUnlock ≠ none ∧ s.lastVaultRoot ≠ none ∧
    ∃ v, s.verified = some v ∧ v.walletPubKey = some (nullable s.walletPubKey) ∧
      s.localStorage verifiedStorageKey = some (P.jsonStringify v.toJson)

theorem Owned.materialBound {calls : List SessionCall} {s : SessionManager} (h : Owned P calls s) :
    MaterialBound P calls s := by
  intro hunlocked
  obtain ⟨hunlock, hroot, v, hv, hwallet, hstored⟩ := h.unlocked hunlocked
  obtain ⟨unlock, hunlock⟩ := Option.ne_none_iff_exists'.mp hunlock
  obtain ⟨vaultRoot, hroot⟩ := Option.ne_none_iff_exists'.mp hroot
  obtain ⟨-, hconnected, b, hb, hproduced⟩ := h.unlock unlock hunlock
  obtain ⟨-, hconnected', b', hb', hproduced'⟩ := h.vaultRoot vaultRoot hroot
  refine ⟨unlock.canonicalObject.wallet, hconnected, ?_, ?_, ?_⟩
  · exact ⟨unlock, b, hunlock, rfl, hb, hproduced⟩
  · exact ⟨vaultRoot, b', hroot, hconnected' ▸ hconnected, hb', hproduced'⟩
  · exact ⟨v, hv, by rw [hwallet, hconnected]; rfl, hstored⟩

theorem Owned.mono {calls calls' : List SessionCall} {s : SessionManager} (h : Owned P calls s)
    (hsub : calls ⊆ calls') : Owned P calls' s where
  unlock unlock hu := by
    obtain ⟨hne, hwallet, b, hb, hproduced⟩ := h.unlock unlock hu
    exact ⟨hne, hwallet, b, hb, hproduced.mono hsub⟩
  vaultRoot vaultRoot hr := by
    obtain ⟨hw, hwallet, b, hb, hproduced⟩ := h.vaultRoot vaultRoot hr
    exact ⟨hw, hwallet, b, hb, hproduced.mono hsub⟩
  unlocked := h.unlocked

/-- A locked session without materials. -/
theorem owned_of_cleared {calls : List SessionCall} {s : SessionManager}
    (hunlock : s.lastUnlock = none) (hroot : s.lastVaultRoot = none)
    (hlocked : s.vaultUnlocked = false) : Owned P calls s where
  unlock _ h := by simp [hunlock] at h
  vaultRoot _ h := by simp [hroot] at h
  unlocked h := by simp [hlocked] at h

/-! ### Operations -/

theorem reconcileVerified_eq (P : Platform) (now : Int) (w : Option String) (s : SessionManager) :
    ∃ v storage, reconcileVerified P now w s = { s with verified := v, localStorage := storage } := by
  unfold reconcileVerified
  split <;> dsimp only <;> split <;> exact ⟨_, _, rfl⟩

/-- A connection locks the vault, and it keeps the materials unless the wallet has changed. -/
theorem connectWallet_eq (P : Platform) (now : Int) (pubKey : PubKeyArg) (provider : Option String)
    (s : SessionManager) : ∃ v storage,
    let connected : SessionManager := { s with
      walletPubKey := pubKey.normalized
      walletProvider := provider.filter fun p => p != ""
      vaultUnlocked := false
      verified := v
      localStorage := storage }
    connectWallet P now pubKey provider s =
      if hotSwitch s.walletPubKey pubKey.normalized then clearMaterial connected else connected := by
  obtain ⟨v, storage, h⟩ := reconcileVerified_eq P now pubKey.normalized { s with
    walletPubKey := pubKey.normalized
    walletProvider := provider.filter fun p => p != ""
    vaultUnlocked := false }
  exact ⟨v, storage, by rw [connectWallet, h]⟩

theorem connectWallet_walletPubKey (P : Platform) (now : Int) (pubKey : PubKeyArg)
    (provider : Option String) (s : SessionManager) :
    (connectWallet P now pubKey provider s).walletPubKey = pubKey.normalized := by
  obtain ⟨v, storage, h⟩ := connectWallet_eq P now pubKey provider s
  rw [h]
  split <;> rfl

theorem hotSwitch_eq_false {prevPubKey pubKey : Option String}
    (h : hotSwitch prevPubKey pubKey = false) {w : String} (hprev : prevPubKey = some w)
    (hne : w ≠ "") : pubKey = some w := by
  subst hprev
  simp only [hotSwitch, Option.any_some, bne_iff_ne, ne_eq, hne, not_false_eq_true, Bool.and_eq_false_imp,
    bne_eq_false_iff_eq, forall_const] at h
  exact h.symm

theorem Owned.connectWallet {calls : List SessionCall} {s : SessionManager} (h : Owned P calls s)
    (now : Int) (pubKey : PubKeyArg) (provider : Option String) :
    Owned P calls (connectWallet P now pubKey provider s) := by
  obtain ⟨v, storage, hconnect⟩ := connectWallet_eq P now pubKey provider s
  rw [hconnect]
  split
  · apply owned_of_cleared <;> rfl
  · rename_i hsame
    rw [Bool.not_eq_true] at hsame
    constructor
    · intro unlock hu
      obtain ⟨hne, hwallet, hb⟩ := h.unlock unlock hu
      exact ⟨hne, hotSwitch_eq_false hsame hwallet hne, hb⟩
    · intro vaultRoot hr
      obtain ⟨⟨w, hne, hw⟩, hwallet, hb⟩ := h.vaultRoot vaultRoot hr
      have hconnected := hotSwitch_eq_false hsame hw hne
      exact ⟨⟨w, hne, hconnected⟩, hconnected.trans (hw.symm.trans hwallet), hb⟩
    · intro hunlocked
      cases hunlocked

theorem Owned.update {calls : List SessionCall} {s : SessionManager} (h : Owned P calls s)
    (c : SessionCall) : Owned P calls (c.update P s) := by
  cases c with
  | connectWallet pubKey provider now => exact h.connectWallet now pubKey provider
  | lockVault => apply owned_of_cleared <;> rfl
  | disconnectWallet => apply owned_of_cleared <;> rfl
  | unlockVault wallet env => exact h

/-! ### Turns -/

/-- A stage of a plain call for `w`, with the messages that it builds for `w`. -/
def Stage.BuiltFor (P : Platform) (D : Dates) (w : String) (env : UnlockEnv) : Stage → Prop
  | .build => True
  | .debugLog unlock => env.buildUnlock P D w = .ok unlock
  | .signature unlock => env.buildUnlock P D w = .ok unlock
  | .deriveKek unlock b => env.buildUnlock P D w = .ok unlock ∧
    env.answer P .unlock unlock.messageToSign = .ok (some b)
  | .buildRoot wallet => wallet = some w
  | .debugLogRoot vaultRoot => env.buildVaultRoot P (some w) = .ok vaultRoot
  | .signatureRoot vaultRoot => env.buildVaultRoot P (some w) = .ok vaultRoot

theorem Stage.BuiltFor.advance {w : String} {env : UnlockEnv} {stage stage' : Stage}
    {s : SessionManager} (h : stage.BuiltFor P D w env)
    (hr : SessionCall.Undisturbed P D (.unlockVault (some w) env) stage.point s)
    (hnext : (stage.advance P D env w s).2 = .waiting stage') : stage'.BuiltFor P D w env := by
  cases stage with
  | build =>
    simp only [Stage.advance] at hnext
    split at hnext
    · obtain rfl := Status.waiting.inj hnext
      assumption
    · cases hnext
  | debugLog unlock =>
    obtain rfl := Status.waiting.inj hnext
    exact h
  | signature unlock =>
    simp only [Stage.advance] at hnext
    split at hnext
    · obtain rfl := Status.waiting.inj hnext
      exact ⟨h, ‹_›⟩
    · cases hnext
    · cases hnext
  | deriveKek unlock b =>
    simp only [Stage.advance] at hnext
    split at hnext
    · rename_i kek hkek
      obtain rfl := Status.waiting.inj hnext
      exact hr ⟨unlock, b, h.1, h.2, (deriveKekFromUnlockSignature_eq_ok.mp hkek).1⟩
    · cases hnext
  | buildRoot wallet =>
    obtain rfl : wallet = some w := h
    simp only [Stage.advance] at hnext
    split at hnext
    · obtain rfl := Status.waiting.inj hnext
      assumption
    · cases hnext
  | debugLogRoot vaultRoot =>
    obtain rfl := Status.waiting.inj hnext
    exact h
  | signatureRoot vaultRoot =>
    simp only [Stage.advance] at hnext
    split at hnext <;> cases hnext

theorem Owned.advance {calls : List SessionCall} {s : SessionManager} (h : Owned P calls s)
    {w : String} (hne : w ≠ "") {env : UnlockEnv} (hmem : .unlockVault (some w) env ∈ calls)
    (hplain : Plain P D env) {stage : Stage} (hstage : stage.BuiltFor P D w env)
    (hr : SessionCall.Undisturbed P D (.unlockVault (some w) env) stage.point s) :
    Owned P calls (stage.advance P D env w s).1 := by
  rcases stage.advance_cases w s with hs | ⟨unlock, b, rfl, hanswer, hs⟩ |
    ⟨vaultRoot, b, rfl, hanswer, hs⟩
  · rwa [hs]
  · have hw : s.walletPubKey = some w := hr ⟨unlock, b, hstage, hanswer⟩
    have hunlock : unlock.canonicalObject.wallet = w := hplain.unlock hstage
    rw [hs]
    constructor
    · intro unlock' hu
      obtain rfl := Option.some.inj hu
      exact ⟨hunlock ▸ hne, hunlock ▸ hw, b, rfl, some w, env, hmem, hanswer⟩
    · exact h.vaultRoot
    · intro hunlocked
      exact ⟨Option.some_ne_none _, (h.unlocked hunlocked).2⟩
  · obtain ⟨hw, hsome⟩ := hr ⟨vaultRoot, b, hstage, hanswer⟩
    have hroot : vaultRoot.canonicalObject.wallet = some w := hplain.vaultRoot hstage
    rw [hs]
    constructor
    · exact h.unlock
    · intro vaultRoot' hr'
      obtain rfl := Option.some.inj hr'
      exact ⟨⟨w, hne, hw⟩, hw.trans hroot.symm, b, rfl, some w, env, hmem, hanswer⟩
    · intro _
      refine ⟨hsome, Option.some_ne_none _, _, rfl, rfl, ?_⟩
      simp [markUnlocked, saveVerified, hplain.storageWritable, verifiedStorageKey,
        Manifest.setItem]

/-- Invariant of the pool: the calls are for the wallets that they were made with, and the session
is owned by the connected one. -/
structure Bound (P : Platform) (D : Dates) (p : SessionPool) : Prop where
  staged : Staged (fun w env stage => Plain P D env ∧ stage.BuiltFor P D w env) P D p
  owned : Owned P p.calls p.state

abbrev UndisturbedRun (P : Platform) (D : Dates) : SessionPool → SessionPool → Prop :=
  ReflTransGen (SessionStep P D (SessionCall.Plain P D) (SessionCall.Undisturbed P D))

theorem Bound.step {p q : SessionPool} (hp : Bound P D p)
    (h : SessionStep P D (SessionCall.Plain P D) (SessionCall.Undisturbed P D) p q) :
    Bound P D q := by
  constructor
  · refine hp.staged.step (fun w env hplain => ⟨hplain, trivial⟩) ?_ h
    rintro w env stage stage' s ⟨hplain, hbuilt⟩ hr hnext
    exact ⟨hplain, hbuilt.advance hr hnext⟩
  · rcases step_cases hp.staged h with ⟨c, -, -, rfl⟩ | ⟨i, w, env, stage, hi, hne, hstage, hr, rfl⟩
    · have hcalls : p.calls ⊆ Pool.calls ⟨c.update P p.state, p.threads ++ [(c, c.start P D p.state)]⟩ := by
        simp [Pool.calls]
      exact (hp.owned.update c).mono hcalls
    · rw [Pool.calls_set hi]
      have hmem := List.mem_of_getElem? (Pool.calls_getElem? hi)
      exact hp.owned.advance hne hmem hstage.1 hstage.2 hr

theorem bound_init (P : Platform) (D : Dates) (now : Int) (storage : Manifest.LocalStorage) :
    Bound P D (Pool.init (freshSession P now storage)) where
  staged := staged_init _
  owned := owned_of_cleared rfl rfl rfl

/-- In every run in which the calls of `unlockVault` are undisturbed, the materials of an unlocked
session belong to the connected wallet. -/
theorem materialBound_of_undisturbed {now : Int} {storage : Manifest.LocalStorage} {p : SessionPool}
    (h : UndisturbedRun P D (Pool.init (freshSession P now storage)) p) :
    MaterialBound P p.calls p.state := by
  have hbound : Bound P D p :=
    Pool.Run.invariant (Bound P D) (fun _ _ hp hstep => hp.step hstep) h (bound_init P D now storage)
  exact hbound.owned.materialBound

/-! ### Runs of one call -/

section Newest

variable {allowed : SessionCall → Prop}
  {resumable : SessionCall → UnlockPoint → SessionManager → Prop} {w : String} {env : UnlockEnv}
  {unlock : BuildUnlockResult} {b b' : Bytes} {vaultRoot : BuildVaultRootResult}
  {ts : List (SessionCall × SessionTask Unit)}

theorem UnlockSigned.advance_build (h : UnlockSigned P D env w unlock b) (s : SessionManager) :
    Stage.build.advance P D env w s = (s, .waiting (.debugLog unlock)) := by
  simp only [Stage.advance, h.built]

theorem UnlockSigned.advance_signature (h : UnlockSigned P D env w unlock b) (s : SessionManager) :
    (Stage.signature unlock).advance P D env w s =
      (storedUnlock s unlock b, .waiting (.deriveKek unlock b)) := by
  simp only [Stage.advance, h.answered, storedUnlock]

theorem UnlockSigned.advance_deriveKek (h : UnlockSigned P D env w unlock b) (s : SessionManager) :
    (Stage.deriveKek unlock b).advance P D env w s = (s, .waiting (.buildRoot s.walletPubKey)) := by
  obtain ⟨kek, hkek⟩ := exists_deriveKekFromSignature P b (some env.salt.1)
  have hderive : deriveKekFromUnlockSignature P D b (some env.salt.1) unlock env.now = .ok kek :=
    deriveKekFromUnlockSignature_eq_ok.mpr ⟨h.unexpired, hkek⟩
  simp only [Stage.advance, hderive]

theorem VaultRootSigned.advance_signatureRoot {w' : Option String}
    (h : VaultRootSigned P env w' vaultRoot b') (s : SessionManager) :
    (Stage.signatureRoot vaultRoot).advance P D env w s =
      (markUnlocked P env (storedRoot s vaultRoot b'), .settled (.ok ())) := by
  simp only [Stage.advance, h.answered, storedRoot]

/-- A pool whose newest call has this status. -/
def newest (P : Platform) (D : Dates) (w : String) (env : UnlockEnv)
    (ts : List (SessionCall × SessionTask Unit)) (s : SessionManager) (status : Status) :
    SessionPool :=
  ⟨s, ts ++ [(.unlockVault (some w) env, status.task P D env w)]⟩

theorem step_newest {s s' : SessionManager} {stage : Stage} {status : Status}
    (h : stage.advance P D env w s = (s', status))
    (hr : resumable (.unlockVault (some w) env) stage.point s) :
    SessionStep P D allowed resumable (newest P D w env ts s (.waiting stage))
      (newest P D w env ts s' status) := by
  have hstep : SessionStep P D allowed resumable (newest P D w env ts s (.waiting stage)) _ :=
    resume_stage (i := ts.length) (by simp [newest, Status.task]) hr
  rw [newest, h, List.set_append_right _ _ (Nat.le_refl _), Nat.sub_self, List.set_cons_zero] at hstep
  exact hstep

/-- The newest call runs until it waits for the signature of the vault root. -/
theorem run_to_root {s : SessionManager} (hunlock : UnlockSigned P D env w unlock b)
    (hbuilt : env.buildVaultRoot P s.walletPubKey = .ok vaultRoot)
    (hr : ∀ point s', point ≠ .signature .vaultRoot → s'.walletPubKey = s.walletPubKey →
      resumable (.unlockVault (some w) env) point s') :
    ReflTransGen (SessionStep P D allowed resumable) (newest P D w env ts s (.waiting .build))
      (newest P D w env ts
        { s with lastUnlock := some unlock, lastUnlockSignatureBytes := some b }
        (.waiting (.signatureRoot vaultRoot))) := by
  have hlog : (Stage.debugLog unlock).advance P D env w s = (s, .waiting (.signature unlock)) := rfl
  have hroot : (Stage.buildRoot s.walletPubKey).advance P D env w (storedUnlock s unlock b) =
      (storedUnlock s unlock b, .waiting (.debugLogRoot vaultRoot)) := by
    simp only [Stage.advance, hbuilt]
  have hlogRoot : (Stage.debugLogRoot vaultRoot).advance P D env w (storedUnlock s unlock b) =
      (storedUnlock s unlock b, .waiting (.signatureRoot vaultRoot)) := rfl
  refine .head (step_newest (hunlock.advance_build s) (hr _ _ (by rintro ⟨⟩) rfl)) ?_
  refine .head (step_newest hlog (hr _ _ (by rintro ⟨⟩) rfl)) ?_
  refine .head (step_newest (hunlock.advance_signature s) (hr _ _ (by rintro ⟨⟩) rfl)) ?_
  refine .head (step_newest (hunlock.advance_deriveKek _) (hr _ _ (by rintro ⟨⟩) rfl)) ?_
  refine .head (step_newest hroot (hr _ _ (by rintro ⟨⟩) rfl)) ?_
  exact .single (step_newest hlogRoot (hr _ _ (by rintro ⟨⟩) rfl))

/-- The call of `unlockVault` for the connected wallet. -/
theorem step_unlock {s : SessionManager} (hw : s.walletPubKey = some w) (hne : w ≠ "")
    (hallowed : allowed (.unlockVault (some w) env)) :
    SessionStep P D allowed resumable ⟨s, ts⟩ (newest P D w env ts s (.waiting .build)) := by
  have hstep : SessionStep P D allowed resumable ⟨s, ts⟩ _ :=
    Pool.Step.call (SessionCall.unlockVault (some w) env) ⟨hw, hallowed⟩
  rw [Pool.call, SessionCall.seg_body, start_unlockVault hw hne] at hstep
  exact hstep

/-- The connection of `w`. -/
theorem step_connect (s : SessionManager) (w : String) (now : Int)
    (hallowed : allowed (.connectWallet (.text w) none now)) :
    SessionStep P D allowed resumable ⟨s, ts⟩ ⟨connectWallet P now (.text w) none s,
      ts ++ [(.connectWallet (.text w) none now, .done (.ok ()))]⟩ :=
  Pool.Step.call (SessionCall.connectWallet (.text w) none now) ⟨trivial, hallowed⟩

theorem normalized_text (hne : w ≠ "") : (PubKeyArg.text w).normalized = some w := if_neg hne

/-- A wallet is connected, and its unlock waits for the signature of the vault root. -/
theorem run_connect_to_root (hne : w ≠ "") (hunlock : UnlockSigned P D env w unlock b)
    (hroot : VaultRootSigned P env (some w) vaultRoot b') (s : SessionManager)
    (hconnect : allowed (.connectWallet (.text w) none 0))
    (hcall : allowed (.unlockVault (some w) env))
    (hr : ∀ point s', point ≠ .signature .vaultRoot → s'.walletPubKey = some w →
      resumable (.unlockVault (some w) env) point s') :
    ∃ s', ReflTransGen (SessionStep P D allowed resumable) (Pool.init s)
        (newest P D w env [(.connectWallet (.text w) none 0, .done (.ok ()))] s'
          (.waiting (.signatureRoot vaultRoot))) ∧
      s'.walletPubKey = some w ∧ s'.lastUnlock = some unlock := by
  have hw : (connectWallet P 0 (.text w) none s).walletPubKey = some w :=
    (connectWallet_walletPubKey ..).trans (normalized_text hne)
  refine ⟨_, .head (step_connect s w 0 hconnect) (.head (step_unlock hw hne hcall)
    (run_to_root hunlock (hw ▸ hroot.built) ?_)), hw, rfl⟩
  intro point s' hpoint hs'
  exact hr point s' hpoint (hs'.trans hw)

end Newest

/-- Some undisturbed run unlocks the vault of a plain call whose messages are answered. -/
theorem exists_undisturbed_unlock {w : String} {env : UnlockEnv} {unlock : BuildUnlockResult}
    {b b' : Bytes} {vaultRoot : BuildVaultRootResult} (hne : w ≠ "") (hplain : Plain P D env)
    (hunlock : UnlockSigned P D env w unlock b)
    (hroot : VaultRootSigned P env (some w) vaultRoot b') (s : SessionManager) :
    ∃ p, UndisturbedRun P D (Pool.init s) p ∧ p.state.vaultUnlocked = true := by
  have hr : ∀ point (s' : SessionManager), point ≠ .signature .vaultRoot →
      s'.walletPubKey = some w →
        SessionCall.Undisturbed P D (.unlockVault (some w) env) point s' := by
    intro point s' hpoint hs'
    cases point with
    | signature r =>
      cases r with
      | unlock => exact fun _ => hs'
      | vaultRoot => exact absurd rfl hpoint
    | deriveKek => exact fun _ => hs'
    | build r => trivial
    | debugLog r => trivial
  have hconnected : ∃ s', UndisturbedRun P D (Pool.init s)
        (newest P D w env [(.connectWallet (.text w) none 0, .done (.ok ()))] s'
          (.waiting (.signatureRoot vaultRoot))) ∧
      s'.walletPubKey = some w ∧ s'.lastUnlock = some unlock :=
    run_connect_to_root hne hunlock hroot s trivial hplain hr
  obtain ⟨s', hrun, hw, hs'⟩ := hconnected
  refine ⟨_, hrun.tail (step_newest (hroot.advance_signatureRoot s') ?_), rfl⟩
  exact fun _ => ⟨hw, by simp [hs']⟩

/-- A wallet that is connected while the unlock of another one waits for its last signature is
unlocked by that one. -/
theorem exists_switched_unlock {w : String} (w' : String) {env : UnlockEnv}
    {unlock : BuildUnlockResult} {b b' : Bytes} {vaultRoot : BuildVaultRootResult} (hne : w ≠ "")
    (hne' : w' ≠ "") (hswitch : w ≠ w') (hplain : Plain P D env)
    (hunlock : UnlockSigned P D env w unlock b)
    (hroot : VaultRootSigned P env (some w) vaultRoot b') (s : SessionManager) :
    ∃ p, ReflTransGen (SessionStep P D (SessionCall.Plain P D) fun _ _ _ => True) (Pool.init s) p ∧
      p.state.vaultUnlocked = true ∧ p.state.walletPubKey = some w' ∧
      p.state.lastUnlock = none ∧ p.state.lastVaultRoot = some vaultRoot := by
  have hconnected : ∃ s', ReflTransGen
      (SessionStep P D (SessionCall.Plain P D) fun _ _ _ => True) (Pool.init s)
        (newest P D w env [(.connectWallet (.text w) none 0, .done (.ok ()))] s'
          (.waiting (.signatureRoot vaultRoot))) ∧
      s'.walletPubKey = some w ∧ s'.lastUnlock = some unlock :=
    run_connect_to_root hne hunlock hroot s trivial hplain fun _ _ _ _ => trivial
  obtain ⟨s', hrun, hw, -⟩ := hconnected
  have hcleared : (connectWallet P 0 (.text w') none s').lastUnlock = none := by
    obtain ⟨v, storage, h⟩ := connectWallet_eq P 0 (.text w') none s'
    have hhot : hotSwitch s'.walletPubKey (PubKeyArg.text w').normalized = true := by
      simp [hotSwitch, hw, normalized_text hne', hne, hswitch]
    rw [h, if_pos hhot]
    rfl
  have hwaiting : ([(.connectWallet (.text w) none 0, .done (.ok ())),
      (.unlockVault (some w) env, Stage.rest P D env w (.signatureRoot vaultRoot)),
      (.connectWallet (.text w') none 0, .done (.ok ()))] :
        List (SessionCall × SessionTask Unit))[1]? =
      some (.unlockVault (some w) env, Stage.rest P D env w (.signatureRoot vaultRoot)) := rfl
  refine ⟨_, (hrun.tail (step_connect s' w' 0 trivial)).tail (resume_stage hwaiting trivial), ?_⟩
  simp only [hroot.advance_signatureRoot]
  exact ⟨rfl, (connectWallet_walletPubKey ..).trans (normalized_text hne'), hcleared, rfl⟩

/-- The sample wallet adapter works on the builders of `@sj/crypto`. -/
theorem sampleEnv_plain (sign : Bytes → Bytes) : Plain P D (sampleEnv sign) :=
  plain_of_default rfl rfl rfl

/-- A wallet is connected, and its vault is unlocked. -/
theorem materialBound_sample : ∃ p : SessionPool, p.state.vaultUnlocked = true ∧
    MaterialBound symbolic p.calls p.state := by
  obtain ⟨unlock, hunlock⟩ := sampleEnv_unlockSigned symbolic_lawful sampleSign "Wa11et"
  obtain ⟨vaultRoot, hroot⟩ :=
    sampleEnv_vaultRootSigned symbolic_lawful sampleSign (some "Wa11et")
  obtain ⟨p, hrun, hunlocked⟩ := exists_undisturbed_unlock (by decide) (sampleEnv_plain sampleSign)
    hunlock hroot (freshSession symbolic 0 fun _ => none)
  exact ⟨p, hunlocked, materialBound_of_undisturbed hrun⟩

/-- The vault of `"0ther"` is unlocked with the vault root of `"Wa11et"` and without unlock
material. -/
theorem switch_unlocks_unbound : ∃ p, ReflTransGen (SessionStep symbolic sampleDates
      (SessionCall.Plain symbolic sampleDates) fun _ _ _ => True)
      (Pool.init (freshSession symbolic 0 fun _ => none)) p ∧
    p.state.vaultUnlocked = true ∧ p.state.walletPubKey = some "0ther" ∧
    ¬ MaterialBound symbolic p.calls p.state := by
  obtain ⟨unlock, hunlock⟩ := sampleEnv_unlockSigned symbolic_lawful sampleSign "Wa11et"
  obtain ⟨vaultRoot, hroot⟩ :=
    sampleEnv_vaultRootSigned symbolic_lawful sampleSign (some "Wa11et")
  obtain ⟨p, hrun, hunlocked, hw, hnone, -⟩ := exists_switched_unlock "0ther" (by decide) (by decide)
    (by decide) (sampleEnv_plain sampleSign) hunlock hroot (freshSession symbolic 0 fun _ => none)
  refine ⟨p, hrun, hunlocked, hw, fun hbound => ?_⟩
  obtain ⟨w, h⟩ := hbound hunlocked
  obtain ⟨unlock', b, hsome, -⟩ := h.unlock
  rw [hnone] at hsome
  cases hsome

end SovereignJedi.Session
