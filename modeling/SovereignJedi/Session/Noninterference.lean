import SovereignJedi.Async.Twin
import SovereignJedi.Session.Tabs

/-! Two browsers in which the same operations of the session managers are made at the same times,
by wallets that answer at the same turns with whatever bytes. What the storage holds is the same in
both after every turn, so nothing of a signature, a nonce or a salt gets there. -/

namespace SovereignJedi.Session

open SovereignJedi.Js SovereignJedi.Crypto SovereignJedi.Async Relation
open SovereignJedi.Manifest (LocalStorage setItem)

variable {P : Platform} {D : Dates} {env env' : UnlockEnv}

/-! ### Turns -/

/-- What happens in a browser: its clock is read again, a session manager is constructed, or that of
tab `i` does something. -/
inductive Turn where
  | clock (now : Int)
  | construct
  | act (i : Nat) (a : TabAction)

section Turns

variable (P : Platform) (D : Dates)

/-- The turn takes the tabs `t` to `u`. The clock may go anywhere. -/
inductive Taken : Turn → Tabs → Tabs → Prop
  | clock (t : Tabs) (now : Int) : Taken (.clock now) t { t with now }
  | construct (t : Tabs) : Taken .construct t { t with
      storage := (freshSession P t.now t.storage).localStorage
      tabs := t.tabs ++ [Pool.init (freshSession P t.now t.storage)] }
  | call (t : Tabs) (i : Nat) (p : SessionPool) (c : SessionCall) (hi : t.tabs[i]? = some p)
      (hmade : c.Made p.state) (htime : c.At t.now) :
      Taken (.act i (.call c)) t (t.put i ((t.view p).call (SessionCall.body P D) c))
  | resume (t : Tabs) (i : Nat) (p : SessionPool) (k : Nat) (c : SessionCall) (point : UnlockPoint)
      (ready : SessionManager → Bool) (next : SessionTask Unit) (hi : t.tabs[i]? = some p)
      (hk : p.threads[k]? = some (c, .await point ready next))
      (hready : ready (t.view p).state = true) (htime : c.ResumedAt t.now point) :
      Taken (.act i (.resume k)) t (t.put i ((t.view p).resume k c next))
  | getVerified (t : Tabs) (i : Nat) (p : SessionPool) (hi : t.tabs[i]? = some p) :
      Taken (.act i .getVerified) t
        (t.put i { p with state := (getVerified P t.now (t.view p).state).1 })

/-- The wallet answers in round `r`. -/
def UnlockEnv.Answers (env : UnlockEnv) (r : Round) (messageToSign : String) : Prop :=
  ∃ b, env.answer P r messageToSign = .ok (some b)

/-- The call waits for a signature, and gets one. -/
def Stage.Answered (env : UnlockEnv) : Stage → Prop
  | .signature unlock => env.Answers P .unlock unlock.messageToSign
  | .signatureRoot vaultRoot => env.Answers P .vaultRoot vaultRoot.messageToSign
  | _ => False

/-- In this turn a wallet answers. -/
def Turn.Answered (turn : Turn) (t : Tabs) : Prop :=
  ∃ i k p w env stage, turn = .act i (.resume k) ∧ t.tabs[i]? = some p ∧
    p.threads[k]? = some (.unlockVault (some w) env, Stage.rest P D env w stage) ∧
    stage.Answered P env

/-- The clock, the page, the storage and the builders that tests inject are the same; the nonce, the
salt and the wallets may differ. -/
structure SameEnv (env env' : UnlockEnv) : Prop where
  origin : env.origin = env'.origin
  now : env.now = env'.now
  verifiedAt : env.verifiedAt = env'.verifiedAt
  unlockBuilder : env.unlockBuilder = env'.unlockBuilder
  vaultRootBuilder : env.vaultRootBuilder = env'.vaultRootBuilder
  storageWritable : env.storageWritable = env'.storageWritable

/-- The same operation with the same arguments. -/
inductive SameCall : SessionCall → SessionCall → Prop
  | connectWallet (pubKey : PubKeyArg) (provider : Option String) (now : Int) :
      SameCall (.connectWallet pubKey provider now) (.connectWallet pubKey provider now)
  | lockVault : SameCall .lockVault .lockVault
  | disconnectWallet : SameCall .disconnectWallet .disconnectWallet
  | unlockVault (w w' : Option String) {env env' : UnlockEnv} (h : SameEnv env env') :
      SameCall (.unlockVault w env) (.unlockVault w' env')

/-- The same thing happens in both browsers. -/
inductive SameTurn : Turn → Turn → Prop
  | clock (now : Int) : SameTurn (.clock now) (.clock now)
  | construct : SameTurn .construct .construct
  | call (i : Nat) {c c' : SessionCall} (h : SameCall c c') :
      SameTurn (.act i (.call c)) (.act i (.call c'))
  | resume (i k : Nat) : SameTurn (.act i (.resume k)) (.act i (.resume k))
  | getVerified (i : Nat) : SameTurn (.act i .getVerified) (.act i .getVerified)

/-- Both browsers take the same turn, and in both a wallet answers or in none. -/
inductive TwinStep : Tabs × Tabs → Tabs × Tabs → Prop
  | intro {turn turn' : Turn} {t t' u u' : Tabs} (hsame : SameTurn turn turn')
      (h : Taken P D turn t u) (h' : Taken P D turn' t' u')
      (hanswered : turn.Answered P D t ↔ turn'.Answered P D t') : TwinStep (t, t') (u, u')

end Turns

/-- Every step of the tabs is a turn. -/
theorem TabsStep.taken {cond : Tabs → Nat → TabAction → Prop} {t u : Tabs}
    (h : TabsStep P D cond t u) : ∃ turn, Taken P D turn t u := by
  cases h with
  | tick now hle => exact ⟨_, .clock t now⟩
  | construct => exact ⟨_, .construct t⟩
  | call i p c hi hmade htime _ => exact ⟨_, .call t i p c hi hmade htime⟩
  | resume i p k c point ready next hi hk hready htime _ =>
    exact ⟨_, .resume t i p k c point ready next hi hk hready htime⟩
  | getVerified i p hi _ => exact ⟨_, .getVerified t i p hi⟩

/-! ### Sessions -/

/-- The sessions differ at most in what their wallets have signed. -/
structure TwinSession (s s' : SessionManager) : Prop where
  walletPubKey : s.walletPubKey = s'.walletPubKey
  walletProvider : s.walletProvider = s'.walletProvider
  verified : s.verified = s'.verified
  localStorage : s.localStorage = s'.localStorage

theorem TwinSession.refl (s : SessionManager) : TwinSession s s := ⟨rfl, rfl, rfl, rfl⟩

section Operations

variable {s s' : SessionManager}

theorem reconcileVerified_congr (now : Int) (w : Option String)
    (hverified : s.verified = s'.verified) (hstorage : s.localStorage = s'.localStorage) :
    (reconcileVerified P now w s).verified = (reconcileVerified P now w s').verified ∧
      (reconcileVerified P now w s).localStorage = (reconcileVerified P now w s').localStorage := by
  cases s
  cases s'
  subst hverified hstorage
  unfold reconcileVerified
  dsimp only
  split
  · split <;> exact ⟨rfl, rfl⟩
  · split <;> exact ⟨rfl, rfl⟩

theorem connectWallet_walletProvider (now : Int) (pubKey : PubKeyArg) (provider : Option String)
    (s : SessionManager) : (connectWallet P now pubKey provider s).walletProvider =
      provider.filter fun p => p != "" := by
  obtain ⟨v, storage, h⟩ := connectWallet_eq P now pubKey provider s
  rw [h]
  split <;> rfl

theorem TwinSession.connectWallet (h : TwinSession s s') (now : Int) (pubKey : PubKeyArg)
    (provider : Option String) : TwinSession (connectWallet P now pubKey provider s)
      (Session.connectWallet P now pubKey provider s') := by
  have hverified : (connecting pubKey provider s).verified =
      (connecting pubKey provider s').verified := h.verified
  obtain ⟨hverified, hstorage⟩ :=
    reconcileVerified_congr (P := P) now pubKey.normalized hverified h.localStorage
  constructor
  · rw [connectWallet_walletPubKey, connectWallet_walletPubKey]
  · rw [connectWallet_walletProvider, connectWallet_walletProvider]
  · rw [connectWallet_verified, connectWallet_verified, hverified]
  · rw [connectWallet_localStorage, connectWallet_localStorage, hstorage]

theorem TwinSession.disconnectWallet (h : TwinSession s s') :
    TwinSession (disconnectWallet s) (Session.disconnectWallet s') :=
  ⟨rfl, rfl, rfl, congrArg clearVerified h.localStorage⟩

theorem TwinSession.getVerified (h : TwinSession s s') (now : Int) :
    TwinSession (getVerified P now s).1 (Session.getVerified P now s').1 := by
  obtain ⟨hw, hprovider, -, hstorage⟩ := h
  exact ⟨hw, hprovider, congrArg (fun s => (loadVerified P now s).2) hstorage,
    congrArg (fun s => (loadVerified P now s).1) hstorage⟩

theorem TwinSession.markUnlocked (h : TwinSession s s') (henv : SameEnv env env') :
    TwinSession (markUnlocked P env s) (Session.markUnlocked P env' s') := by
  have hsignal : verifiedSignal env s = verifiedSignal env' s' := by
    simp only [verifiedSignal, h.walletPubKey, h.walletProvider, h.verified, henv.verifiedAt]
  refine ⟨h.walletPubKey, h.walletProvider, congrArg some hsignal, ?_⟩
  simp only [Session.markUnlocked, saveVerified, hsignal, h.localStorage, henv.storageWritable]

theorem TwinSession.storedUnlock (h : TwinSession s s') (unlock unlock' : BuildUnlockResult)
    (b b' : Bytes) :
    TwinSession (storedUnlock s unlock b) (Session.storedUnlock s' unlock' b') :=
  ⟨h.walletPubKey, h.walletProvider, h.verified, h.localStorage⟩

theorem TwinSession.storedRoot (h : TwinSession s s') (vaultRoot vaultRoot' : BuildVaultRootResult)
    (b b' : Bytes) :
    TwinSession (storedRoot s vaultRoot b) (Session.storedRoot s' vaultRoot' b') :=
  ⟨h.walletPubKey, h.walletProvider, h.verified, h.localStorage⟩

theorem TwinSession.update (h : TwinSession s s') {c c' : SessionCall} (hc : SameCall c c') :
    TwinSession (c.update P s) (c'.update P s') := by
  cases hc with
  | connectWallet pubKey provider now => exact h.connectWallet now pubKey provider
  | lockVault => exact ⟨h.walletPubKey, h.walletProvider, h.verified, h.localStorage⟩
  | disconnectWallet => exact h.disconnectWallet
  | unlockVault w w' henv => exact h

end Operations

/-! ### Stages -/

/-- The unlock messages expire at the same time. -/
def SameExpiry (unlock unlock' : BuildUnlockResult) : Prop :=
  unlock.canonicalObject.expiresAt = unlock'.canonicalObject.expiresAt

/-- Both calls are suspended at the same point. -/
inductive TwinStage : Stage → Stage → Prop
  | build : TwinStage .build .build
  | debugLog {unlock unlock' : BuildUnlockResult} (h : SameExpiry unlock unlock') :
      TwinStage (.debugLog unlock) (.debugLog unlock')
  | signature {unlock unlock' : BuildUnlockResult} (h : SameExpiry unlock unlock') :
      TwinStage (.signature unlock) (.signature unlock')
  | deriveKek {unlock unlock' : BuildUnlockResult} (b b' : Bytes) (h : SameExpiry unlock unlock') :
      TwinStage (.deriveKek unlock b) (.deriveKek unlock' b')
  | buildRoot (w : Option String) : TwinStage (.buildRoot w) (.buildRoot w)
  | debugLogRoot (vaultRoot vaultRoot' : BuildVaultRootResult) :
      TwinStage (.debugLogRoot vaultRoot) (.debugLogRoot vaultRoot')
  | signatureRoot (vaultRoot vaultRoot' : BuildVaultRootResult) :
      TwinStage (.signatureRoot vaultRoot) (.signatureRoot vaultRoot')

/-- Both calls are suspended at the same point, or both have settled. -/
inductive TwinStatus : Status → Status → Prop
  | waiting {stage stage' : Stage} (h : TwinStage stage stage') :
      TwinStatus (.waiting stage) (.waiting stage')
  | settled (r r' : Result Unit) : TwinStatus (.settled r) (.settled r')

/-- The nonce does not decide whether the unlock message is built, nor when it expires. -/
theorem SameEnv.buildUnlock (hP : P.Lawful) (h : SameEnv env env') (w : String) :
    (∃ e e', env.buildUnlock P D w = .error e ∧ env'.buildUnlock P D w = .error e') ∨
    ∃ unlock unlock', env.buildUnlock P D w = .ok unlock ∧ env'.buildUnlock P D w = .ok unlock' ∧
      SameExpiry unlock unlock' := by
  unfold UnlockEnv.buildUnlock
  rw [← h.now, ← h.origin, ← h.unlockBuilder]
  cases hissued : D.toISOString env.now with
  | error e => exact Or.inl ⟨e, e, rfl, rfl⟩
  | ok issuedAt =>
    cases hexpires : D.toISOString (env.now + 10 * 60 * 1000) with
    | error e => exact Or.inl ⟨e, e, rfl, rfl⟩
    | ok expiresAt =>
      simp only [ok_bind]
      cases env.unlockBuilder with
      | some builder =>
        -- an injected builder does not see the nonce
        simp only [Option.getD_some]
        cases builder _ with
        | error e => exact Or.inl ⟨e, e, rfl, rfl⟩
        | ok unlock => exact Or.inr ⟨unlock, unlock, rfl, rfl, rfl⟩
      | none =>
        have hbuilt (draw : RandomBytes 16) := buildUnlockMessageV1_ok (D := D) hP env.origin
          env.now draw {
            origin := some env.origin
            wallet := w
            vaultId := some "local-default"
            nonceBytes := none
            issuedAt := some issuedAt
            expiresAt := some expiresAt } rfl rfl rfl
        obtain ⟨unlock, hunlock, hexpiry⟩ := hbuilt env.nonce
        obtain ⟨unlock', hunlock', hexpiry'⟩ := hbuilt env'.nonce
        exact Or.inr ⟨unlock, unlock', hunlock, hunlock', hexpiry.trans hexpiry'.symm⟩

theorem SameEnv.buildVaultRoot (h : SameEnv env env') (w : Option String) :
    env.buildVaultRoot P w = env'.buildVaultRoot P w := by
  rw [UnlockEnv.buildVaultRoot, UnlockEnv.buildVaultRoot, h.vaultRootBuilder]

theorem SameExpiry.assertUnlockNotExpired {unlock unlock' : BuildUnlockResult}
    (h : SameExpiry unlock unlock') (now : Int) :
    assertUnlockNotExpired D unlock now = Crypto.assertUnlockNotExpired D unlock' now := by
  unfold Crypto.assertUnlockNotExpired
  rw [show unlock.canonicalObject.expiresAt = unlock'.canonicalObject.expiresAt from h]

/-- Whether the key is derived depends on the expiry only, not on the signature or the salt. -/
theorem SameExpiry.deriveKek {unlock unlock' : BuildUnlockResult} (h : SameExpiry unlock unlock')
    (now : Int) (b b' : Bytes) (salt salt' : Option Bytes) :
    (∃ e e', deriveKekFromUnlockSignature P D b salt unlock now = .error e ∧
      deriveKekFromUnlockSignature P D b' salt' unlock' now = .error e') ∨
    ∃ kek kek', deriveKekFromUnlockSignature P D b salt unlock now = .ok kek ∧
      deriveKekFromUnlockSignature P D b' salt' unlock' now = .ok kek' := by
  unfold deriveKekFromUnlockSignature
  rw [← h.assertUnlockNotExpired now]
  cases Crypto.assertUnlockNotExpired D unlock now with
  | error e => exact Or.inl ⟨e, e, rfl, rfl⟩
  | ok u =>
    obtain ⟨kek, hkek⟩ := exists_deriveKekFromSignature P b salt
    obtain ⟨kek', hkek'⟩ := exists_deriveKekFromSignature P b' salt'
    exact Or.inr ⟨kek, kek', hkek, hkek'⟩

/-- The unlock signature is stored, or the call throws. -/
theorem advance_signature (env : UnlockEnv) (w : String) (s : SessionManager)
    (unlock : BuildUnlockResult) :
    (env.Answers P .unlock unlock.messageToSign ∧ ∃ b,
      (Stage.signature unlock).advance P D env w s =
        (storedUnlock s unlock b, .waiting (.deriveKek unlock b))) ∨
    (¬ env.Answers P .unlock unlock.messageToSign ∧ ∃ e,
      (Stage.signature unlock).advance P D env w s = (s, .settled (.error e))) := by
  simp only [Stage.advance, UnlockEnv.Answers]
  cases env.answer P .unlock unlock.messageToSign with
  | error e => exact Or.inr ⟨by simp, _, rfl⟩
  | ok b =>
    cases b with
    | none => exact Or.inr ⟨by simp, _, rfl⟩
    | some b => exact Or.inl ⟨⟨b, rfl⟩, b, rfl⟩

/-- The vault root signature unlocks the vault, or the call throws. -/
theorem advance_signatureRoot (env : UnlockEnv) (w : String) (s : SessionManager)
    (vaultRoot : BuildVaultRootResult) :
    (env.Answers P .vaultRoot vaultRoot.messageToSign ∧ ∃ b,
      (Stage.signatureRoot vaultRoot).advance P D env w s =
        (markUnlocked P env (storedRoot s vaultRoot b), .settled (.ok ()))) ∨
    (¬ env.Answers P .vaultRoot vaultRoot.messageToSign ∧ ∃ e,
      (Stage.signatureRoot vaultRoot).advance P D env w s = (s, .settled (.error e))) := by
  simp only [Stage.advance, UnlockEnv.Answers]
  cases env.answer P .vaultRoot vaultRoot.messageToSign with
  | error e => exact Or.inr ⟨by simp, _, rfl⟩
  | ok b =>
    cases b with
    | none => exact Or.inr ⟨by simp, _, rfl⟩
    | some b => exact Or.inl ⟨⟨b, rfl⟩, b, rfl⟩

/-- Calls at the same point that are resumed where both wallets answer or none come to the same
point, and leave the same record. -/
theorem twin_advance (hP : P.Lawful) (henv : SameEnv env env') {s s' : SessionManager}
    (hs : TwinSession s s') {stage stage' : Stage} (hstage : TwinStage stage stage')
    (hanswered : stage.Answered P env ↔ stage'.Answered P env') (w : String) :
    TwinSession (stage.advance P D env w s).1 (stage'.advance P D env' w s').1 ∧
      TwinStatus (stage.advance P D env w s).2 (stage'.advance P D env' w s').2 := by
  cases hstage with
  | build =>
    rcases henv.buildUnlock (D := D) hP w with
      ⟨e, e', h, h'⟩ | ⟨unlock, unlock', h, h', hexpiry⟩
    · simp only [Stage.advance, h, h']
      exact ⟨hs, .settled ..⟩
    · simp only [Stage.advance, h, h']
      exact ⟨hs, .waiting (.debugLog hexpiry)⟩
  | debugLog hexpiry => exact ⟨hs, .waiting (.signature hexpiry)⟩
  | @signature unlock unlock' hexpiry =>
    rcases advance_signature (P := P) (D := D) env w s unlock with ⟨hyes, b, h⟩ | ⟨hno, e, h⟩
    · obtain ⟨-, b', h'⟩ := (advance_signature (P := P) (D := D) env' w s' unlock').resolve_right
        fun hno => hno.1 (hanswered.mp hyes)
      rw [h, h']
      exact ⟨hs.storedUnlock .., .waiting (.deriveKek _ _ hexpiry)⟩
    · obtain ⟨-, e', h'⟩ := (advance_signature (P := P) (D := D) env' w s' unlock').resolve_left
        fun hyes => hno (hanswered.mpr hyes.1)
      rw [h, h']
      exact ⟨hs, .settled ..⟩
  | @deriveKek unlock unlock' b b' hexpiry =>
    rcases hexpiry.deriveKek (P := P) (D := D) env.now b b' (some env.salt.1) (some env'.salt.1)
      with ⟨e, e', h, h'⟩ | ⟨kek, kek', h, h'⟩
    · simp only [Stage.advance, ← henv.now, h, h']
      exact ⟨hs, .settled ..⟩
    · simp only [Stage.advance, ← henv.now, h, h']
      exact ⟨hs, .waiting (hs.walletPubKey ▸ .buildRoot _)⟩
  | buildRoot w' =>
    simp only [Stage.advance, henv.buildVaultRoot (P := P) w']
    cases env'.buildVaultRoot P w' with
    | error e => exact ⟨hs, .settled ..⟩
    | ok vaultRoot => exact ⟨hs, .waiting (.debugLogRoot ..)⟩
  | debugLogRoot vaultRoot vaultRoot' => exact ⟨hs, .waiting (.signatureRoot ..)⟩
  | signatureRoot vaultRoot vaultRoot' =>
    rcases advance_signatureRoot (P := P) (D := D) env w s vaultRoot with
      ⟨hyes, b, h⟩ | ⟨hno, e, h⟩
    · obtain ⟨-, b', h'⟩ :=
        (advance_signatureRoot (P := P) (D := D) env' w s' vaultRoot').resolve_right
          fun hno => hno.1 (hanswered.mp hyes)
      rw [h, h']
      exact ⟨(hs.storedRoot ..).markUnlocked henv, .settled ..⟩
    · obtain ⟨-, e', h'⟩ :=
        (advance_signatureRoot (P := P) (D := D) env' w s' vaultRoot').resolve_left
          fun hyes => hno (hanswered.mpr hyes.1)
      rw [h, h']
      exact ⟨hs, .settled ..⟩

/-! ### Browsers -/

/-- The same call, settled in both browsers or suspended at the same point. -/
inductive TwinThread (P : Platform) (D : Dates) :
    SessionCall × SessionTask Unit → SessionCall × SessionTask Unit → Prop
  | settled (c c' : SessionCall) (r r' : Result Unit) : TwinThread P D (c, .done r) (c', .done r')
  | waiting (w : String) {env env' : UnlockEnv} (henv : SameEnv env env') {stage stage' : Stage}
      (hstage : TwinStage stage stage') :
      TwinThread P D (.unlockVault (some w) env, stage.rest P D env w)
        (.unlockVault (some w) env', stage'.rest P D env' w)

/-- The tabs of both browsers are alike. -/
structure Twins (P : Platform) (D : Dates) (t t' : Tabs) : Prop where
  now : t.now = t'.now
  storage : t.storage = t'.storage
  tabs : List.Forall₂ (Pool.Twin TwinSession (TwinThread P D)) t.tabs t'.tabs

theorem TwinStatus.thread {status status' : Status} (h : TwinStatus status status') (w : String)
    (henv : SameEnv env env') :
    TwinThread P D (.unlockVault (some w) env, status.task P D env w)
      (.unlockVault (some w) env', status'.task P D env' w) := by
  cases h with
  | waiting hstage => exact .waiting w henv hstage
  | settled r r' => exact .settled ..

section Steps

variable {t t' : Tabs} {p p' : SessionPool}

theorem Twins.view (h : Twins P D t t') (hp : Pool.Twin TwinSession (TwinThread P D) p p') :
    Pool.Twin TwinSession (TwinThread P D) (t.view p) (t'.view p') :=
  ⟨⟨hp.state.walletPubKey, hp.state.walletProvider, hp.state.verified, h.storage⟩, hp.threads⟩

theorem Twins.put (h : Twins P D t t') (i : Nat)
    (hp : Pool.Twin TwinSession (TwinThread P D) p p') : Twins P D (t.put i p) (t'.put i p') :=
  ⟨h.now, hp.state.localStorage, forall₂_set h.tabs i hp⟩

/-- The pools of two browsers in which the same call is made. -/
theorem twin_call (hp : Pool.Twin TwinSession (TwinThread P D) p p') {c c' : SessionCall}
    (hc : SameCall c c') (hmade : c.Made p.state) (hmade' : c'.Made p'.state) :
    Pool.Twin TwinSession (TwinThread P D) (p.call (SessionCall.body P D) c)
      (p'.call (SessionCall.body P D) c') := by
  refine hp.call ?_ ?_
  · rw [SessionCall.seg_body, SessionCall.seg_body]
    exact hp.state.update hc
  · rw [SessionCall.seg_body, SessionCall.seg_body]
    cases hc with
    | connectWallet pubKey provider now => exact .settled ..
    | lockVault => exact .settled ..
    | disconnectWallet => exact .settled ..
    | unlockVault w w' henv =>
      obtain rfl : p.state.walletPubKey = w := hmade
      obtain rfl : p'.state.walletPubKey = w' := hmade'
      have hwallet := hp.state.walletPubKey
      by_cases h : ∀ w, p.state.walletPubKey = some w → w = ""
      · rw [start_unlockVault_error h, start_unlockVault_error (hwallet ▸ h)]
        exact .settled ..
      · push Not at h
        obtain ⟨w, hw, hne⟩ := h
        rw [start_unlockVault hw hne, start_unlockVault (hwallet ▸ hw) hne, ← hwallet, hw]
        exact .waiting w henv .build

/-- What is left of a call tells whether it gets an answer. -/
theorem answered_of_rest {w : String} {stage stage' : Stage}
    (h : stage.rest P D env w = stage'.rest P D env w) (s : SessionManager)
    (hstage : stage.Answered P env) : stage'.Answered P env := by
  obtain ⟨hpoint, -, hnext⟩ := Task.await.inj h
  have hrest : (stage.advance P D env w s).2.task P D env w =
      (stage'.advance P D env w s).2.task P D env w := by
    have hseg := congrArg (fun t => (Task.seg t s).2) hnext
    simpa only [Stage.seg_next] using hseg
  cases stage with
  | signature unlock =>
    cases stage' with
    | signature unlock' =>
      rcases advance_signature (P := P) (D := D) env w s unlock' with ⟨hyes, -⟩ | ⟨-, e, h'⟩
      · exact hyes
      · obtain ⟨-, b, h⟩ := (advance_signature (P := P) (D := D) env w s unlock).resolve_right
          fun hno => hno.1 hstage
        rw [h, h'] at hrest
        cases hrest
    | _ => cases hpoint
  | signatureRoot vaultRoot =>
    cases stage' with
    | signatureRoot vaultRoot' =>
      rcases advance_signatureRoot (P := P) (D := D) env w s vaultRoot' with ⟨hyes, -⟩ | ⟨-, e, h'⟩
      · exact hyes
      · obtain ⟨-, b, h⟩ :=
          (advance_signatureRoot (P := P) (D := D) env w s vaultRoot).resolve_right
            fun hno => hno.1 hstage
        rw [h, h'] at hrest
        cases hrest
    | _ => cases hpoint
  | _ => exact hstage.elim

/-- A call at a stage waits for an answer in a turn exactly when the stage says so. -/
theorem answered_iff {i k : Nat} {w : String} {stage : Stage} (hi : t.tabs[i]? = some p)
    (hk : p.threads[k]? = some (.unlockVault (some w) env, stage.rest P D env w)) :
    (Turn.act i (.resume k)).Answered P D t ↔ stage.Answered P env := by
  constructor
  · rintro ⟨i', k', q, w', env', stage', hturn, hi', hk', hstage⟩
    obtain ⟨rfl, hresume⟩ := Turn.act.inj hturn
    obtain rfl := TabAction.resume.inj hresume
    obtain rfl := Option.some.inj (hi.symm.trans hi')
    obtain ⟨hcall, hrest⟩ := Prod.mk.inj (Option.some.inj (hk.symm.trans hk'))
    obtain ⟨hw, rfl⟩ := SessionCall.unlockVault.inj hcall
    obtain rfl := Option.some.inj hw
    exact answered_of_rest hrest.symm p.state hstage
  · intro hstage
    exact ⟨i, k, p, w, env, stage, rfl, hi, hk, hstage⟩

/-- The pools of two browsers in which the same call is resumed. -/
theorem twin_resume (hP : P.Lawful) (hp : Pool.Twin TwinSession (TwinThread P D) p p') {k : Nat}
    {c c' : SessionCall} {point point' : UnlockPoint} {ready ready' : SessionManager → Bool}
    {next next' : SessionTask Unit} (hk : p.threads[k]? = some (c, .await point ready next))
    (hk' : p'.threads[k]? = some (c', .await point' ready' next'))
    (hanswered : ∀ w env stage w' env' stage',
      p.threads[k]? = some (.unlockVault (some w) env, Stage.rest P D env w stage) →
      p'.threads[k]? = some (.unlockVault (some w') env', Stage.rest P D env' w' stage') →
        (stage.Answered P env ↔ stage'.Answered P env')) :
    Pool.Twin TwinSession (TwinThread P D) (p.resume k c next) (p'.resume k c' next') := by
  obtain ⟨y, hy, hthread⟩ := hp.thread hk
  obtain rfl := Option.some.inj (hy.symm.trans hk')
  generalize hx : (c, Task.await point ready next) = x at hthread hk
  generalize hy' : (c', Task.await point' ready' next') = y at hthread hk'
  cases hthread with
  | settled d d' r r' => cases (Prod.mk.inj hx).2
  | @waiting w env env' henv stage stage' hstage =>
    obtain ⟨rfl, hrest⟩ := Prod.mk.inj hx
    obtain ⟨rfl, hrest'⟩ := Prod.mk.inj hy'
    obtain ⟨-, -, rfl⟩ := Task.await.inj hrest
    obtain ⟨-, -, rfl⟩ := Task.await.inj hrest'
    obtain ⟨hsession, hstatus⟩ := twin_advance (D := D) hP henv hp.state hstage
      (hanswered w env stage w env' stage' hk hk') w
    refine hp.resume k ?_ ?_
    · rw [Stage.seg_next, Stage.seg_next]
      exact hsession
    · rw [Stage.seg_next, Stage.seg_next]
      exact hstatus.thread w henv

theorem twins_start (now : Int) (storage : LocalStorage) :
    Twins P D (Tabs.start now storage) (Tabs.start now storage) := ⟨rfl, rfl, .nil⟩

/-- The pool of the same tab in the other browser. -/
theorem Twins.tab (h : Twins P D t t') {i : Nat} (hi : t.tabs[i]? = some p)
    (hi' : t'.tabs[i]? = some p') :
    Pool.Twin TwinSession (TwinThread P D) (t.view p) (t'.view p') := by
  obtain ⟨q, hq, hp⟩ := forall₂_getElem? h.tabs hi
  obtain rfl := Option.some.inj (hq.symm.trans hi')
  exact h.view hp

/-- Browsers that are alike stay so. -/
theorem Twins.step (hP : P.Lawful) {u u' : Tabs} (h : Twins P D t t')
    (hstep : TwinStep P D (t, t') (u, u')) : Twins P D u u' := by
  obtain ⟨hsame, htaken, htaken', hanswered⟩ := hstep
  cases hsame with
  | clock now =>
    cases htaken
    cases htaken'
    exact ⟨rfl, h.storage, h.tabs⟩
  | construct =>
    cases htaken
    cases htaken'
    have hfresh : TwinSession (freshSession P t.now t.storage)
        (freshSession P t'.now t'.storage) := by
      rw [h.now, h.storage]
      exact .refl _
    exact ⟨h.now, hfresh.localStorage, forall₂_concat h.tabs (.init hfresh)⟩
  | call i hc =>
    cases htaken with
    | call _ _ p c hi hmade htime =>
    cases htaken' with
    | call _ _ p' c' hi' hmade' htime' =>
      exact h.put i (twin_call (h.tab hi hi') hc (made_view hmade) (made_view hmade'))
  | resume i k =>
    cases htaken with
    | resume _ _ p _ c point ready next hi hk hready htime =>
    cases htaken' with
    | resume _ _ p' _ c' point' ready' next' hi' hk' hready' htime' =>
      refine h.put i (twin_resume hP (h.tab hi hi') hk hk' ?_)
      intro w env stage w' env' stage' hthread hthread'
      exact (answered_iff hi hthread).symm.trans (hanswered.trans (answered_iff hi' hthread'))
  | getVerified i =>
    cases htaken with
    | getVerified _ _ p hi =>
    cases htaken' with
    | getVerified _ _ p' hi' =>
      have hp := h.tab hi hi'
      refine h.put i ⟨?_, hp.threads⟩
      rw [← h.now]
      exact hp.state.getVerified t.now

end Steps

/-- After every turn of two such runs the storage of both browsers is the same. -/
theorem storage_noninterference (hP : P.Lawful) {now : Int} {storage : LocalStorage} {t t' : Tabs}
    (hrun : ReflTransGen (TwinStep P D) (Tabs.start now storage, Tabs.start now storage) (t, t')) :
    t.storage = t'.storage := by
  suffices h : ∀ b, ReflTransGen (TwinStep P D) (Tabs.start now storage, Tabs.start now storage) b →
      Twins P D b.1 b.2 from (h _ hrun).storage
  intro b hb
  induction hb with
  | refl => exact twins_start now storage
  | tail _ hstep ih => exact ih.step hP hstep

/-! ### Samples -/

section Samples

variable {now : Int} {w : String} {unlock unlock' : BuildUnlockResult} {b b' c c' : Bytes}
  {vaultRoot vaultRoot' : BuildVaultRootResult} {ts : List (SessionCall × SessionTask Unit)}

/-- A browser with one tab. -/
def oneTab (now : Int) (p : SessionPool) : Tabs := ⟨now, p.state.localStorage, [p]⟩

theorem resumedAt_verifiedAt (h : env.verifiedAt = now) (point : UnlockPoint) :
    (SessionCall.unlockVault (some w) env).ResumedAt now point := by
  unfold SessionCall.ResumedAt
  split
  · rename_i heq
    obtain ⟨-, rfl⟩ := SessionCall.unlockVault.inj heq
    exact h
  · trivial

/-- The only tab makes a call. -/
theorem taken_call {p : SessionPool} {c : SessionCall} (hmade : c.Made p.state) (htime : c.At now) :
    Taken P D (.act 0 (.call c)) (oneTab now p)
      (oneTab now ⟨c.update P p.state, p.threads ++ [(c, c.start P D p.state)]⟩) := by
  have h := Taken.call (P := P) (D := D) (oneTab now p) 0 p c rfl hmade htime
  rwa [call_eq] at h

/-- Its newest call is resumed. -/
theorem taken_newest {s s' : SessionManager} {stage : Stage} {status : Status}
    (h : stage.advance P D env w s = (s', status)) (htime : env.verifiedAt = now) :
    Taken P D (.act 0 (.resume ts.length)) (oneTab now (newest P D w env ts s (.waiting stage)))
      (oneTab now (newest P D w env ts s' status)) := by
  have hk : (newest P D w env ts s (.waiting stage)).threads[ts.length]? =
      some (.unlockVault (some w) env, stage.rest P D env w) := by simp [newest, Status.task]
  have hthreads : (newest P D w env ts s (.waiting stage)).threads.set ts.length
      (.unlockVault (some w) env, status.task P D env w) =
        (newest P D w env ts s' status).threads := by
    simp [newest]
  have htaken := Taken.resume (P := P) (D := D)
    (oneTab now (newest P D w env ts s (.waiting stage))) 0 _ ts.length _ _ _ _ rfl hk rfl
    (resumedAt_verifiedAt htime _)
  have hview : (oneTab now (newest P D w env ts s (.waiting stage))).view
      (newest P D w env ts s (.waiting stage)) = newest P D w env ts s (.waiting stage) := rfl
  rw [Pool.resume, Stage.seg_next, hview, show (newest P D w env ts s _).state = s from rfl, h,
    hthreads] at htaken
  exact htaken

/-- The newest calls of two such browsers are resumed. -/
theorem twinStep_newest {s s' s₁ s₁' : SessionManager} {stage stage' : Stage}
    {status status' : Status} (h : stage.advance P D env w s = (s₁, status))
    (h' : stage'.advance P D env' w s' = (s₁', status')) (htime : env.verifiedAt = now)
    (htime' : env'.verifiedAt = now)
    (hanswered : stage.Answered P env ↔ stage'.Answered P env') :
    TwinStep P D
      (oneTab now (newest P D w env ts s (.waiting stage)),
        oneTab now (newest P D w env' ts s' (.waiting stage')))
      (oneTab now (newest P D w env ts s₁ status),
        oneTab now (newest P D w env' ts s₁' status')) := by
  refine .intro (.resume 0 ts.length) (taken_newest h htime) (taken_newest h' htime') ?_
  have hk (env : UnlockEnv) (s : SessionManager) (stage : Stage) :
      (newest P D w env ts s (.waiting stage)).threads[ts.length]? =
        some (.unlockVault (some w) env, stage.rest P D env w) := by simp [newest, Status.task]
  rw [answered_iff (p := newest P D w env ts s (.waiting stage)) rfl (hk ..),
    answered_iff (p := newest P D w env' ts s' (.waiting stage')) rfl (hk ..)]
  exact hanswered

/-- Two wallets with the same key unlock the vault in two browsers. -/
theorem run_twin_unlock {s : SessionManager} (hw : s.walletPubKey = some w)
    (htime : env.verifiedAt = now) (htime' : env'.verifiedAt = now)
    (hunlock : UnlockSigned P D env w unlock b) (hunlock' : UnlockSigned P D env' w unlock' b')
    (hroot : VaultRootSigned P env (some w) vaultRoot c)
    (hroot' : VaultRootSigned P env' (some w) vaultRoot' c') :
    ReflTransGen (TwinStep P D)
      (oneTab now (newest P D w env ts s (.waiting .build)),
        oneTab now (newest P D w env' ts s (.waiting .build)))
      (oneTab now (newest P D w env ts (unlocked P env s unlock b vaultRoot c) (.settled (.ok ()))),
        oneTab now (newest P D w env' ts (unlocked P env' s unlock' b' vaultRoot' c')
          (.settled (.ok ())))) := by
  have hbuilt (env : UnlockEnv) {unlock b} {root : BuildVaultRootResult}
      (hbuilt : env.buildVaultRoot P (some w) = .ok root) :
      (Stage.buildRoot s.walletPubKey).advance P D env w (storedUnlock s unlock b) =
        (storedUnlock s unlock b, .waiting (.debugLogRoot root)) := by
    simp only [Stage.advance, hw, hbuilt]
  refine .head (twinStep_newest (hunlock.advance_build s) (hunlock'.advance_build s) htime htime'
    Iff.rfl) ?_
  refine .head (twinStep_newest rfl rfl htime htime' Iff.rfl) ?_
  refine .head (twinStep_newest (hunlock.advance_signature s) (hunlock'.advance_signature s) htime
    htime' (iff_of_true ⟨b, hunlock.answered⟩ ⟨b', hunlock'.answered⟩)) ?_
  refine .head (twinStep_newest (hunlock.advance_deriveKek _) (hunlock'.advance_deriveKek _) htime
    htime' Iff.rfl) ?_
  refine .head (twinStep_newest (hbuilt env hroot.built) (hbuilt env' hroot'.built) htime htime'
    Iff.rfl) ?_
  refine .head (twinStep_newest rfl rfl htime htime' Iff.rfl) ?_
  exact .single (twinStep_newest (hroot.advance_signatureRoot _) (hroot'.advance_signatureRoot _)
    htime htime' (iff_of_true ⟨c, hroot.answered⟩ ⟨c', hroot'.answered⟩))

/-- Two browsers in which a tab is opened and connects `w`, and `unlockVault` is called. -/
theorem run_twin_call (hne : w ≠ "") (henv : SameEnv env env') (htime : env.now = now)
    (storage : LocalStorage) : ∃ s ts, s.walletPubKey = some w ∧
      ReflTransGen (TwinStep P D) (Tabs.start now storage, Tabs.start now storage)
        (oneTab now (newest P D w env ts s (.waiting .build)),
          oneTab now (newest P D w env' ts s (.waiting .build))) := by
  let s := connectWallet P now (.text w) none (freshSession P now storage)
  let ts : List (SessionCall × SessionTask Unit) :=
    [(.connectWallet (.text w) none now, .done (.ok ()))]
  have hw : s.walletPubKey = some w := (connectWallet_walletPubKey ..).trans (normalized_text hne)
  have hcall {env : UnlockEnv} (htime : env.now = now) :
      Taken P D (.act 0 (.call (.unlockVault (some w) env))) (oneTab now ⟨s, ts⟩)
        (oneTab now (newest P D w env ts s (.waiting .build))) := by
    have h := taken_call (P := P) (D := D) (p := ⟨s, ts⟩) (c := .unlockVault (some w) env) hw htime
    rwa [start_unlockVault hw hne] at h
  have hconnect : Taken P D (.act 0 (.call (.connectWallet (.text w) none now)))
      (oneTab now (Pool.init (freshSession P now storage))) (oneTab now ⟨s, ts⟩) :=
    taken_call trivial rfl
  have hopen : Taken P D .construct (Tabs.start now storage)
      (oneTab now (Pool.init (freshSession P now storage))) := .construct _
  refine ⟨s, ts, hw, ?_⟩
  refine .head (.intro .construct hopen hopen Iff.rfl) ?_
  refine .head (.intro (.call 0 (.connectWallet ..)) hconnect hconnect Iff.rfl) ?_
  refine .single (.intro (.call 0 (.unlockVault _ _ henv)) (hcall htime)
    (hcall (henv.now.symm.trans htime)) ?_)
  -- nobody answers when a call is made
  constructor <;> rintro ⟨_, _, _, _, _, _, h, -⟩ <;> cases h

theorem unlocked_stores (h : env.storageWritable = true) (s : SessionManager) :
    ((unlocked P env s unlock b vaultRoot c).localStorage verifiedStorageKey).isSome = true := by
  simp [unlocked, markUnlocked, saveVerified, h, verifiedStorageKey, setItem]

/-- A wallet that answers everything with the byte 1. -/
def oneEnv : UnlockEnv := sampleEnv fun _ => [1]

/-- The same, with the byte 2, and another nonce and salt. -/
def twoEnv : UnlockEnv :=
  { sampleEnv fun _ => [2] with
    nonce := ⟨List.replicate 16 1, rfl⟩
    salt := ⟨List.replicate 32 1, rfl⟩ }

theorem sameEnv_sample : SameEnv oneEnv twoEnv := ⟨rfl, rfl, rfl, rfl, rfl, rfl⟩

theorem twoEnv_unlockSigned (hP : P.Lawful) (w : String) :
    ∃ unlock, UnlockSigned P sampleDates twoEnv w unlock [2] := by
  obtain ⟨unlock, hunlock⟩ := sampleEnv_unlockSigned hP (fun _ => [1]) w
  rcases sameEnv_sample.buildUnlock (D := sampleDates) hP w with
    ⟨e, e', h, -⟩ | ⟨unlock₁, unlock', h, h', hexpiry⟩
  · cases h.symm.trans hunlock.built
  · obtain rfl := Except.ok.inj (h.symm.trans hunlock.built)
    refine ⟨unlock', h', rfl, ?_⟩
    rw [← hexpiry.assertUnlockNotExpired]
    exact hunlock.unexpired

end Samples

/-- Two browsers unlock the vault of the same wallet with different signatures and nonces, and store
the same record. -/
theorem storage_noninterference_sample : ∃ t t' p p',
    ReflTransGen (TwinStep symbolic sampleDates)
      (Tabs.start 0 fun _ => none, Tabs.start 0 fun _ => none) (t, t') ∧
    t.tabs = [p] ∧ t'.tabs = [p'] ∧ p.state.lastUnlockSignatureBytes = some [1] ∧
    p'.state.lastUnlockSignatureBytes = some [2] ∧
    (t.storage verifiedStorageKey).isSome = true ∧ t.storage = t'.storage := by
  obtain ⟨unlock, hunlock⟩ := sampleEnv_unlockSigned symbolic_lawful (fun _ => [1]) "Wa11et"
  obtain ⟨unlock', hunlock'⟩ := twoEnv_unlockSigned symbolic_lawful "Wa11et"
  obtain ⟨vaultRoot, hroot⟩ :=
    sampleEnv_vaultRootSigned symbolic_lawful (fun _ => [1]) (some "Wa11et")
  obtain ⟨vaultRoot', hroot'⟩ :=
    sampleEnv_vaultRootSigned symbolic_lawful (fun _ => [2]) (some "Wa11et")
  have hroot' : VaultRootSigned symbolic twoEnv (some "Wa11et") vaultRoot' [2] :=
    ⟨hroot'.built, hroot'.answered⟩
  obtain ⟨s, ts, hw, hcall⟩ := run_twin_call (P := symbolic) (D := sampleDates) (w := "Wa11et")
    (by decide) sameEnv_sample rfl fun _ => none
  have hrun := hcall.trans (run_twin_unlock hw rfl rfl hunlock hunlock' hroot hroot')
  have hstored : ((unlocked symbolic oneEnv s unlock [1] vaultRoot [1]).localStorage
      verifiedStorageKey).isSome = true := unlocked_stores rfl s
  exact ⟨_, _, _, _, hrun, rfl, rfl, rfl, rfl, hstored,
    storage_noninterference symbolic_lawful hrun⟩

end SovereignJedi.Session
