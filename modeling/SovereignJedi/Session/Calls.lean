import SovereignJedi.Async.Pool
import SovereignJedi.Session.Unlock

/-! Calls of the session manager on one event loop. `connectWallet`, `lockVault` and
`disconnectWallet` run at once; `unlockVault` is suspended seven times, and what it does when it is
resumed is said once here, by `Stage.advance`. -/

namespace SovereignJedi.Session

open SovereignJedi.Js SovereignJedi.Crypto SovereignJedi.Async
open SovereignJedi.Manifest (LocalStorage)

/-! ### Operations -/

def verifiedStorageKey : String := "sj_verified_v1"

def clearVerified (s : LocalStorage) : LocalStorage := Function.update s verifiedStorageKey none

/-- The stored record, as it was parsed. -/
def VerifiedState.ofJson (j : Json) : VerifiedState where
  walletPubKey := j.get "walletPubKey"
  verifiedAt := j.get "verifiedAt"
  expiresAt := j.get "expiresAt"
  walletProvider := j.get "walletProvider"
  nonce := j.get "nonce"
  issuedAt := j.get "issuedAt"

/-- The stored record, unless it has expired; one with no time or an old one is removed. -/
def loadVerified (P : Platform) (now : Int) (s : LocalStorage) :
    LocalStorage × Option VerifiedState :=
  match s verifiedStorageKey with
  | none => (s, none)
  | some raw =>
    if raw = "" then (s, none)
    else match P.jsonParse raw with
      | .error _ => (s, none)
      | .ok parsed =>
        match parsed.get "expiresAt" with
        | some (.num expiresAt) =>
          if (now : ℚ) < expiresAt then (s, some (.ofJson parsed)) else (clearVerified s, none)
        | _ => (clearVerified s, none)

/-- `v === w`. -/
def isPubKey (v : Value) (w : Option String) : Bool :=
  match v, w with
  | some (.str v), some w => v == w
  | some .null, none => true
  | _, _ => false

/-- The argument of `connectWallet`. An object may have a `toBase58`; that and its conversion to a
string are `none` where they throw. -/
inductive PubKeyArg where
  | missing
  | text (s : String)
  | object (toBase58 : Option (Option String)) (string : Option String)

def PubKeyArg.normalized : PubKeyArg → Option String
  | .missing => none
  | .text s => if s = "" then none else some s
  | .object (some (some s)) _ => some s
  | .object (some none) string => string
  | .object none string => string

section Operations

variable (P : Platform) (now : Int)

/-- The verified record after a connection: that of another wallet is cleared, and that of this one
is loaded. -/
def reconcileVerified (pubKey : Option String) (s : SessionManager) : SessionManager :=
  let s := if s.verified.any fun v => !isPubKey v.walletPubKey pubKey then
      { s with verified := none, localStorage := clearVerified s.localStorage }
    else s
  if s.verified.isSome then s
  else
    let (storage, loaded) := loadVerified P now s.localStorage
    { s with
      localStorage := storage
      verified := loaded.filter fun v => isPubKey v.walletPubKey pubKey }

def clearMaterial (s : SessionManager) : SessionManager :=
  { s with
    lastUnlock := none
    lastUnlockSignatureBytes := none
    lastVaultRoot := none
    lastVaultRootSignatureBytes := none }

/-- `prevPubKey && prevPubKey !== normalizedPubKey`. -/
def hotSwitch (prevPubKey pubKey : Option String) : Bool :=
  prevPubKey.any (fun w => w != "") && prevPubKey != pubKey

def connectWallet (pubKey : PubKeyArg) (provider : Option String) (s : SessionManager) :
    SessionManager :=
  let connected := reconcileVerified P now pubKey.normalized { s with
    walletPubKey := pubKey.normalized
    walletProvider := provider.filter fun p => p != ""
    vaultUnlocked := false }
  if hotSwitch s.walletPubKey pubKey.normalized then clearMaterial connected else connected

end Operations

def lockVault (s : SessionManager) : SessionManager :=
  clearMaterial { s with vaultUnlocked := false }

def disconnectWallet (s : SessionManager) : SessionManager :=
  clearMaterial { s with
    walletPubKey := none
    walletProvider := none
    vaultUnlocked := false
    localStorage := clearVerified s.localStorage
    verified := none }

/-- A fresh session manager. -/
def freshSession (P : Platform) (now : Int) (s : LocalStorage) : SessionManager where
  walletPubKey := none
  walletProvider := none
  vaultUnlocked := false
  verified := (loadVerified P now s).2
  lastUnlock := none
  lastUnlockSignatureBytes := none
  lastVaultRoot := none
  lastVaultRootSignatureBytes := none
  localStorage := (loadVerified P now s).1

/-! ### Calls -/

/-- A call of an operation. `wallet` is the one that is connected when `unlockVault` is called. -/
inductive SessionCall where
  | connectWallet (pubKey : PubKeyArg) (provider : Option String) (now : Int)
  | lockVault
  | disconnectWallet
  | unlockVault (wallet : Option String) (env : UnlockEnv)

section Pools

variable (P : Platform) (D : Dates)

def SessionCall.body : SessionCall → SessionTask Unit
  | .connectWallet pubKey provider now => Task.modify (Session.connectWallet P now pubKey provider)
  | .lockVault => Task.modify Session.lockVault
  | .disconnectWallet => Task.modify Session.disconnectWallet
  | .unlockVault _ env => Session.unlockVault P D env

def SessionCall.Made : SessionCall → SessionManager → Prop
  | .unlockVault wallet _, s => s.walletPubKey = wallet
  | _, _ => True

abbrev SessionPool := Pool SessionCall UnlockPoint SessionManager JsError Unit

/-- One turn, with calls as `allowed` says, resumed as `resumable` says. -/
abbrev SessionStep (allowed : SessionCall → Prop)
    (resumable : SessionCall → UnlockPoint → SessionManager → Prop) : SessionPool → SessionPool → Prop :=
  Pool.Step (SessionCall.body P D) (fun c s => c.Made s ∧ allowed c) resumable

end Pools

/-! ### Stages of `unlockVault` -/

/-- Where `unlockVault` is suspended, with what it keeps for later. -/
inductive Stage where
  | build
  | debugLog (unlock : BuildUnlockResult)
  | signature (unlock : BuildUnlockResult)
  | deriveKek (unlock : BuildUnlockResult) (signatureBytes : Bytes)
  | buildRoot (wallet : Option String)
  | debugLogRoot (vaultRoot : BuildVaultRootResult)
  | signatureRoot (vaultRoot : BuildVaultRootResult)

def Stage.point : Stage → UnlockPoint
  | .build => .build .unlock
  | .debugLog _ => .debugLog .unlock
  | .signature _ => .signature .unlock
  | .deriveKek .. => .deriveKek
  | .buildRoot _ => .build .vaultRoot
  | .debugLogRoot _ => .debugLog .vaultRoot
  | .signatureRoot _ => .signature .vaultRoot

/-- A call of `unlockVault` is suspended, or it has settled. -/
inductive Status where
  | waiting (stage : Stage)
  | settled (result : Result Unit)

def missingUnlock : String := "No signature available from wallet/provider"

def missingRoot : String := "No vault-root signature available from wallet/provider"

section Stages

variable (P : Platform) (D : Dates) (env : UnlockEnv)

/-- What a call for `wallet` does when it is resumed: the new session, and where the call is
then. -/
def Stage.advance (wallet : String) (s : SessionManager) : Stage → SessionManager × Status
  | .build =>
    match env.buildUnlock P D wallet with
    | .ok unlock => (s, .waiting (.debugLog unlock))
    | .error e => (s, .settled (.error e))
  | .debugLog unlock => (s, .waiting (.signature unlock))
  | .signature unlock =>
    match env.answer P .unlock unlock.messageToSign with
    | .ok (some signatureBytes) =>
      ({ s with lastUnlock := some unlock, lastUnlockSignatureBytes := some signatureBytes },
        .waiting (.deriveKek unlock signatureBytes))
    | .ok none => (s, .settled (.error (.error missingUnlock)))
    | .error e => (s, .settled (.error e))
  | .deriveKek unlock signatureBytes =>
    match deriveKekFromUnlockSignature P D signatureBytes (some env.salt.1) unlock env.now with
    | .ok _ => (s, .waiting (.buildRoot s.walletPubKey))
    | .error e => (s, .settled (.error e))
  | .buildRoot wallet =>
    match env.buildVaultRoot P wallet with
    | .ok vaultRoot => (s, .waiting (.debugLogRoot vaultRoot))
    | .error e => (s, .settled (.error e))
  | .debugLogRoot vaultRoot => (s, .waiting (.signatureRoot vaultRoot))
  | .signatureRoot vaultRoot =>
    match env.answer P .vaultRoot vaultRoot.messageToSign with
    | .ok (some signatureBytes) =>
      (markUnlocked P env { s with
        lastVaultRoot := some vaultRoot
        lastVaultRootSignatureBytes := some signatureBytes }, .settled (.ok ()))
    | .ok none => (s, .settled (.error (.error missingRoot)))
    | .error e => (s, .settled (.error e))

/-! What is left of the call at each stage, as `unlockVault` has it. -/

def UnlockEnv.signed (r : Round) (messageToSign missing : String) : SessionTask Bytes := do
  match ← (Task.done (env.answer P r messageToSign) : SessionTask (Option Bytes)) with
  | some signatureBytes => return signatureBytes
  | none => throw (.error missing)

def storeUnlock (unlock : BuildUnlockResult) (signatureBytes : Bytes) : SessionTask Unit := do
  Task.modify fun s =>
    { s with lastUnlock := some unlock, lastUnlockSignatureBytes := some signatureBytes }
  let _ ← Task.op .deriveKek
    (deriveKekFromUnlockSignature P D signatureBytes (some env.salt.1) unlock env.now)

def storeRoot (vaultRoot : BuildVaultRootResult) (signatureBytes : Bytes) : SessionTask Unit :=
  Task.modify fun s =>
    { s with lastVaultRoot := some vaultRoot, lastVaultRootSignatureBytes := some signatureBytes }

def rootRest : SessionTask Unit := do
  vaultRootRound P env
  Task.modify (markUnlocked P env)

def Stage.next (wallet : String) : Stage → SessionTask Unit
  | .build =>
    ((Task.done (env.buildUnlock P D wallet)).bind fun unlock =>
      (env.sign P .unlock unlock.messageToSign missingUnlock).bind
        (storeUnlock P D env unlock)).bind fun _ => rootRest P env
  | .debugLog unlock =>
    ((Task.await (.signature .unlock) (fun _ => true)
      (env.signed P .unlock unlock.messageToSign missingUnlock)).bind
        (storeUnlock P D env unlock)).bind fun _ => rootRest P env
  | .signature unlock =>
    ((env.signed P .unlock unlock.messageToSign missingUnlock).bind
        (storeUnlock P D env unlock)).bind fun _ => rootRest P env
  | .deriveKek unlock signatureBytes =>
    ((Task.done (deriveKekFromUnlockSignature P D signatureBytes (some env.salt.1) unlock
      env.now)).bind fun _ => pure ()).bind fun _ => rootRest P env
  | .buildRoot wallet =>
    ((Task.done (env.buildVaultRoot P wallet)).bind fun vaultRoot =>
      (env.sign P .vaultRoot vaultRoot.messageToSign missingRoot).bind
        (storeRoot vaultRoot)).bind fun _ => Task.modify (markUnlocked P env)
  | .debugLogRoot vaultRoot =>
    ((Task.await (.signature .vaultRoot) (fun _ => true)
      (env.signed P .vaultRoot vaultRoot.messageToSign missingRoot)).bind
        (storeRoot vaultRoot)).bind fun _ => Task.modify (markUnlocked P env)
  | .signatureRoot vaultRoot =>
    ((env.signed P .vaultRoot vaultRoot.messageToSign missingRoot).bind
        (storeRoot vaultRoot)).bind fun _ => Task.modify (markUnlocked P env)

def Stage.rest (wallet : String) (stage : Stage) : SessionTask Unit :=
  .await stage.point (fun _ => true) (stage.next P D env wallet)

def Status.task (wallet : String) : Status → SessionTask Unit
  | .waiting stage => stage.rest P D env wallet
  | .settled r => .done r

variable {P D env}

/-- A resumed call does what its stage says. -/
theorem Stage.seg_next (stage : Stage) (wallet : String) (s : SessionManager) :
    (stage.next P D env wallet).seg s =
      ((stage.advance P D env wallet s).1,
        (stage.advance P D env wallet s).2.task P D env wallet) := by
  cases stage with
  | build =>
    simp only [next, advance]
    cases env.buildUnlock P D wallet <;> rfl
  | debugLog unlock => rfl
  | signature unlock =>
    simp only [next, advance, UnlockEnv.signed]
    cases env.answer P .unlock unlock.messageToSign with
    | error e => rfl
    | ok b => cases b <;> rfl
  | deriveKek unlock b =>
    simp only [next, advance]
    cases deriveKekFromUnlockSignature P D b (some env.salt.1) unlock env.now <;> rfl
  | buildRoot w =>
    simp only [next, advance]
    cases env.buildVaultRoot P w <;> rfl
  | debugLogRoot vaultRoot => rfl
  | signatureRoot vaultRoot =>
    simp only [next, advance, UnlockEnv.signed]
    cases env.answer P .vaultRoot vaultRoot.messageToSign with
    | error e => rfl
    | ok b => cases b <;> rfl

/-- The session changes only where a wallet has signed. -/
theorem Stage.advance_cases (stage : Stage) (wallet : String) (s : SessionManager) :
    (stage.advance P D env wallet s).1 = s ∨
    (∃ unlock b, stage = .signature unlock ∧
      env.answer P .unlock unlock.messageToSign = .ok (some b) ∧
      stage.advance P D env wallet s =
        ({ s with lastUnlock := some unlock, lastUnlockSignatureBytes := some b },
          .waiting (.deriveKek unlock b))) ∨
    ∃ vaultRoot b, stage = .signatureRoot vaultRoot ∧
      env.answer P .vaultRoot vaultRoot.messageToSign = .ok (some b) ∧
      stage.advance P D env wallet s =
        (markUnlocked P env
          { s with lastVaultRoot := some vaultRoot, lastVaultRootSignatureBytes := some b },
          .settled (.ok ())) := by
  cases stage with
  | debugLog unlock => exact Or.inl rfl
  | debugLogRoot vaultRoot => exact Or.inl rfl
  | build =>
    simp only [advance]
    split <;> exact Or.inl rfl
  | deriveKek unlock b =>
    simp only [advance]
    split <;> exact Or.inl rfl
  | buildRoot w =>
    simp only [advance]
    split <;> exact Or.inl rfl
  | signature unlock =>
    simp only [advance]
    split
    · exact Or.inr (Or.inl ⟨unlock, _, rfl, ‹_›, rfl⟩)
    · exact Or.inl rfl
    · exact Or.inl rfl
  | signatureRoot vaultRoot =>
    simp only [advance]
    split
    · exact Or.inr (Or.inr ⟨vaultRoot, _, rfl, ‹_›, rfl⟩)
    · exact Or.inl rfl
    · exact Or.inl rfl

/-- A call with a wallet connected is suspended at once, and one without throws. -/
theorem seg_unlockVault (s : SessionManager) :
    (unlockVault P D env).seg s =
      (s, match s.walletPubKey.filter fun w => w != "" with
        | none => .done (.error (.error "Wallet not connected"))
        | some wallet => Stage.rest P D env wallet .build) := by
  rw [unlockVault, Task.bind_def, Task.seg_get_bind]
  cases s.walletPubKey.filter fun w => w != "" <;> rfl

end Stages

/-! ### Turns -/

section Turns

variable {P : Platform} {D : Dates}

/-- What a call does before it is first suspended. -/
def SessionCall.update (P : Platform) : SessionCall → SessionManager → SessionManager
  | .connectWallet pubKey provider now, s => Session.connectWallet P now pubKey provider s
  | .lockVault, s => Session.lockVault s
  | .disconnectWallet, s => Session.disconnectWallet s
  | .unlockVault .., s => s

/-- What is left of a call then. -/
def SessionCall.start (P : Platform) (D : Dates) : SessionCall → SessionManager → SessionTask Unit
  | .unlockVault _ env, s =>
    match s.walletPubKey.filter fun w => w != "" with
    | none => .done (.error (.error "Wallet not connected"))
    | some wallet => Stage.rest P D env wallet .build
  | _, _ => .done (.ok ())

theorem SessionCall.seg_body (c : SessionCall) (s : SessionManager) :
    (c.body P D).seg s = (c.update P s, c.start P D s) := by
  cases c with
  | unlockVault wallet env => exact seg_unlockVault s
  | connectWallet pubKey provider now => rfl
  | lockVault => rfl
  | disconnectWallet => rfl

/-- `unlockVault` with a wallet connected is suspended at its first stage. -/
theorem start_unlockVault {s : SessionManager} {w : String} (hw : s.walletPubKey = some w)
    (hne : w ≠ "") (wallet : Option String) (env : UnlockEnv) :
    SessionCall.start P D (.unlockVault wallet env) s = Stage.rest P D env w .build := by
  simp [SessionCall.start, hw, hne, Option.filter_some]

/-- Without a wallet it throws. -/
theorem start_unlockVault_error {s : SessionManager} (h : ∀ w, s.walletPubKey = some w → w = "")
    (wallet : Option String) (env : UnlockEnv) :
    SessionCall.start P D (.unlockVault wallet env) s =
      .done (.error (.error "Wallet not connected")) := by
  rw [SessionCall.start]
  cases hw : s.walletPubKey with
  | none => rfl
  | some w =>
    rw [h w hw]
    rfl

section Staged

-- what is known of a call for this wallet at this stage
variable (Q : String → UnlockEnv → Stage → Prop)

/-- A call has settled, or it is an `unlockVault` at one of its stages. -/
inductive Standing (P : Platform) (D : Dates) : SessionCall → SessionTask Unit → Prop
  | settled (c : SessionCall) (r : Result Unit) : Standing P D c (.done r)
  | waiting (w : String) (hw : w ≠ "") (env : UnlockEnv) (stage : Stage) (hstage : Q w env stage) :
      Standing P D (.unlockVault (some w) env) (stage.rest P D env w)

/-- Every call in the pool stands so. -/
def Staged (P : Platform) (D : Dates) (p : SessionPool) : Prop :=
  ∀ (i : Nat) (c : SessionCall) (t : SessionTask Unit), p.threads[i]? = some (c, t) →
    Standing Q P D c t

variable {Q} {allowed : SessionCall → Prop}
  {resumable : SessionCall → UnlockPoint → SessionManager → Prop} {p q : SessionPool}

theorem staged_init (s : SessionManager) : Staged Q P D (Pool.init s) := by
  intro i c t hi
  simp [Pool.init] at hi

theorem standing_start {c : SessionCall} {s : SessionManager} (hc : c.Made s)
    (hbuild : ∀ w env, c = .unlockVault (some w) env → Q w env .build) :
    Standing Q P D c (c.start P D s) := by
  cases c with
  | unlockVault wallet env =>
    obtain rfl : s.walletPubKey = wallet := hc
    by_cases h : ∀ w, s.walletPubKey = some w → w = ""
    · rw [start_unlockVault_error h]
      exact .settled ..
    · push Not at h
      obtain ⟨w, hw, hne⟩ := h
      rw [start_unlockVault hw hne, hw]
      exact .waiting w hne env .build (hbuild w env (by rw [hw]))
  | connectWallet pubKey provider now => exact .settled ..
  | lockVault => exact .settled ..
  | disconnectWallet => exact .settled ..

theorem standing_task {w : String} (hw : w ≠ "") {env : UnlockEnv} {status : Status}
    (hstatus : ∀ stage, status = .waiting stage → Q w env stage) :
    Standing Q P D (.unlockVault (some w) env) (status.task P D env w) := by
  cases status with
  | waiting stage => exact .waiting w hw env stage (hstatus stage rfl)
  | settled r => exact .settled _ r

theorem Staged.waiting {i : Nat} {c : SessionCall} {point : UnlockPoint}
    {ready : SessionManager → Bool} {next : SessionTask Unit} (hp : Staged Q P D p)
    (hi : p.threads[i]? = some (c, .await point ready next)) :
    ∃ w env, ∃ stage : Stage, w ≠ "" ∧ Q w env stage ∧ c = .unlockVault (some w) env ∧
      point = stage.point ∧ .await point ready next = stage.rest P D env w ∧
      next = stage.next P D env w := by
  have hstanding := hp i c _ hi
  generalize ht : Task.await point ready next = t at hstanding
  cases hstanding with
  | settled c r => cases ht
  | waiting w hw env stage hstage =>
    obtain ⟨hpoint, -, hnext⟩ := Task.await.inj ht
    exact ⟨w, env, stage, hw, hstage, rfl, hpoint, rfl, hnext⟩

/-- What one turn can do. -/
theorem step_cases (hp : Staged Q P D p) (h : SessionStep P D allowed resumable p q) :
    (∃ c, c.Made p.state ∧ allowed c ∧
      q = ⟨c.update P p.state, p.threads ++ [(c, c.start P D p.state)]⟩) ∨
    ∃ (i : Nat) (w : String) (env : UnlockEnv) (stage : Stage),
      p.threads[i]? = some (.unlockVault (some w) env, stage.rest P D env w) ∧ w ≠ "" ∧
      Q w env stage ∧ resumable (.unlockVault (some w) env) stage.point p.state ∧
      q = ⟨(stage.advance P D env w p.state).1, p.threads.set i
        (.unlockVault (some w) env, (stage.advance P D env w p.state).2.task P D env w)⟩ := by
  cases h with
  | call c hc => exact Or.inl ⟨c, hc.1, hc.2, by rw [Pool.call, c.seg_body]⟩
  | resume i c point ready next hi hready hr =>
    obtain ⟨w, env, stage, hw, hstage, rfl, rfl, hrest, rfl⟩ := hp.waiting hi
    rw [hrest] at hi
    exact Or.inr ⟨i, w, env, stage, hi, hw, hstage, hr, by rw [Pool.resume, Stage.seg_next]⟩

/-- A call at a stage can be resumed. -/
theorem resume_stage {i : Nat} {w : String} {env : UnlockEnv} {stage : Stage}
    (hi : p.threads[i]? = some (.unlockVault (some w) env, stage.rest P D env w))
    (hr : resumable (.unlockVault (some w) env) stage.point p.state) :
    SessionStep P D allowed resumable p ⟨(stage.advance P D env w p.state).1, p.threads.set i
      (.unlockVault (some w) env, (stage.advance P D env w p.state).2.task P D env w)⟩ := by
  have h : SessionStep P D allowed resumable p (p.resume i _ (stage.next P D env w)) :=
    Pool.Step.resume i _ stage.point (fun _ => true) _ hi rfl hr
  rwa [Pool.resume, Stage.seg_next] at h

/-- The calls stay at their stages, where what is known of a stage is known of the next one. -/
theorem Staged.step
    (hbuild : ∀ w env, allowed (.unlockVault (some w) env) → Q w env .build)
    (hadvance : ∀ w env (stage stage' : Stage) s, Q w env stage →
      resumable (.unlockVault (some w) env) stage.point s →
      (stage.advance P D env w s).2 = .waiting stage' → Q w env stage')
    (hp : Staged Q P D p) (h : SessionStep P D allowed resumable p q) : Staged Q P D q := by
  intro j c t hj
  cases h with
  | call d hd =>
    rcases Pool.getElem?_call hj with hj | ⟨-, rfl, rfl⟩
    · exact hp j c t hj
    · rw [SessionCall.seg_body]
      exact standing_start hd.1 fun w env heq => hbuild w env (heq ▸ hd.2)
  | resume i d point ready next hi hready hr =>
    rcases Pool.getElem?_resume hi hj with ⟨-, hj⟩ | ⟨rfl, rfl, rfl⟩
    · exact hp j c t hj
    · obtain ⟨w, env, stage, hw, hstage, rfl, rfl, -, rfl⟩ := hp.waiting hi
      rw [Stage.seg_next]
      exact standing_task hw fun stage' heq => hadvance w env stage stage' _ hstage hr heq

end Staged

end Turns

end SovereignJedi.Session
