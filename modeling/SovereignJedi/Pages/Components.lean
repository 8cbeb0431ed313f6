import SovereignJedi.Manifest.Clusters
import SovereignJedi.Session.Locking
import SovereignJedi.Session.Tabs
import SovereignJedi.Wallet.Identity

/-! The components of the page that deal with the wallet, in one tab: `ConnectWallet`,
`IdentityStatus`, `VerifyWallet`, `UnlockVaultButton` and `RegistryPublishWidget`. Each renders what
the adapter and the session are then, and its effects run after a rendering whose dependencies are
new; a memo is computed anew for new dependencies only. -/

namespace SovereignJedi.Pages

open SovereignJedi.Js SovereignJedi.Crypto SovereignJedi.Async SovereignJedi.Session
open SovereignJedi.Manifest SovereignJedi.Wallet

/-! ### Components -/

/-- What a rendering of `ConnectWallet` or of the widget takes from the adapter and the session. -/
structure View where
  address : Option WalletPubKey
  walletPubKey : Option String
  deriving DecidableEq

/-- The memo `localManifestCid` of `ConnectWallet`, with its dependency and the storage that it was
computed from. -/
structure CidMemo where
  walletPubKey : Option String
  localManifestCid : Option String
  storage : LocalStorage

/-- `ConnectWallet`: what it has rendered last, its memo, and the dependencies with which its sync
effect ran last. -/
structure ConnectWallet where
  view : View
  memo : CidMemo
  synced : Option View
  publicKeyStr : Option WalletPubKey
  onChainLatestManifestCid : Option String
  isVerified : Bool
  publishing : Bool

/-- `IdentityStatus`: what it has rendered last, and the dependency of its effect. -/
structure IdentityStatus where
  isWalletConnected : Bool
  effect : Option Bool

/-- `RegistryPublishWidget`. `listening` is the wallet for which its effect ran last, and whose
pointer its listener reads. -/
structure RegistryPublishWidget where
  view : View
  localManifestCid : Option String
  listening : Option (Option String)
  onChainLatestManifestCid : Option String
  registryError : Option String
  loading : Bool

/-- A transaction with an `append_manifest` that a click sends, with the wallet of the session and
the storage at that moment. -/
structure SentManifest where
  signer : WalletPubKey
  manifestCid : String
  sessionWallet : Option String
  storage : LocalStorage

/-- The tab. `verifications` are the wallets of the verifications in progress, `disconnects` counts
the clicks on the disconnect button that await the adapter, and `restores` are those on the restore
button, with the wallet and the CID of their closures. -/
structure Panel where
  now : Int
  adapter : Option WalletPubKey
  session : SessionPool
  connect : ConnectWallet
  identity : IdentityStatus
  widget : RegistryPublishWidget
  verifications : List WalletPubKey
  disconnects : Nat
  restores : List (String × String)
  sent : List SentManifest

/-- `getManifestCid` where no wallet and an error count as no pointer. -/
def localManifestCid (cluster walletPubKey : Option String) (s : LocalStorage) :
    LocalStorage × Option String :=
  match walletPubKey.filter fun w => w != "" with
  | none => (s, none)
  | some w =>
    match getManifestCid cluster w s with
    | .ok read => read
    | .error _ => (s, none)

def ConnectWallet.isUpToDate (c : ConnectWallet) : Bool :=
  c.memo.localManifestCid == c.onChainLatestManifestCid

/-- The button "Publish to Solana" of `ConnectWallet` is there and enabled. -/
def ConnectWallet.canPublish (c : ConnectWallet) : Bool :=
  c.publicKeyStr.isSome && c.isVerified && c.memo.localManifestCid.any (fun cid => cid != "") &&
    !c.isUpToDate && !c.publishing

def RegistryPublishWidget.canPublish (c : RegistryPublishWidget) : Bool :=
  c.view.walletPubKey.any (fun w => w != "") && c.localManifestCid.any (fun cid => cid != "") &&
    c.localManifestCid != c.onChainLatestManifestCid && !c.loading &&
    !c.registryError.any fun e => e != ""

/-- The restore button is there and enabled. -/
def RegistryPublishWidget.canRestore (c : RegistryPublishWidget) : Bool :=
  !c.localManifestCid.any (fun cid => cid != "") &&
    c.onChainLatestManifestCid.any (fun cid => cid != "") && !c.loading

namespace Panel

def storage (p : Panel) : LocalStorage := p.session.state.localStorage

def sessionWallet (p : Panel) : Option String := p.session.state.walletPubKey

/-- What a rendering takes now. -/
def current (p : Panel) : View := ⟨p.adapter, p.sessionWallet⟩

def isWalletConnected (p : Panel) : Bool := p.sessionWallet.any fun w => w != ""

def withSession (p : Panel) (s : SessionManager) : Panel :=
  { p with session := { p.session with state := s } }

def onStorage (p : Panel) (f : LocalStorage → LocalStorage) : Panel :=
  p.withSession { p.session.state with localStorage := f p.storage }

/-- The page when it is opened, rendered once, with no effect run yet. -/
def mount (P : Platform) (now : Int) (s : LocalStorage) (isVerified : Bool) : Panel where
  now
  adapter := none
  session := Pool.init (freshSession P now s)
  connect := ⟨⟨none, none⟩, ⟨none, none, s⟩, none, none, none, isVerified, false⟩
  identity := ⟨false, none⟩
  widget := ⟨⟨none, none⟩, none, none, none, none, false⟩
  verifications := []
  disconnects := 0
  restores := []
  sent := []

end Panel

/-! ### Actions -/

/-- What happens in the tab. `adapter` is an event of the wallet adapter, with the wallet that it is
connected to from then on; `registry` is what the hooks learn from the chain, `setManifestCid` a
pointer that an append or other code stores, and `refresh` that of a `useSession`. -/
inductive Action where
  | tick (now : Int)
  | adapter (wallet : Option WalletPubKey)
  | registry (connectHead widgetHead registryError : Option String)
  | refresh
  | renderConnect
  | syncSession
  | renderIdentity
  | clearUnconnected
  | renderWidget
  | readPointer
  | unlockVault (env : UnlockEnv)
  | lockVault
  | resume (k : Nat)
  | verify
  | verified (i : Nat) (env : VerifyEnv) (writable : Bool)
  | clearIdentity
  | disconnect
  | disconnected
  | setManifestCid (w : WalletPubKey) (cid : String)
  | removeManifestCid (w : WalletPubKey)
  | restore
  | restored (i : Nat)
  | publishConnect
  | publishWidget
  | published

namespace Panel

section Apply

variable (P : Platform) (D : Dates) (C : TextCodecs)

def call (p : Panel) (c : SessionCall) : Panel :=
  { p with session := p.session.call (SessionCall.body P D) c }

/-- Call `k` goes on, if it can. -/
def resume (p : Panel) (k : Nat) : Panel :=
  match p.session.threads[k]? with
  | some (c, .await _ ready next) =>
    if ready p.session.state then { p with session := p.session.resume k c next } else p
  | _ => p

/-- A rendering of `ConnectWallet`, with its memo. -/
def renderConnect (p : Panel) : Panel :=
  let connect := { p.connect with view := p.current }
  if p.connect.memo.walletPubKey = p.sessionWallet then { p with connect }
  else
    let read := localManifestCid P.cluster p.sessionWallet p.storage
    { p.onStorage fun _ => read.1 with
      connect := { connect with memo := ⟨p.sessionWallet, read.2, p.storage⟩ } }

/-- The sync effect of `ConnectWallet`: it connects the session, and never disconnects it. -/
def syncSession (p : Panel) : Panel :=
  if p.connect.synced = some p.connect.view then p
  else
    let p := { p with connect := { p.connect with
      synced := some p.connect.view, publicKeyStr := p.connect.view.address } }
    match p.connect.view.address with
    | some w => p.call P D (.connectWallet (.text w.val) (some "phantom") p.now)
    | none => p

/-- The effect of `IdentityStatus`. -/
def clearUnconnected (p : Panel) : Panel :=
  if p.identity.effect = some p.identity.isWalletConnected then p
  else
    let p := { p with identity := { p.identity with effect := some p.identity.isWalletConnected } }
    if p.identity.isWalletConnected then p
    else (p.onStorage Wallet.clearIdentity).call P D .lockVault

/-- The widget reads the pointer of a wallet. -/
def refreshWidget (p : Panel) (walletPubKey : Option String) : Panel :=
  let read := localManifestCid P.cluster walletPubKey p.storage
  { p.onStorage fun _ => read.1 with widget := { p.widget with localManifestCid := read.2 } }

/-- The effect of the widget. -/
def readPointer (p : Panel) : Panel :=
  if p.widget.listening = some p.widget.view.walletPubKey then p
  else Panel.refreshWidget P
    { p with widget := { p.widget with listening := some p.widget.view.walletPubKey } }
    p.widget.view.walletPubKey

/-- The widget's listener for `sj:manifestCidChanged`. -/
def manifestCidChanged (p : Panel) : Panel :=
  match p.widget.listening.join.filter fun w => w != "" with
  | some w => p.refreshWidget P (some w)
  | none => p

def setManifestCid (p : Panel) (walletPubKey cid : String) : Result Panel :=
  (Manifest.setManifestCid P.cluster walletPubKey cid p.storage).map fun s =>
    (p.onStorage fun _ => s).manifestCidChanged P

/-- `disconnect` after the adapter: the session is left to the sync effect. -/
def afterDisconnect (p : Panel) : Panel :=
  { p.onStorage fun s => clearLastWalletProvider (Wallet.clearIdentity s) with
    connect := { p.connect with publicKeyStr := none } }

/-- `publishManifest` of a `useSession` that was rendered with the adapter's wallet. -/
def publishManifest (p : Panel) (wallet : Option WalletPubKey) (cid : String) : Panel :=
  match wallet with
  | some signer => { p with sent := p.sent ++ [⟨signer, cid, p.sessionWallet, p.storage⟩] }
  | none => p

/-- `doVerify` of `VerifyWallet`, when the wallet has answered. -/
def finishVerify (p : Panel) (i : Nat) (env : VerifyEnv) (writable : Bool) : Panel :=
  match p.verifications[i]? with
  | some w =>
    let p := { p with verifications := p.verifications.eraseIdx i }
    match doVerify P D C env w.val with
    | .ok identity => p.onStorage (saveIdentity P writable identity)
    | .error _ => p
  | none => p

/-- `clear` of `IdentityStatus`. -/
def clearIdentity (p : Panel) : Panel := (p.onStorage Wallet.clearIdentity).call P D .lockVault

/-- `disconnect` of `ConnectWallet`, up to the adapter. -/
def clickDisconnect (p : Panel) : Panel :=
  match p.adapter with
  | some _ => { p with disconnects := p.disconnects + 1 }
  | none => p.afterDisconnect

def finishDisconnect (p : Panel) : Panel :=
  match p.disconnects with
  | n + 1 => { p.afterDisconnect with disconnects := n }
  | 0 => p

def storePointer (p : Panel) (walletPubKey cid : String) : Panel :=
  match p.setManifestCid P walletPubKey cid with
  | .ok q => q
  | .error _ => p

/-- `removeManifestCid`, which tells nobody. -/
def dropPointer (p : Panel) (walletPubKey : String) : Panel :=
  match removeManifestCid true P.cluster walletPubKey p.storage with
  | .ok s => p.onStorage fun _ => s
  | .error _ => p

/-- `handleRestore` up to its import. -/
def clickRestore (p : Panel) : Panel :=
  match p.widget.view.walletPubKey.filter (fun w => w != ""), p.widget.onChainLatestManifestCid with
  | some w, some cid => { p with
      restores := p.restores ++ [(w, cid)], widget := { p.widget with loading := true } }
  | _, _ => p

def finishRestore (p : Panel) (i : Nat) : Panel :=
  match p.restores[i]? with
  | some (w, cid) =>
    let p := { p with
      restores := p.restores.eraseIdx i, widget := { p.widget with loading := false } }
    match p.setManifestCid P w cid with
    | .ok q => { q with widget := { q.widget with localManifestCid := some cid } }
    | .error _ => p
  | none => p

/-- The button of `ConnectWallet`. -/
def clickPublish (p : Panel) : Panel :=
  match p.connect.memo.localManifestCid with
  | some cid => { p.publishManifest p.connect.view.address cid with
      connect := { p.connect with publishing := true } }
  | none => p

/-- The button of the widget. -/
def handlePublish (p : Panel) : Panel :=
  match p.widget.localManifestCid with
  | some cid => { p.publishManifest p.widget.view.address cid with
      widget := { p.widget with loading := true } }
  | none => p

def apply (p : Panel) : Action → Panel
  | .tick now => { p with now }
  | .adapter wallet => { p with adapter := wallet }
  | .registry connectHead widgetHead registryError => { p with
      connect := { p.connect with onChainLatestManifestCid := connectHead }
      widget := { p.widget with onChainLatestManifestCid := widgetHead, registryError } }
  | .refresh => p.withSession (getVerified P p.now p.session.state).1
  | .renderConnect => p.renderConnect P
  | .syncSession => p.syncSession P D
  | .renderIdentity => { p with
      identity := { p.identity with isWalletConnected := p.isWalletConnected } }
  | .clearUnconnected => p.clearUnconnected P D
  | .renderWidget => { p with widget := { p.widget with view := p.current } }
  | .readPointer => p.readPointer P
  | .unlockVault env => p.call P D (.unlockVault p.sessionWallet env)
  | .lockVault => p.call P D .lockVault
  | .resume k => p.resume k
  | .verify => { p with verifications := p.verifications ++ p.adapter.toList }
  | .verified i env writable => p.finishVerify P D C i env writable
  | .clearIdentity => p.clearIdentity P D
  | .disconnect => p.clickDisconnect
  | .disconnected => p.finishDisconnect
  | .setManifestCid w cid => p.storePointer P w.val cid
  | .removeManifestCid w => p.dropPointer P w.val
  | .restore => p.clickRestore
  | .restored i => p.finishRestore P i
  | .publishConnect => p.clickPublish
  | .publishWidget => p.handlePublish
  | .published => { p with
      connect := { p.connect with publishing := false }
      widget := { p.widget with loading := false } }

end Apply

/-! ### Runs -/

/-- Everything is rendered, and no effect is pending. -/
structure Settled (p : Panel) : Prop where
  connect : p.connect.view = p.current
  synced : p.connect.synced = some p.connect.view
  identity : p.identity.isWalletConnected = p.isWalletConnected
  identityEffect : p.identity.effect = some p.identity.isWalletConnected
  widget : p.widget.view = p.current
  listening : p.widget.listening = some p.widget.view.walletPubKey

/-- What may happen. The adapter changes only after the sync effect has run for its last change; the
publish buttons are clicked only when all effects and the handlers before have run. -/
def Allows (p : Panel) : Action → Prop
  | .tick now => p.now ≤ now
  | .adapter _ => p.connect.synced.map View.address = some p.adapter
  | .restore => p.widget.canRestore = true
  | .publishConnect => p.Settled ∧ p.restores = [] ∧ p.connect.canPublish = true
  | .publishWidget => p.Settled ∧ p.restores = [] ∧ p.widget.canPublish = true
  | _ => True

section Runs

variable (P : Platform) (D : Dates) (C : TextCodecs) (cond : Panel → Action → Prop)

/-- The actions lead from `p` to `q`, each one where it may happen and where `cond` holds of it. -/
def Run : Panel → List Action → Panel → Prop
  | p, [], q => q = p
  | p, a :: as, q => p.Allows a ∧ cond p a ∧ Run (p.apply P D C a) as q

variable {P D C cond}

/-- What every action preserves holds after a run. -/
theorem Run.invariant (Inv : Panel → Prop)
    (hstep : ∀ p a, Inv p → p.Allows a → cond p a → Inv (p.apply P D C a)) {p q : Panel}
    {as : List Action} (hrun : Run P D C cond p as q) (hp : Inv p) : Inv q := by
  induction as generalizing p with
  | nil => exact hrun ▸ hp
  | cons a as ih => exact ih hrun.2.2 (hstep p a hp hrun.1 hrun.2.1)

theorem Run.append {p q r : Panel} {as bs : List Action} (h : Run P D C cond p as q)
    (h' : Run P D C cond q bs r) : Run P D C cond p (as ++ bs) r := by
  induction as generalizing p with
  | nil => exact h ▸ h'
  | cons a as ih => exact ⟨h.1, h.2.1, ih h.2.2⟩

end Runs

end Panel

/-! ### Records in the storage -/

/-- The keys of the records that are no pointers. -/
def IsRecord (k : String) : Prop := k.toList[2]? = some '_'

theorem isRecord_verified : IsRecord verifiedStorageKey := by
  unfold IsRecord
  decide

theorem isRecord_identity : IsRecord storageKeyIdentity := by
  unfold IsRecord
  decide

theorem isRecord_lastProvider : IsRecord storageKeyLastProvider := by
  unfold IsRecord
  decide

theorem pointerKey_ne {k rest : String} (hk : IsRecord k) : manifestCidPrefix ++ rest ≠ k := by
  rintro rfl
  simp [IsRecord, manifestCidPrefix, String.toList_append] at hk

/-- The storages differ in records only. -/
def EqualPointers (cluster : Option String) (s s' : LocalStorage) : Prop :=
  ∀ w, pointer cluster w s' = pointer cluster w s

theorem equalPointers_of_records {cluster : Option String} {s s' : LocalStorage}
    (h : ∀ k, ¬ IsRecord k → s' k = s k) : EqualPointers cluster s s' := by
  intro w
  have hscoped : ¬ IsRecord (scopedKey cluster w.val) := by
    intro hk
    rw [scopedKey, String.append_assoc, String.append_assoc] at hk
    exact pointerKey_ne hk rfl
  have hlegacy : ¬ IsRecord (legacyKey w.val) := fun hk => pointerKey_ne hk rfl
  rw [pointer, pointer, h _ hscoped, h _ hlegacy]

/-- An update at the key of a record. -/
theorem update_record {k : String} (hk : IsRecord k) (s : LocalStorage) (v : Option String) :
    ∀ k', ¬ IsRecord k' → (Function.update s k v : LocalStorage) k' = s k' := by
  intro k' hk'
  have hne : k' ≠ k := by
    rintro rfl
    exact hk' hk
  exact Function.update_of_ne hne v s

theorem loadVerified_records (P : Platform) (now : Int) (s : LocalStorage) :
    ∀ k, ¬ IsRecord k → (loadVerified P now s).1 k = s k := by
  rcases loadVerified_storage (P := P) now s with h | h
  · exact fun k _ => by rw [h]
  · rw [h]
    exact update_record isRecord_verified s none

theorem connectWallet_records (P : Platform) (now : Int) (pubKey : PubKeyArg)
    (provider : Option String) (s : SessionManager) :
    ∀ k, ¬ IsRecord k →
      (connectWallet P now pubKey provider s).localStorage k = s.localStorage k := by
  rw [connectWallet_localStorage]
  rcases reconcileVerified_cases P now pubKey.normalized (connecting pubKey provider s) with
    ⟨-, h⟩ | ⟨-, h⟩ | ⟨-, h⟩ <;> rw [h]
  · exact update_record isRecord_verified s.localStorage none
  · exact fun _ _ => rfl
  · exact loadVerified_records P now s.localStorage

theorem advance_records {P : Platform} {D : Dates} (stage : Stage) (w : String) (env : UnlockEnv)
    (s : SessionManager) : ∀ k, ¬ IsRecord k →
      (stage.advance P D env w s).1.localStorage k = s.localStorage k := by
  rcases stage.advance_cases (P := P) (D := D) w s with
    h | ⟨unlock, b, -, -, h⟩ | ⟨vaultRoot, b, -, -, h⟩
  · exact fun _ _ => by rw [h]
  · exact fun _ _ => by rw [h]
  · intro k hk
    rw [h]
    simp only [markUnlocked, saveVerified]
    split
    · exact update_record isRecord_verified s.localStorage _ k hk
    · rfl

/-- An update at a pointer's key. -/
theorem update_pointerKey (rest : String) (s : LocalStorage) (v : Option String) :
    ∀ k, IsRecord k → (Function.update s (manifestCidPrefix ++ rest) v : LocalStorage) k = s k :=
  fun _ hk => Function.update_of_ne (pointerKey_ne hk).symm v s

theorem migrate_records (cluster : Option String) (pk : String) (s : LocalStorage) :
    ∀ k, IsRecord k → migrate cluster pk s k = s k := by
  have hmigrate : migrate cluster pk s = s ∨
      ∃ v, migrate cluster pk s = setItem s (scopedKey cluster pk) v := by
    unfold migrate
    split
    · split
      · exact Or.inl rfl
      · exact Or.inr ⟨_, rfl⟩
    · exact Or.inl rfl
  intro k hk
  rcases hmigrate with h | ⟨v, h⟩ <;> rw [h]
  rw [scopedKey, String.append_assoc, String.append_assoc]
  exact update_pointerKey _ s _ k hk

theorem localManifestCid_records (cluster walletPubKey : Option String) (s : LocalStorage) :
    ∀ k, IsRecord k → (localManifestCid cluster walletPubKey s).1 k = s k := by
  intro k hk
  unfold localManifestCid
  split
  · rfl
  · split
    · rename_i w hw read hread
      simp only [getManifestCid, bind_eq_ok, result_pure, Except.ok.injEq] at hread
      obtain ⟨pk, -, key, -, rfl⟩ := hread
      exact migrate_records cluster pk s k hk
    · rfl

theorem setManifestCid_records {cluster : Option String} {w cid : String} {s s' : LocalStorage}
    (h : setManifestCid cluster w cid s = .ok s') : ∀ k, IsRecord k → s' k = s k := by
  unfold setManifestCid at h
  split at h
  · cases h
  · simp only [buildManifestStorageKey, bind_eq_ok, result_pure, Except.ok.injEq] at h
    obtain ⟨pk, -, key, ⟨pk', -, rfl⟩, rfl⟩ := h
    rw [scopedKey, String.append_assoc, String.append_assoc]
    exact update_pointerKey _ s _

theorem removeManifestCid_records {b : Bool} {cluster : Option String} {w : String}
    {s s' : LocalStorage} (h : removeManifestCid b cluster w s = .ok s') :
    ∀ k, IsRecord k → s' k = s k := by
  simp only [removeManifestCid, buildManifestStorageKey, bind_eq_ok, result_pure,
    Except.ok.injEq] at h
  obtain ⟨pk, -, key, ⟨pk', -, rfl⟩, rfl⟩ := h
  rw [scopedKey, String.append_assoc, String.append_assoc]
  split
  · exact update_pointerKey _ s _
  · exact update_pointerKey _ s _

theorem localManifestCid_val (cluster : Option String) (w : WalletPubKey) (s : LocalStorage) :
    localManifestCid cluster (some w.val) s = (migrate cluster w.val s, pointer cluster w s) := by
  have hne : (w.val != "") = true := by simpa using w.ne
  simp [localManifestCid, Option.filter_some, hne, getManifestCid_val]

/-! ### What an action leaves as it is -/

namespace Panel

variable {P : Platform} {D : Dates} {C : TextCodecs} {p q r : Panel}

/-- What most actions leave as it is: all but records of the storage, and calls of the session. -/
structure Quiet (cluster : Option String) (p q : Panel) : Prop where
  adapter : q.adapter = p.adapter
  wallet : q.sessionWallet = p.sessionWallet
  view : q.connect.view = p.connect.view
  memo : q.connect.memo = p.connect.memo
  synced : q.connect.synced = p.connect.synced
  rendered : q.widget.view = p.widget.view
  listening : q.widget.listening = p.widget.listening
  copy : q.widget.localManifestCid = p.widget.localManifestCid
  restores : q.restores = p.restores
  pointers : EqualPointers cluster p.storage q.storage
  sent : q.sent = p.sent

theorem Quiet.refl (cluster : Option String) (p : Panel) : Quiet cluster p p :=
  ⟨rfl, rfl, rfl, rfl, rfl, rfl, rfl, rfl, rfl, fun _ => rfl, rfl⟩

theorem Quiet.trans {cluster : Option String} (h : Quiet cluster p q) (h' : Quiet cluster q r) :
    Quiet cluster p r :=
  ⟨h'.adapter.trans h.adapter, h'.wallet.trans h.wallet, h'.view.trans h.view, h'.memo.trans h.memo,
    h'.synced.trans h.synced, h'.rendered.trans h.rendered, h'.listening.trans h.listening,
    h'.copy.trans h.copy, h'.restores.trans h.restores,
    fun w => (h'.pointers w).trans (h.pointers w), h'.sent.trans h.sent⟩

/-- A change of the session that keeps its wallet and the pointers. -/
theorem quiet_session {cluster : Option String} {session : SessionPool}
    (hwallet : session.state.walletPubKey = p.sessionWallet)
    (hstorage : ∀ k, ¬ IsRecord k → session.state.localStorage k = p.storage k) :
    Quiet cluster p { p with session } :=
  ⟨rfl, hwallet, rfl, rfl, rfl, rfl, rfl, rfl, rfl, equalPointers_of_records hstorage, rfl⟩

theorem quiet_onStorage {cluster : Option String} {f : LocalStorage → LocalStorage}
    (h : ∀ k, ¬ IsRecord k → f p.storage k = p.storage k) : Quiet cluster p (p.onStorage f) :=
  quiet_session rfl h

theorem call_session (p : Panel) (c : SessionCall) : (p.call P D c).session =
    ⟨c.update P p.session.state, p.session.threads ++ [(c, c.start P D p.session.state)]⟩ := by
  rw [call, Pool.call, SessionCall.seg_body]

theorem quiet_lockVault (cluster : Option String) (p : Panel) :
    Quiet cluster p (p.call P D .lockVault) := by
  refine quiet_session ?_ fun k _ => ?_ <;> rw [Pool.call, SessionCall.seg_body] <;> rfl

theorem quiet_unlockVault (cluster : Option String) (p : Panel) (w : Option String)
    (env : UnlockEnv) : Quiet cluster p (p.call P D (.unlockVault w env)) := by
  refine quiet_session ?_ fun k _ => ?_ <;> rw [Pool.call, SessionCall.seg_body] <;> rfl

/-- Every call of the session stands at a stage. -/
abbrev Standing (P : Platform) (D : Dates) (p : Panel) : Prop :=
  Staged (fun _ _ _ => True) P D p.session

theorem quiet_resume (cluster : Option String) (hp : p.Standing P D) (k : Nat) :
    Quiet cluster p (p.resume k) := by
  unfold resume
  split
  · rename_i c point ready next hk
    split
    · obtain ⟨w, env, stage, -, -, -, -, -, rfl⟩ := hp.waiting hk
      refine quiet_session ?_ fun k hrecord => ?_
      · rw [Pool.resume, Stage.seg_next]
        rcases stage.advance_cases (P := P) (D := D) w p.session.state with
          h | ⟨unlock, b, -, -, h⟩ | ⟨vaultRoot, b, -, -, h⟩ <;> rw [h] <;> rfl
      · rw [Pool.resume, Stage.seg_next]
        exact advance_records stage w env p.session.state k hrecord
    · exact .refl cluster p
  · exact .refl cluster p

theorem quiet_clearIdentity (cluster : Option String) (p : Panel) :
    Quiet cluster p (p.clearIdentity P D) :=
  (quiet_onStorage (update_record isRecord_identity _ _)).trans (quiet_lockVault cluster _)

theorem quiet_clearUnconnected (cluster : Option String) (p : Panel) :
    Quiet cluster p (p.clearUnconnected P D) := by
  unfold clearUnconnected
  split
  · exact .refl cluster p
  · dsimp only
    split
    · exact ⟨rfl, rfl, rfl, rfl, rfl, rfl, rfl, rfl, rfl, fun _ => rfl, rfl⟩
    · have h : Quiet cluster p { p with
          identity := { p.identity with effect := some p.identity.isWalletConnected } } :=
        ⟨rfl, rfl, rfl, rfl, rfl, rfl, rfl, rfl, rfl, fun _ => rfl, rfl⟩
      exact h.trans (quiet_clearIdentity cluster _)

theorem quiet_finishVerify (cluster : Option String) (p : Panel) (i : Nat) (env : VerifyEnv)
    (writable : Bool) : Quiet cluster p (p.finishVerify P D C i env writable) := by
  unfold finishVerify
  split
  · have h : Quiet cluster p { p with verifications := p.verifications.eraseIdx i } :=
      ⟨rfl, rfl, rfl, rfl, rfl, rfl, rfl, rfl, rfl, fun _ => rfl, rfl⟩
    dsimp only
    split
    · refine h.trans (quiet_onStorage ?_)
      unfold saveIdentity
      split
      · exact update_record isRecord_identity _ _
      · exact fun _ _ => rfl
    · exact h
  · exact .refl cluster p

theorem quiet_afterDisconnect (cluster : Option String) (p : Panel) :
    Quiet cluster p p.afterDisconnect := by
  refine ⟨rfl, rfl, rfl, rfl, rfl, rfl, rfl, rfl, rfl,
    equalPointers_of_records fun k hk => ?_, rfl⟩
  exact (update_record isRecord_lastProvider _ _ k hk).trans
    (update_record isRecord_identity _ _ k hk)

theorem quiet_clickDisconnect (cluster : Option String) (p : Panel) :
    Quiet cluster p p.clickDisconnect := by
  unfold clickDisconnect
  split
  · exact ⟨rfl, rfl, rfl, rfl, rfl, rfl, rfl, rfl, rfl, fun _ => rfl, rfl⟩
  · exact quiet_afterDisconnect cluster p

theorem quiet_finishDisconnect (cluster : Option String) (p : Panel) :
    Quiet cluster p p.finishDisconnect := by
  unfold finishDisconnect
  split
  · have h := quiet_afterDisconnect cluster p
    exact ⟨h.adapter, h.wallet, h.view, h.memo, h.synced, h.rendered, h.listening, h.copy,
      h.restores, h.pointers, h.sent⟩
  · exact .refl cluster p

theorem quiet_refresh (cluster : Option String) (p : Panel) :
    Quiet cluster p (p.withSession (getVerified P p.now p.session.state).1) :=
  quiet_session rfl (loadVerified_records P p.now p.storage)

/-- The actions that are not quiet: those of the adapter, the renderings and effects of
`ConnectWallet` and the widget, and those that touch the pointers, their copies and the chain. -/
def Loud : Action → Prop
  | .adapter _ | .renderConnect | .syncSession | .renderWidget | .readPointer => True
  | .setManifestCid .. | .removeManifestCid _ | .restore | .restored _ => True
  | .publishConnect | .publishWidget => True
  | _ => False

/-- What an action does is quiet or said by its own definition. -/
theorem loud_or_quiet (hp : p.Standing P D) (a : Action) :
    Loud a ∨ Quiet P.cluster p (p.apply P D C a) := by
  cases a with
  | refresh => exact Or.inr (quiet_refresh P.cluster p)
  | clearUnconnected => exact Or.inr (quiet_clearUnconnected P.cluster p)
  | unlockVault env => exact Or.inr (quiet_unlockVault P.cluster p p.sessionWallet env)
  | lockVault => exact Or.inr (quiet_lockVault P.cluster p)
  | resume k => exact Or.inr (quiet_resume P.cluster hp k)
  | verified i env writable => exact Or.inr (quiet_finishVerify P.cluster p i env writable)
  | clearIdentity => exact Or.inr (quiet_clearIdentity P.cluster p)
  | disconnect => exact Or.inr (quiet_clickDisconnect P.cluster p)
  | disconnected => exact Or.inr (quiet_finishDisconnect P.cluster p)
  | tick now => exact Or.inr ⟨rfl, rfl, rfl, rfl, rfl, rfl, rfl, rfl, rfl, fun _ => rfl, rfl⟩
  | registry connectHead widgetHead registryError =>
    exact Or.inr ⟨rfl, rfl, rfl, rfl, rfl, rfl, rfl, rfl, rfl, fun _ => rfl, rfl⟩
  | renderIdentity => exact Or.inr ⟨rfl, rfl, rfl, rfl, rfl, rfl, rfl, rfl, rfl, fun _ => rfl, rfl⟩
  | verify => exact Or.inr ⟨rfl, rfl, rfl, rfl, rfl, rfl, rfl, rfl, rfl, fun _ => rfl, rfl⟩
  | published => exact Or.inr ⟨rfl, rfl, rfl, rfl, rfl, rfl, rfl, rfl, rfl, fun _ => rfl, rfl⟩
  | _ => exact Or.inl trivial

/-! ### What the other actions change -/

theorem setManifestCid_eq_ok {w cid : String} : p.setManifestCid P w cid = .ok q ↔
    ∃ s, Manifest.setManifestCid P.cluster w cid p.storage = .ok s ∧
      q = (p.onStorage fun _ => s).manifestCidChanged P := by
  unfold setManifestCid
  cases Manifest.setManifestCid P.cluster w cid p.storage with
  | error e => simp [Except.map]
  | ok s => simp [Except.map, eq_comm]

theorem setManifestCid_changes {w cid : String} (h : p.setManifestCid P w cid = .ok q) :
    ∃ s copy, q = { p.onStorage fun _ => s with
      widget := { p.widget with localManifestCid := copy } } := by
  obtain ⟨s, -, rfl⟩ := setManifestCid_eq_ok.mp h
  unfold manifestCidChanged
  split
  · exact ⟨_, _, rfl⟩
  · exact ⟨s, p.widget.localManifestCid, rfl⟩

theorem storePointer_changes (P : Platform) (p : Panel) (w cid : String) :
    ∃ s copy, p.storePointer P w cid = { p.onStorage fun _ => s with
      widget := { p.widget with localManifestCid := copy } } := by
  unfold storePointer
  split
  · exact setManifestCid_changes ‹_›
  · exact ⟨p.storage, p.widget.localManifestCid, rfl⟩

theorem dropPointer_changes (P : Platform) (p : Panel) (w : String) :
    ∃ s, p.dropPointer P w = p.onStorage fun _ => s := by
  unfold dropPointer
  split
  · exact ⟨_, rfl⟩
  · exact ⟨p.storage, rfl⟩

theorem clickRestore_changes (p : Panel) : ∃ restores loading, p.clickRestore =
    { p with restores, widget := { p.widget with loading } } := by
  unfold clickRestore
  split
  · exact ⟨_, true, rfl⟩
  · exact ⟨p.restores, p.widget.loading, rfl⟩

theorem finishRestore_changes (P : Platform) (p : Panel) (i : Nat) :
    ∃ s restores copy loading, p.finishRestore P i = { p.onStorage fun _ => s with
      restores, widget := { p.widget with localManifestCid := copy, loading } } := by
  unfold finishRestore
  split
  · dsimp only
    split
    · rename_i q hq
      obtain ⟨s, copy, rfl⟩ := setManifestCid_changes hq
      exact ⟨s, _, _, false, rfl⟩
    · exact ⟨p.storage, _, p.widget.localManifestCid, false, rfl⟩
  · exact ⟨p.storage, p.restores, p.widget.localManifestCid, p.widget.loading, rfl⟩

theorem publishManifest_changes (p : Panel) (wallet : Option WalletPubKey) (cid : String) :
    ∃ sent, p.publishManifest wallet cid = { p with sent } := by
  unfold publishManifest
  split
  · exact ⟨_, rfl⟩
  · exact ⟨p.sent, rfl⟩

theorem clickPublish_changes (p : Panel) : ∃ sent publishing, p.clickPublish =
    { p with sent, connect := { p.connect with publishing } } := by
  unfold clickPublish
  split
  · rename_i cid hcid
    obtain ⟨sent, hsent⟩ := p.publishManifest_changes p.connect.view.address cid
    exact ⟨sent, true, by rw [hsent]⟩
  · exact ⟨p.sent, p.connect.publishing, rfl⟩

theorem handlePublish_changes (p : Panel) : ∃ sent loading, p.handlePublish =
    { p with sent, widget := { p.widget with loading } } := by
  unfold handlePublish
  split
  · rename_i cid hcid
    obtain ⟨sent, hsent⟩ := p.publishManifest_changes p.widget.view.address cid
    exact ⟨sent, true, by rw [hsent]⟩
  · exact ⟨p.sent, p.widget.loading, rfl⟩

theorem renderConnect_changes (P : Platform) (p : Panel) : ∃ s memo, p.renderConnect P =
    { p.onStorage fun _ => s with connect := { p.connect with view := p.current, memo } } := by
  unfold renderConnect
  dsimp only
  split
  · exact ⟨p.storage, p.connect.memo, rfl⟩
  · exact ⟨_, _, rfl⟩

theorem readPointer_changes (P : Platform) (p : Panel) : ∃ s copy, p.readPointer P =
    { p.onStorage fun _ => s with
      widget := { p.widget with
        localManifestCid := copy, listening := some p.widget.view.walletPubKey } } := by
  unfold readPointer
  split
  · rename_i hlistening
    rw [← hlistening]
    exact ⟨p.storage, p.widget.localManifestCid, rfl⟩
  · exact ⟨_, _, rfl⟩

/-! ### Calls of the session -/

theorem standing_call (hp : p.Standing P D) {c : SessionCall} (hc : c.Made p.session.state) :
    (p.call P D c).Standing P D :=
  staged_any hp (.call c ⟨hc, trivial⟩)

theorem standing_resume (hp : p.Standing P D) (k : Nat) : (p.resume k).Standing P D := by
  unfold resume
  split
  · split
    · exact staged_any hp (.resume k _ _ _ _ ‹_› ‹_› trivial)
    · exact hp
  · exact hp

theorem standing_syncSession (hp : p.Standing P D) : (p.syncSession P D).Standing P D := by
  unfold syncSession
  split
  · exact hp
  · dsimp only
    split
    · exact standing_call hp trivial
    · exact hp

/-- Every call of the session that is in progress stands at a stage of `unlockVault`. -/
theorem standing_apply (hp : p.Standing P D) (a : Action) : (p.apply P D C a).Standing P D := by
  cases a with
  | unlockVault env => exact standing_call hp rfl
  | lockVault => exact standing_call hp trivial
  | resume k => exact standing_resume hp k
  | clearIdentity => exact standing_call hp trivial
  | renderConnect =>
    obtain ⟨s, memo, h⟩ := renderConnect_changes P p
    rw [apply, h]
    exact hp
  | syncSession => exact standing_syncSession hp
  | clearUnconnected =>
    simp only [apply, clearUnconnected]
    split
    · exact hp
    · split
      · exact hp
      · exact standing_call hp trivial
  | readPointer =>
    obtain ⟨s, copy, h⟩ := readPointer_changes P p
    rw [apply, h]
    exact hp
  | verified i env writable =>
    simp only [apply, finishVerify]
    split
    · split <;> exact hp
    · exact hp
  | disconnect =>
    simp only [apply, clickDisconnect]
    split <;> exact hp
  | disconnected =>
    simp only [apply, finishDisconnect]
    split <;> exact hp
  | setManifestCid w cid =>
    obtain ⟨s, copy, h⟩ := storePointer_changes P p w.val cid
    rw [apply, h]
    exact hp
  | removeManifestCid w =>
    obtain ⟨s, h⟩ := dropPointer_changes P p w.val
    rw [apply, h]
    exact hp
  | restore =>
    obtain ⟨restores, loading, h⟩ := p.clickRestore_changes
    rw [apply, h]
    exact hp
  | restored i =>
    obtain ⟨s, restores, copy, loading, h⟩ := finishRestore_changes P p i
    rw [apply, h]
    exact hp
  | publishConnect =>
    obtain ⟨sent, publishing, h⟩ := p.clickPublish_changes
    rw [apply, h]
    exact hp
  | publishWidget =>
    obtain ⟨sent, loading, h⟩ := p.handlePublish_changes
    rw [apply, h]
    exact hp
  | _ => exact hp

end Panel

end SovereignJedi.Pages
