import SovereignJedi.Pages.Components

/-! Whether the session follows the wallet adapter. The sync effect of `ConnectWallet` connects the
session to whatever the adapter is connected to; nothing disconnects it, since the disconnect button
leaves that to the sync effect. -/

namespace SovereignJedi.Pages

open SovereignJedi.Js SovereignJedi.Crypto SovereignJedi.Async SovereignJedi.Session
open SovereignJedi.Manifest SovereignJedi.Wallet

/-- An event that connects the adapter. -/
def Action.Connects : Action → Prop
  | .adapter (some _) => True
  | _ => False

/-- The time after an action. -/
def Action.time (now : Int) : Action → Int
  | .tick now' => now'
  | _ => now

/-- A refresh finds the verified signal in `s` expired, or finds none. -/
def Unrecorded (P : Platform) (s : LocalStorage) : Int → List Action → Prop
  | _, [] => False
  | now, a :: as => (a = .refresh ∧ (loadVerified P now s).1 verifiedStorageKey = none) ∨
      Unrecorded P s (a.time now) as

namespace Panel

/-! ### Statements -/

/-- The session has no wallet, is locked and holds no materials. -/
structure LockedOut (s : SessionManager) : Prop where
  wallet : s.walletPubKey = none
  locked : s.vaultUnlocked = false
  lastUnlock : s.lastUnlock = none
  lastUnlockSignatureBytes : s.lastUnlockSignatureBytes = none
  lastVaultRoot : s.lastVaultRoot = none
  lastVaultRootSignatureBytes : s.lastVaultRootSignatureBytes = none

/-- The session follows the adapter. -/
structure Follows (p : Panel) : Prop where
  connected : ∀ w, p.adapter = some w → p.sessionWallet = some w.val
  disconnected : p.adapter = none → LockedOut p.session.state ∧
    p.storage storageKeyIdentity = none ∧ p.storage verifiedStorageKey = none

variable {P : Platform} {D : Dates} {C : TextCodecs} {p q : Panel} {v : Option String}

/-! ### The sync effect -/

/-- The sync effect has connected the session to the wallet that it ran for. -/
def SyncedWallet (p : Panel) : Prop :=
  ∀ w, p.connect.synced.map View.address = some (some w) → p.sessionWallet = some w.val

/-- The adapter, the session's wallet and the sync effect are as they were. -/
structure Stays (p q : Panel) : Prop where
  adapter : q.adapter = p.adapter
  wallet : q.sessionWallet = p.sessionWallet
  synced : q.connect.synced = p.connect.synced

theorem Quiet.stays {cluster : Option String} (h : Quiet cluster p q) : Stays p q :=
  ⟨h.adapter, h.wallet, h.synced⟩

/-- Only the adapter's events and the sync effect change the adapter, the session's wallet and what
the effect ran for. -/
theorem stays_apply (hp : p.Standing P D) (a : Action) (hadapter : ∀ w, a ≠ .adapter w)
    (hsync : a ≠ .syncSession) : Stays p (p.apply P D C a) := by
  rcases loud_or_quiet (C := C) hp a with hloud | hquiet
  · cases a with
    | adapter w => exact absurd rfl (hadapter w)
    | syncSession => exact absurd rfl hsync
    | renderConnect =>
      obtain ⟨s, memo, h⟩ := renderConnect_changes P p
      rw [apply, h]
      exact ⟨rfl, rfl, rfl⟩
    | renderWidget => exact ⟨rfl, rfl, rfl⟩
    | readPointer =>
      obtain ⟨s, copy, h⟩ := readPointer_changes P p
      rw [apply, h]
      exact ⟨rfl, rfl, rfl⟩
    | setManifestCid w cid =>
      obtain ⟨s, copy, h⟩ := storePointer_changes P p w.val cid
      rw [apply, h]
      exact ⟨rfl, rfl, rfl⟩
    | removeManifestCid w =>
      obtain ⟨s, h⟩ := dropPointer_changes P p w.val
      rw [apply, h]
      exact ⟨rfl, rfl, rfl⟩
    | restore =>
      obtain ⟨restores, loading, h⟩ := p.clickRestore_changes
      rw [apply, h]
      exact ⟨rfl, rfl, rfl⟩
    | restored i =>
      obtain ⟨s, restores, copy, loading, h⟩ := finishRestore_changes P p i
      rw [apply, h]
      exact ⟨rfl, rfl, rfl⟩
    | publishConnect =>
      obtain ⟨sent, publishing, h⟩ := p.clickPublish_changes
      rw [apply, h]
      exact ⟨rfl, rfl, rfl⟩
    | publishWidget =>
      obtain ⟨sent, loading, h⟩ := p.handlePublish_changes
      rw [apply, h]
      exact ⟨rfl, rfl, rfl⟩
    | _ => exact hloud.elim
  · exact hquiet.stays

/-- The session after the sync effect. -/
theorem syncSession_spec (h : p.SyncedWallet) :
    (p.syncSession P D).adapter = p.adapter ∧ (p.syncSession P D).connect.view = p.connect.view ∧
      (p.syncSession P D).connect.synced = some p.connect.view ∧
      (p.syncSession P D).sessionWallet =
        (p.connect.view.address.map WalletPubKey.val).or p.sessionWallet := by
  unfold syncSession
  split
  · rename_i hsynced
    refine ⟨rfl, rfl, hsynced, ?_⟩
    cases haddress : p.connect.view.address with
    | none => rfl
    | some w => exact h w (by rw [hsynced, Option.map_some, haddress])
  · dsimp only
    split
    · rename_i w haddress
      refine ⟨rfl, rfl, rfl, ?_⟩
      rw [haddress, sessionWallet, call_session]
      exact (connectWallet_walletPubKey ..).trans (normalized_text w.ne)
    · rename_i haddress
      refine ⟨rfl, rfl, rfl, ?_⟩
      rw [haddress]
      rfl

theorem syncedWallet_apply (hp : p.Standing P D) (h : p.SyncedWallet) (a : Action) :
    (p.apply P D C a).SyncedWallet := by
  by_cases hadapter : ∃ w, a = .adapter w
  · obtain ⟨w, rfl⟩ := hadapter
    exact h
  · by_cases hsync : a = .syncSession
    · subst hsync
      obtain ⟨-, -, hsynced, hwallet⟩ := syncSession_spec (P := P) (D := D) h
      intro w hw
      rw [apply, hsynced, Option.map_some, Option.some.injEq] at hw
      rw [apply, hwallet, hw]
      rfl
    · have hstays := stays_apply (C := C) hp a (not_exists.mp hadapter) hsync
      intro w hw
      rw [hstays.synced] at hw
      rw [hstays.wallet, h w hw]

/-! ### Before the first connection -/

/-- What holds until the adapter is connected; `v` is the verified signal that is stored. -/
structure Unconnected (v : Option String) (p : Panel) : Prop where
  adapter : p.adapter = none
  address : p.connect.view.address = none
  rendered : p.identity.isWalletConnected = false
  verifications : p.verifications = []
  session : LockedOut p.session.state
  calls : p.session.Settled
  identity : p.identity.effect ≠ none → p.storage storageKeyIdentity = none
  verified : p.storage verifiedStorageKey = v

/-- A change that touches neither the records nor the session otherwise. -/
theorem Unconnected.congr (h : p.Unconnected v) (hadapter : q.adapter = none)
    (haddress : q.connect.view.address = none) (hidentity : q.identity = p.identity)
    (hverifications : q.verifications = p.verifications)
    (hthreads : q.session.threads = p.session.threads)
    (hstate : q.session.state =
      { p.session.state with verified := q.session.state.verified, localStorage := q.storage })
    (hrecords : ∀ k, IsRecord k → q.storage k = p.storage k) : q.Unconnected v where
  adapter := hadapter
  address := haddress
  rendered := by rw [hidentity, h.rendered]
  verifications := by rw [hverifications, h.verifications]
  session := by
    obtain ⟨hwallet, hlocked, hunlock, hbytes, hroot, hrootBytes⟩ := h.session
    rw [hstate]
    exact ⟨hwallet, hlocked, hunlock, hbytes, hroot, hrootBytes⟩
  calls := by
    intro c t hmem
    exact h.calls c t (hthreads ▸ hmem)
  identity hran := by
    rw [hrecords _ isRecord_identity]
    exact h.identity (hidentity ▸ hran)
  verified := by rw [hrecords _ isRecord_verified, h.verified]

theorem settled_call (h : p.session.Settled) {c : SessionCall} {r : Result Unit}
    (hstart : c.start P D p.session.state = .done r) : (p.call P D c).session.Settled := by
  intro d t hmem
  rw [call_session, List.mem_append, List.mem_singleton] at hmem
  rcases hmem with hmem | hmem
  · exact h d t hmem
  · exact ⟨r, (congrArg Prod.snd hmem).trans hstart⟩

theorem Unconnected.lockVault (h : p.Unconnected v) : (p.call P D .lockVault).Unconnected v where
  adapter := h.adapter
  address := h.address
  rendered := h.rendered
  verifications := h.verifications
  session := by
    rw [call_session]
    exact ⟨h.session.wallet, rfl, rfl, rfl, rfl, rfl⟩
  calls := settled_call h.calls (r := .ok ()) rfl
  identity := by
    rw [storage, call_session]
    exact h.identity
  verified := by
    rw [storage, call_session]
    exact h.verified

theorem Unconnected.unlockVault (h : p.Unconnected v) (env : UnlockEnv) :
    (p.call P D (.unlockVault p.sessionWallet env)).Unconnected v where
  adapter := h.adapter
  address := h.address
  rendered := h.rendered
  verifications := h.verifications
  session := by
    rw [call_session]
    exact h.session
  calls := by
    refine settled_call h.calls (r := .error (.error "Wallet not connected")) ?_
    rw [SessionCall.start, h.session.wallet]
    rfl
  identity := by
    rw [storage, call_session]
    exact h.identity
  verified := by
    rw [storage, call_session]
    exact h.verified

/-- Nothing is in progress that could go on. -/
theorem Unconnected.resume (h : p.Unconnected v) (k : Nat) : p.resume k = p := by
  unfold Panel.resume
  split
  · rename_i c point ready next hk
    obtain ⟨r, hr⟩ := h.calls _ _ (List.mem_of_getElem? hk)
    cases hr
  · rfl

/-- The identity is cleared. -/
theorem Unconnected.cleared (h : p.Unconnected v) (f : LocalStorage → LocalStorage)
    (hidentity : f p.storage storageKeyIdentity = none)
    (hverified : f p.storage verifiedStorageKey = p.storage verifiedStorageKey)
    (effect : Option Bool) :
    ({ p.onStorage f with identity := { p.identity with effect } } : Panel).Unconnected v where
  adapter := h.adapter
  address := h.address
  rendered := h.rendered
  verifications := h.verifications
  session := ⟨h.session.wallet, h.session.locked, h.session.lastUnlock,
    h.session.lastUnlockSignatureBytes, h.session.lastVaultRoot,
    h.session.lastVaultRootSignatureBytes⟩
  calls := h.calls
  identity _ := hidentity
  verified := hverified.trans h.verified

theorem clearIdentity_verified (s : LocalStorage) :
    Wallet.clearIdentity s verifiedStorageKey = s verifiedStorageKey :=
  Function.update_of_ne (by decide) _ _

theorem Unconnected.afterDisconnect (h : p.Unconnected v) (n : Nat) :
    ({ p.afterDisconnect with disconnects := n } : Panel).Unconnected v := by
  have hcleared := h.cleared (fun s => clearLastWalletProvider (Wallet.clearIdentity s))
    (show clearLastWalletProvider (Wallet.clearIdentity p.storage) storageKeyIdentity = none from
      (Function.update_of_ne (by decide) _ _).trans (Function.update_self ..))
    ((Function.update_of_ne (by decide) _ _).trans (clearIdentity_verified _)) p.identity.effect
  exact ⟨hcleared.adapter, hcleared.address, hcleared.rendered, hcleared.verifications,
    hcleared.session, hcleared.calls, hcleared.identity, hcleared.verified⟩

theorem manifestCidChanged_records (p : Panel) :
    ∀ k, IsRecord k → (p.manifestCidChanged P).storage k = p.storage k := by
  unfold manifestCidChanged
  split
  · exact localManifestCid_records P.cluster _ p.storage
  · exact fun _ _ => rfl

theorem Unconnected.setManifestCid (h : p.Unconnected v) {w cid : String}
    (hset : p.setManifestCid P w cid = .ok q) : q.Unconnected v := by
  obtain ⟨s, hs, rfl⟩ := setManifestCid_eq_ok.mp hset
  have hstored : (p.onStorage fun _ => s).Unconnected v :=
    h.congr h.adapter h.address rfl rfl rfl rfl (setManifestCid_records hs)
  have hrecords := manifestCidChanged_records (P := P) (p.onStorage fun _ => s)
  revert hrecords
  unfold manifestCidChanged
  split
  · exact fun hrecords => hstored.congr h.adapter h.address rfl rfl rfl rfl hrecords
  · exact fun _ => hstored

theorem Unconnected.refresh (h : p.Unconnected v) : (p.apply P D C .refresh).Unconnected
    ((loadVerified P p.now p.storage).1 verifiedStorageKey) where
  adapter := h.adapter
  address := h.address
  rendered := h.rendered
  verifications := h.verifications
  session := ⟨h.session.wallet, h.session.locked, h.session.lastUnlock,
    h.session.lastUnlockSignatureBytes, h.session.lastVaultRoot,
    h.session.lastVaultRootSignatureBytes⟩
  calls := h.calls
  identity hran := by
    rcases loadVerified_storage (P := P) p.now p.storage with hsame | hcleared
    · exact (congrFun hsame _).trans (h.identity hran)
    · refine (congrFun hcleared _).trans ?_
      exact (Function.update_of_ne (by decide) _ _).trans (h.identity hran)
  verified := rfl

/-- Nothing but a connection of the adapter connects or unlocks the session, or stores a signal. -/
theorem Unconnected.apply (h : p.Unconnected v) {a : Action} (ha : ¬ a.Connects)
    (hrefresh : a ≠ .refresh) : (p.apply P D C a).Unconnected v := by
  cases a with
  | adapter wallet =>
    cases wallet with
    | some w => exact absurd trivial ha
    | none => exact h.congr rfl h.address rfl rfl rfl rfl fun _ _ => rfl
  | tick now => exact h.congr h.adapter h.address rfl rfl rfl rfl fun _ _ => rfl
  | registry connectHead widgetHead registryError =>
    exact h.congr h.adapter h.address rfl rfl rfl rfl fun _ _ => rfl
  | refresh => exact absurd rfl hrefresh
  | renderConnect =>
    simp only [Panel.apply, Panel.renderConnect]
    split
    · exact h.congr h.adapter h.adapter rfl rfl rfl rfl fun _ _ => rfl
    · exact h.congr h.adapter h.adapter rfl rfl rfl rfl
        (localManifestCid_records P.cluster p.sessionWallet p.storage)
  | syncSession =>
    simp only [Panel.apply, Panel.syncSession, h.address]
    split
    · exact h
    · exact h.congr h.adapter h.address rfl rfl rfl rfl fun _ _ => rfl
  | renderIdentity =>
    have hconnected : p.isWalletConnected = false := by
      rw [isWalletConnected, sessionWallet, h.session.wallet]
      rfl
    simp only [Panel.apply, hconnected, ← h.rendered]
    exact h
  | clearUnconnected =>
    simp only [Panel.apply, Panel.clearUnconnected]
    split
    · exact h
    · split
      · rename_i hconnected
        exact absurd (h.rendered.symm.trans hconnected) (by decide)
      · exact (h.cleared Wallet.clearIdentity (Function.update_self ..) (clearIdentity_verified _)
          (some p.identity.isWalletConnected)).lockVault
  | renderWidget => exact h.congr h.adapter h.address rfl rfl rfl rfl fun _ _ => rfl
  | readPointer =>
    simp only [Panel.apply, Panel.readPointer]
    split
    · exact h
    · exact h.congr h.adapter h.address rfl rfl rfl rfl
        (localManifestCid_records P.cluster p.widget.view.walletPubKey p.storage)
  | unlockVault env => exact h.unlockVault env
  | lockVault => exact h.lockVault
  | resume k =>
    rw [Panel.apply, h.resume]
    exact h
  | verify =>
    refine h.congr h.adapter h.address rfl ?_ rfl rfl fun _ _ => rfl
    simp only [Panel.apply, h.adapter, Option.toList_none, List.append_nil]
  | verified i env writable =>
    simp only [Panel.apply, finishVerify, h.verifications, List.getElem?_nil]
    exact h
  | clearIdentity =>
    exact (h.cleared Wallet.clearIdentity (Function.update_self ..) (clearIdentity_verified _)
      p.identity.effect).lockVault
  | disconnect =>
    simp only [Panel.apply, clickDisconnect, h.adapter]
    exact h.afterDisconnect p.disconnects
  | disconnected =>
    simp only [Panel.apply, finishDisconnect]
    split
    · exact h.afterDisconnect _
    · exact h
  | setManifestCid w cid =>
    simp only [Panel.apply, storePointer]
    split
    · exact h.setManifestCid ‹_›
    · exact h
  | removeManifestCid w =>
    simp only [Panel.apply, dropPointer]
    split
    · exact h.congr h.adapter h.address rfl rfl rfl rfl (removeManifestCid_records ‹_›)
    · exact h
  | restore =>
    obtain ⟨restores, loading, hclicked⟩ := p.clickRestore_changes
    rw [Panel.apply, hclicked]
    exact h.congr h.adapter h.address rfl rfl rfl rfl fun _ _ => rfl
  | restored i =>
    have hclicked : ({ p with
        restores := p.restores.eraseIdx i
        widget := { p.widget with loading := false } } : Panel).Unconnected v :=
      h.congr h.adapter h.address rfl rfl rfl rfl fun _ _ => rfl
    simp only [Panel.apply, finishRestore]
    split
    · split
      · rename_i q hq
        have hset := hclicked.setManifestCid hq
        exact hset.congr hset.adapter hset.address rfl rfl rfl rfl fun _ _ => rfl
      · exact hclicked
    · exact h
  | publishConnect =>
    obtain ⟨sent, publishing, hclicked⟩ := p.clickPublish_changes
    rw [Panel.apply, hclicked]
    exact h.congr h.adapter h.address rfl rfl rfl rfl fun _ _ => rfl
  | publishWidget =>
    obtain ⟨sent, loading, hclicked⟩ := p.handlePublish_changes
    rw [Panel.apply, hclicked]
    exact h.congr h.adapter h.address rfl rfl rfl rfl fun _ _ => rfl
  | published => exact h.congr h.adapter h.address rfl rfl rfl rfl fun _ _ => rfl

/-! ### Runs -/

/-- What holds in every run: the calls stand at their stages, and the sync effect has connected the
session. -/
structure Synchronised (P : Platform) (D : Dates) (p : Panel) : Prop where
  standing : p.Standing P D
  synced : p.SyncedWallet

theorem Synchronised.apply (h : p.Synchronised P D) (a : Action) :
    (p.apply P D C a).Synchronised P D :=
  ⟨standing_apply h.standing a, syncedWallet_apply h.standing h.synced a⟩

/-- Where no effect is pending, the session has the wallet that the adapter is connected to. -/
theorem Synchronised.connected (h : p.Synchronised P D) (hsettled : p.Settled) {w : WalletPubKey}
    (hadapter : p.adapter = some w) : p.sessionWallet = some w.val := by
  refine h.synced w ?_
  rw [hsettled.synced, Option.map_some, hsettled.connect, current, hadapter]

theorem synchronised_mount (now : Int) (s : LocalStorage) (isVerified : Bool) :
    (mount P now s isVerified).Synchronised P D where
  standing := staged_init _
  synced := fun w hw => by cases hw

theorem unconnected_mount (P : Platform) (now : Int) (s : LocalStorage) (isVerified : Bool) :
    (mount P now s isVerified).Unconnected ((loadVerified P now s).1 verifiedStorageKey) where
  adapter := rfl
  address := rfl
  rendered := rfl
  verifications := rfl
  session := ⟨rfl, rfl, rfl, rfl, rfl, rfl⟩
  calls := fun c t hmem => by cases hmem
  identity := fun hran => absurd rfl hran
  verified := rfl

/-- The adapter has been connected, and so is the session unless the effect is pending. -/
def Reached (p : Panel) : Prop := p.adapter ≠ none ∨ p.sessionWallet ≠ none

/-- A session with a wallet never loses it. -/
theorem Reached.apply (hp : p.Synchronised P D) (h : p.Reached) {a : Action} (ha : p.Allows a) :
    (p.apply P D C a).Reached := by
  by_cases hadapter : ∃ w, a = .adapter w
  · obtain ⟨w, rfl⟩ := hadapter
    -- the sync effect has run for the adapter as it was
    cases hbefore : p.adapter with
    | none => exact Or.inr (h.resolve_left (not_not.mpr hbefore))
    | some w' =>
      have hwallet := hp.synced w' (ha.trans (congrArg some hbefore))
      exact Or.inr (Option.ne_none_iff_exists'.mpr ⟨_, hwallet⟩)
  · by_cases hsync : a = .syncSession
    · subst hsync
      obtain ⟨hsame, -, -, hwallet⟩ := syncSession_spec (P := P) (D := D) hp.synced
      refine h.imp (fun hne => hsame ▸ hne) fun hne => ?_
      rw [Panel.apply, hwallet]
      cases p.connect.view.address with
      | none => exact hne
      | some w => exact Option.some_ne_none _
    · have hstays := stays_apply (C := C) hp.standing a (not_exists.mp hadapter) hsync
      exact h.imp (fun hne => hstays.adapter ▸ hne) fun hne => hstays.wallet ▸ hne

/-- Runs in which anything may happen. -/
abbrev AnyRun (P : Platform) (D : Dates) (C : TextCodecs) : Panel → List Action → Panel → Prop :=
  Run P D C fun _ _ => True

theorem AnyRun.synchronised {as : List Action} (hrun : AnyRun P D C p as q)
    (hp : p.Synchronised P D) : q.Synchronised P D :=
  Run.invariant (Synchronised P D) (fun _ a h _ _ => h.apply a) hrun hp

theorem apply_now (p : Panel) (a : Action) : (p.apply P D C a).now = a.time p.now := by
  cases a with
  | syncSession =>
    simp only [apply, syncSession]
    split
    · rfl
    · split <;> rfl
  | clearUnconnected =>
    simp only [apply, clearUnconnected]
    split
    · rfl
    · split <;> rfl
  | resume k =>
    simp only [apply, resume]
    split
    · split <;> rfl
    · rfl
  | verified i env writable =>
    simp only [apply, finishVerify]
    split
    · split <;> rfl
    · rfl
  | disconnect =>
    simp only [apply, clickDisconnect]
    split <;> rfl
  | disconnected =>
    simp only [apply, finishDisconnect]
    split <;> rfl
  | renderConnect =>
    obtain ⟨s, memo, h⟩ := renderConnect_changes P p
    rw [apply, h]
    rfl
  | readPointer =>
    obtain ⟨s, copy, h⟩ := readPointer_changes P p
    rw [apply, h]
    rfl
  | setManifestCid w cid =>
    obtain ⟨s, copy, h⟩ := storePointer_changes P p w.val cid
    rw [apply, h]
    rfl
  | removeManifestCid w =>
    obtain ⟨s, h⟩ := dropPointer_changes P p w.val
    rw [apply, h]
    rfl
  | restore =>
    obtain ⟨restores, loading, h⟩ := p.clickRestore_changes
    rw [apply, h]
    rfl
  | restored i =>
    obtain ⟨s, restores, copy, loading, h⟩ := finishRestore_changes P p i
    rw [apply, h]
    rfl
  | publishConnect =>
    obtain ⟨sent, publishing, h⟩ := p.clickPublish_changes
    rw [apply, h]
    rfl
  | publishWidget =>
    obtain ⟨sent, loading, h⟩ := p.handlePublish_changes
    rw [apply, h]
    rfl
  | _ => rfl

theorem clearVerified_self (s : LocalStorage) : clearVerified s verifiedStorageKey = none :=
  Function.update_self ..

theorem loadVerified_signal {now : Int} {s s' : LocalStorage}
    (h : s verifiedStorageKey = s' verifiedStorageKey) :
    (loadVerified P now s).1 verifiedStorageKey = (loadVerified P now s').1 verifiedStorageKey := by
  have hcleared : clearVerified s verifiedStorageKey = clearVerified s' verifiedStorageKey := by
    rw [clearVerified_self, clearVerified_self]
  unfold loadVerified
  rw [h]
  split
  · exact h
  · split
    · exact h
    · split
      · exact h
      · split
        · split
          · exact h
          · exact hcleared
        · exact hcleared

theorem loadVerified_gone_or_same (now : Int) (s : LocalStorage) :
    (loadVerified P now s).1 verifiedStorageKey = none ∨
      (loadVerified P now s).1 verifiedStorageKey = s verifiedStorageKey := by
  rcases loadVerified_storage (P := P) now s with h | h
  · exact Or.inr (congrFun h _)
  · exact Or.inl ((congrFun h _).trans (clearVerified_self s))

/-- A refresh while a signal of an earlier page is kept as it was, or gone. -/
theorem refreshed_signal (now : Int) {s s' : LocalStorage} (hstored : s' verifiedStorageKey = v)
    (hv : v = none ∨ v = s verifiedStorageKey) :
    ((loadVerified P now s').1 verifiedStorageKey = none ↔
        v = none ∨ (loadVerified P now s).1 verifiedStorageKey = none) ∧
      ((loadVerified P now s').1 verifiedStorageKey = none ∨
        (loadVerified P now s').1 verifiedStorageKey = s verifiedStorageKey) := by
  rcases hv with rfl | rfl
  · have hgone : (loadVerified P now s').1 verifiedStorageKey = none := by
      rw [loadVerified_of_none hstored]
      exact hstored
    exact ⟨iff_of_true hgone (Or.inl rfl), Or.inl hgone⟩
  · rw [loadVerified_signal hstored]
    refine ⟨⟨Or.inr, fun h => h.elim (fun hnone => ?_) id⟩, loadVerified_gone_or_same now s⟩
    rw [loadVerified_of_none hnone]
    exact hnone

/-- While the adapter has not been connected, a signal of an earlier page stays until a refresh
finds it expired. -/
theorem AnyRun.unconnected {s : LocalStorage} {as : List Action} (hrun : AnyRun P D C p as q)
    (hp : p.Unconnected v) (hv : v = none ∨ v = s verifiedStorageKey)
    (has : ∀ a ∈ as, ¬ a.Connects) :
    ∃ v', q.Unconnected v' ∧ (v' = none ↔ v = none ∨ Unrecorded P s p.now as) := by
  induction as generalizing p v with
  | nil => exact ⟨v, hrun ▸ hp, (or_iff_left id).symm⟩
  | cons a as ih =>
    have hlater : ∀ b ∈ as, ¬ b.Connects := fun b hb => has b (List.mem_cons_of_mem a hb)
    by_cases hrefresh : a = .refresh
    · subst hrefresh
      obtain ⟨hread, hsame⟩ := refreshed_signal p.now hp.verified hv
      obtain ⟨v', hq, hv'⟩ := ih hrun.2.2 hp.refresh hsame hlater
      refine ⟨v', hq, hv'.trans ?_⟩
      rw [hread, apply_now, Unrecorded, or_assoc]
      simp
    · obtain ⟨v', hq, hv'⟩ := ih hrun.2.2 (hp.apply (has a List.mem_cons_self) hrefresh) hv hlater
      refine ⟨v', hq, hv'.trans ?_⟩
      rw [apply_now, Unrecorded]
      simp [hrefresh]

theorem AnyRun.reached {as : List Action} (hrun : AnyRun P D C p as q) (hp : p.Synchronised P D)
    (has : ∃ a ∈ as, a.Connects) : q.Reached := by
  induction as generalizing p with
  | nil =>
    obtain ⟨a, hmem, -⟩ := has
    cases hmem
  | cons b as ih =>
    by_cases hlater : ∃ a ∈ as, a.Connects
    · exact ih hrun.2.2 (hp.apply b) hlater
    · -- `b` connects the adapter, and the rest of the run loses nothing
      obtain ⟨a, hmem, hconnects⟩ := has
      have hb : b.Connects := by
        rcases List.mem_cons.mp hmem with rfl | hmem
        · exact hconnects
        · exact absurd ⟨a, hmem, hconnects⟩ hlater
      have hreached : (p.apply P D C b).Reached := by
        cases b with
        | adapter wallet =>
          cases wallet with
          | none => exact hb.elim
          | some w => exact Or.inl (Option.some_ne_none w)
        | _ => exact hb.elim
      have hinv := Run.invariant (fun p => p.Synchronised P D ∧ p.Reached)
        (fun _ a h ha _ => ⟨h.1.apply a, h.2.apply h.1 ha⟩) hrun.2.2 ⟨hp.apply b, hreached⟩
      exact hinv.2

/-! ### Pending effects -/

/-- The renderings and effects that settle the page. -/
def settling : List Action :=
  [.renderConnect, .syncSession, .renderConnect, .syncSession, .renderIdentity, .clearUnconnected,
    .renderWidget, .readPointer]

theorem renderConnect_spec (p : Panel) : Stays p (p.renderConnect P) ∧
    (p.renderConnect P).connect.view = p.current := by
  obtain ⟨s, memo, h⟩ := renderConnect_changes P p
  rw [h]
  exact ⟨⟨rfl, rfl, rfl⟩, rfl⟩

theorem clearUnconnected_identity (p : Panel) : (p.clearUnconnected P D).identity =
    ⟨p.identity.isWalletConnected, some p.identity.isWalletConnected⟩ := by
  unfold clearUnconnected
  split
  · rename_i heffect
    rw [← heffect]
  · dsimp only
    split <;> rfl

theorem readPointer_spec (p : Panel) : Stays p (p.readPointer P) ∧
    (p.readPointer P).connect = p.connect ∧ (p.readPointer P).identity = p.identity ∧
    (p.readPointer P).widget.view = p.widget.view ∧
    (p.readPointer P).widget.listening = some p.widget.view.walletPubKey := by
  obtain ⟨s, copy, h⟩ := readPointer_changes P p
  rw [h]
  exact ⟨⟨rfl, rfl, rfl⟩, rfl, rfl, rfl, rfl⟩

/-- The session changes in the storage only. -/
def Kept (p q : Panel) : Prop :=
  q.session.state = { p.session.state with localStorage := q.storage }

theorem Kept.trans {r : Panel} (h : Kept p q) (h' : Kept q r) : Kept p r := by
  rw [Kept, h', h]

theorem kept_renderConnect (p : Panel) : Kept p (p.renderConnect P) := by
  obtain ⟨s, memo, h⟩ := renderConnect_changes P p
  rw [h]
  rfl

theorem kept_syncSession (h : p.connect.view.address = none) : Kept p (p.syncSession P D) := by
  unfold syncSession
  split
  · rfl
  · dsimp only
    rw [h]
    rfl

theorem kept_clearUnconnected (h : p.identity.isWalletConnected = true) :
    Kept p (p.clearUnconnected P D) := by
  unfold clearUnconnected
  dsimp only
  rw [if_pos h]
  split <;> rfl

theorem kept_readPointer (p : Panel) : Kept p (p.readPointer P) := by
  obtain ⟨s, copy, h⟩ := readPointer_changes P p
  rw [h]
  rfl

theorem Run.any {cond : Panel → Action → Prop} {as : List Action} (hrun : Run P D C cond p as q) :
    AnyRun P D C p as q := by
  induction as generalizing p with
  | nil => exact hrun
  | cons a as ih => exact ⟨hrun.1, trivial, ih hrun.2.2⟩

/-- A rendering of `ConnectWallet` with its effect. -/
theorem connect_round (C : TextCodecs) (hp : p.Synchronised P D) :
    ∃ q, AnyRun P D C p [.renderConnect, .syncSession] q ∧ q.adapter = p.adapter ∧
      q.sessionWallet = (p.adapter.map WalletPubKey.val).or p.sessionWallet ∧
      q.connect.view = p.current ∧ q.connect.synced = some p.current ∧
      (p.adapter = none → Kept p q) := by
  obtain ⟨hstays, hview⟩ := renderConnect_spec (P := P) p
  obtain ⟨hadapter, hview', hsynced, hwallet⟩ :=
    syncSession_spec (P := P) (D := D) (hp.apply (C := C) .renderConnect).synced
  change (p.renderConnect P).connect.view = _ at hview
  simp only [apply, hview] at hview' hsynced hwallet
  refine ⟨_, ⟨trivial, trivial, trivial, trivial, rfl⟩, hadapter.trans hstays.adapter, ?_, hview',
    hsynced, fun hnone => ?_⟩
  · exact hwallet.trans (by rw [hstays.wallet]; rfl)
  · exact (kept_renderConnect p).trans (kept_syncSession (by rw [hview]; exact hnone))

/-- The other components after their renderings, each with its effect. -/
theorem others_round (P : Platform) (D : Dates) (C : TextCodecs) (p : Panel) :
    ∃ q, AnyRun P D C p [.renderIdentity, .clearUnconnected, .renderWidget, .readPointer] q ∧
      q.adapter = p.adapter ∧ q.sessionWallet = p.sessionWallet ∧
      q.connect.view = p.connect.view ∧ q.connect.synced = p.connect.synced ∧
      q.identity = ⟨p.isWalletConnected, some p.isWalletConnected⟩ ∧ q.widget.view = p.current ∧
      q.widget.listening = some p.sessionWallet ∧ (p.isWalletConnected = true → Kept p q) := by
  obtain ⟨status, hstatus⟩ : ∃ status : Panel, status = { p with
    identity := { p.identity with isWalletConnected := p.isWalletConnected } } := ⟨_, rfl⟩
  obtain ⟨cleared, hcleared⟩ : ∃ cleared, cleared = status.clearUnconnected P D := ⟨_, rfl⟩
  have hquiet : Quiet P.cluster status cleared := hcleared ▸ quiet_clearUnconnected P.cluster status
  have hidentity : cleared.identity = ⟨p.isWalletConnected, some p.isWalletConnected⟩ := by
    rw [hcleared, clearUnconnected_identity, hstatus]
  obtain ⟨hstays, hconnect, hsame, hview, hlistening⟩ := readPointer_spec (P := P)
    { cleared with widget := { cleared.widget with view := cleared.current } }
  have hcurrent : cleared.current = p.current := by
    rw [current, hquiet.adapter, hquiet.wallet, hstatus]
    rfl
  refine ⟨_, ⟨trivial, trivial, trivial, trivial, trivial, trivial, trivial, trivial, rfl⟩, ?_⟩
  simp only [apply, ← hstatus, ← hcleared]
  refine ⟨hstays.adapter.trans (hquiet.adapter.trans (by rw [hstatus])),
    hstays.wallet.trans (hquiet.wallet.trans (by rw [hstatus]; rfl)),
    (congrArg ConnectWallet.view hconnect).trans (hquiet.view.trans (by rw [hstatus])),
    (congrArg ConnectWallet.synced hconnect).trans (hquiet.synced.trans (by rw [hstatus])),
    hsame.trans hidentity, hview.trans hcurrent,
    hlistening.trans (congrArg (fun v => some (View.walletPubKey v)) hcurrent),
    fun hconnected => ?_⟩
  have hkept : Kept status cleared :=
    hcleared ▸ kept_clearUnconnected (by rw [hstatus]; exact hconnected)
  have hstart : Kept p status := by rw [hstatus]; rfl
  exact (hstart.trans hkept).trans (kept_readPointer _)

/-- Pending effects can run until none is left. -/
theorem exists_settled (C : TextCodecs) (hp : p.Synchronised P D) :
    ∃ q, AnyRun P D C p settling q ∧ q.Settled ∧ q.adapter = p.adapter ∧
      q.sessionWallet = (p.adapter.map WalletPubKey.val).or p.sessionWallet ∧
      (p.adapter = none → p.isWalletConnected = true → Kept p q) := by
  obtain ⟨p₁, hrun₁, hadapter₁, hwallet₁, -, -, hkept₁⟩ := connect_round C hp
  -- the second round finds the wallet that the first has connected
  obtain ⟨p₂, hrun₂, hadapter₂, hwallet₂, hview, hsynced, hkept₂⟩ :=
    connect_round C (hrun₁.synchronised hp)
  obtain ⟨q, hrun, hadapter, hwallet, hview', hsynced', hidentity, hwidget, hlistening, hkept⟩ :=
    others_round P D C p₂
  have hsame : p₂.sessionWallet = p₁.sessionWallet := by
    rw [hwallet₂, hadapter₁, hwallet₁]
    cases p.adapter <;> rfl
  have hcurrent : p₁.current = q.current := by
    rw [current, current, hadapter, hadapter₂, hwallet, hsame]
  have hcurrent₂ : p₂.current = q.current := by
    rw [current, current, hadapter, hwallet]
  refine ⟨q, (hrun₁.append hrun₂).append hrun, ?_, hadapter.trans (hadapter₂.trans hadapter₁),
    hwallet.trans (hsame.trans hwallet₁), fun hnone hconnected => ?_⟩
  · constructor
    · rw [hview', hview, hcurrent]
    · rw [hsynced', hsynced, hview', hview]
    · rw [hidentity, isWalletConnected, isWalletConnected, hwallet]
    · rw [hidentity]
    · rw [hwidget, hcurrent₂]
    · rw [hlistening, hwidget]
      rfl
  · have hconnected₂ : p₂.isWalletConnected = true := by
      rw [isWalletConnected, hsame, hwallet₁, hnone]
      exact hconnected
    exact ((hkept₁ hnone).trans (hkept₂ (hadapter₁.trans hnone))).trans (hkept hconnected₂)

/-! ### The disconnect button -/

/-- The page is opened, and the adapter is connected. -/
def connecting (w : WalletPubKey) : List Action := settling ++ .adapter (some w) :: settling

/-- The disconnect button, up to the end of its handler. -/
def disconnecting : List Action := .disconnect :: .adapter none :: .disconnected :: settling

theorem exists_connected (P : Platform) (D : Dates) (C : TextCodecs) (now : Int) (s : LocalStorage)
    (isVerified : Bool) (w : WalletPubKey) :
    ∃ p, AnyRun P D C (mount P now s isVerified) (connecting w) p ∧ p.Settled ∧
      p.adapter = some w ∧ p.sessionWallet = some w.val := by
  have hmount := synchronised_mount (P := P) (D := D) now s isVerified
  obtain ⟨p₁, hrun₁, hsettled₁, -⟩ := exists_settled C hmount
  obtain ⟨p, hrun, hsettled, hadapter, hwallet, -⟩ :=
    exists_settled C ((hrun₁.synchronised hmount).apply (C := C) (.adapter (some w)))
  have hallows : p₁.Allows (.adapter (some w)) := by
    rw [Allows, hsettled₁.synced, Option.map_some, hsettled₁.connect, current]
  exact ⟨p, hrun₁.append ⟨hallows, trivial, hrun⟩, hsettled, hadapter, hwallet⟩

/-- After the disconnect button, with all effects run, the session is what it was: it has its
wallet, it is unlocked if it was, and it holds its materials. -/
theorem disconnect_keeps_session (C : TextCodecs) (hp : p.Synchronised P D) (hsettled : p.Settled)
    {w : WalletPubKey} (hadapter : p.adapter = some w) :
    ∃ q, AnyRun P D C p disconnecting q ∧ q.Settled ∧ q.adapter = none ∧
      q.sessionWallet = some w.val ∧ Kept p q := by
  have hwallet := hp.connected hsettled hadapter
  obtain ⟨p₁, hp₁⟩ : ∃ p₁, p₁ = p.apply P D C .disconnect := ⟨_, rfl⟩
  have hclicked : p₁ = { p with disconnects := p.disconnects + 1 } := by
    rw [hp₁, apply, clickDisconnect, hadapter]
  have hallows : p₁.Allows (.adapter none) := by
    rw [Allows, hclicked, hsettled.synced, Option.map_some, hsettled.connect, current]
  obtain ⟨p₃, hp₃⟩ : ∃ p₃, p₃ = (p₁.apply P D C (.adapter none)).apply P D C .disconnected :=
    ⟨_, rfl⟩
  have hkept : Kept p p₃ := by
    rw [hp₃, hclicked]
    rfl
  have hadapter₃ : p₃.adapter = none := by
    rw [hp₃, hclicked]
    rfl
  have hwallet₃ : p₃.sessionWallet = some w.val := by
    rw [sessionWallet, hkept]
    exact hwallet
  have hsync : p₃.Synchronised P D := by
    rw [hp₃, hp₁]
    exact ((hp.apply .disconnect).apply (.adapter none)).apply .disconnected
  obtain ⟨q, hrun, hsettled', hadapter', hwallet', hkept'⟩ := exists_settled C hsync
  have hconnected : p₃.isWalletConnected = true := by
    rw [isWalletConnected, hwallet₃]
    simpa using w.ne
  refine ⟨q, ⟨trivial, trivial, ?_⟩, hsettled', hadapter'.trans hadapter₃, ?_,
    hkept.trans (hkept' hadapter₃ hconnected)⟩
  · rw [← hp₁]
    refine ⟨hallows, trivial, trivial, trivial, ?_⟩
    rw [← hp₃]
    exact hrun
  · rw [hwallet', hadapter₃, hwallet₃]
    rfl

/-- A wallet that connects. -/
def panelWallet : WalletPubKey := 
  ⟨"Pane1Wa11et", by decide, base58_of_all (by decide)⟩

/-- In every state with no effect pending, the session follows the adapter exactly when the adapter
is connected, or never was and no refresh, nor the opening of the page, kept a verified signal. -/
theorem follows_iff {now : Int} {s : LocalStorage} {isVerified : Bool} {as : List Action}
    (hrun : AnyRun P D C (mount P now s isVerified) as p) (hsettled : p.Settled) :
    p.Follows ↔
      (p.adapter = none → (∀ a ∈ as, ¬ a.Connects) ∧ Unrecorded P s now (.refresh :: as)) := by
  have hsync := hrun.synchronised (synchronised_mount now s isVerified)
  have hmount := unconnected_mount P now s isVerified
  have hread := loadVerified_gone_or_same (P := P) now s
  constructor
  · intro h hadapter
    have hnone : ∀ a ∈ as, ¬ a.Connects := by
      intro a hmem hconnects
      have hwallet := (h.disconnected hadapter).1.wallet
      exact (hrun.reached (synchronised_mount now s isVerified) ⟨a, hmem, hconnects⟩).elim
        (fun hne => hne hadapter) fun hne => hne hwallet
    obtain ⟨v, hunconnected, hv⟩ := hrun.unconnected hmount hread hnone
    have hgone := hv.mp (hunconnected.verified.symm.trans (h.disconnected hadapter).2.2)
    exact ⟨hnone, hgone.imp (fun h => ⟨rfl, h⟩) id⟩
  · intro hnone
    constructor
    · exact fun w hw => hsync.connected hsettled hw
    · intro hadapter
      obtain ⟨v, hunconnected, hv⟩ := hrun.unconnected hmount hread (hnone hadapter).1
      have hgone := hv.mpr ((hnone hadapter).2.imp And.right id)
      refine ⟨hunconnected.session, hunconnected.identity ?_, hunconnected.verified.trans hgone⟩
      rw [hsettled.identityEffect]
      exact Option.some_ne_none _

theorem follows_iff_sample : ∃ p, AnyRun symbolic sampleDates sampleCodecs
    (mount symbolic 0 (fun _ => none) false) (connecting panelWallet) p ∧ p.Settled ∧
      p.Follows := by
  obtain ⟨p, hrun, hsettled, hadapter, -⟩ := exists_connected symbolic sampleDates sampleCodecs 0
    (fun _ => none) false panelWallet
  refine ⟨p, hrun, hsettled, (follows_iff hrun hsettled).mpr fun hnone => ?_⟩
  rw [hadapter] at hnone
  cases hnone

/-- Connected and disconnected: the adapter has no wallet, and the session has one. -/
theorem disconnected_session_stays : ∃ p, AnyRun symbolic sampleDates sampleCodecs
    (mount symbolic 0 (fun _ => none) false) (connecting panelWallet ++ disconnecting) p ∧
      p.Settled ∧ p.adapter = none ∧ p.sessionWallet = some "Pane1Wa11et" ∧ ¬ p.Follows := by
  obtain ⟨p, hrun, hsettled, hadapter, -⟩ := exists_connected symbolic sampleDates sampleCodecs 0
    (fun _ => none) false panelWallet
  obtain ⟨q, hrun', hsettled', hadapter', hwallet', -⟩ := disconnect_keeps_session sampleCodecs
    (hrun.synchronised (synchronised_mount ..)) hsettled hadapter
  refine ⟨q, hrun.append hrun', hsettled', hadapter', hwallet', fun hfollows => ?_⟩
  have hnone := (hfollows.disconnected hadapter').1.wallet
  exact Option.some_ne_none _ (hwallet'.symm.trans hnone)

end Panel
end SovereignJedi.Pages
