import SovereignJedi.Pages.Following

/-! What the publish buttons send. The widget reads the pointer of its wallet anew whenever
`setManifestCid` announces a change; the memo of `ConnectWallet` is computed once for each wallet of
the session, and keeps the pointer that it found then. -/

namespace SovereignJedi.Pages

open SovereignJedi.Js SovereignJedi.Crypto SovereignJedi.Async SovereignJedi.Session
open SovereignJedi.Manifest SovereignJedi.Wallet

/-! ### Statements -/

/-- The transaction is signed by the wallet of the session, and carries what `getManifestCid`
returns for that wallet at the click. -/
structure SentManifest.Current (cluster : Option String) (tx : SentManifest) : Prop where
  signer : tx.sessionWallet = some tx.signer.val
  manifestCid : ∃ s, getManifestCid cluster tx.signer.val tx.storage = .ok (s, some tx.manifestCid)

namespace Panel

/-- The pointer of the adapter's wallet is what it was when the memo was computed. -/
def MemoFresh (cluster : Option String) (p : Panel) : Prop :=
  ∀ w, p.adapter = some w →
    pointer cluster w p.storage = pointer cluster w p.connect.memo.storage

/-- Where a restore of `cid` for `walletPubKey` ends, the wallet that the widget listens for has the
pointer `cid` then: it is `walletPubKey`, or has that pointer already. -/
def RestoreShown (cluster : Option String) (p : Panel) (walletPubKey cid : String) : Prop :=
  ∀ w : WalletPubKey, p.widget.listening = some (some w.val) → trim cid ≠ "" →
    if w.val = walletPubKey then trim cid = cid else pointer cluster w p.storage = some cid

/-- The condition on a step. -/
def Fresh (cluster : Option String) (p : Panel) : Action → Prop
  | .publishConnect => p.MemoFresh cluster
  | .restored i => ∀ w cid, p.restores[i]? = some (w, cid) → p.RestoreShown cluster w cid
  | .removeManifestCid w => p.widget.listening = some (some w.val) →
      pointer cluster w (Function.update p.storage (scopedKey cluster w.val) none) =
        pointer cluster w p.storage
  | _ => True

variable {P : Platform} {D : Dates} {C : TextCodecs} {p q : Panel} {cluster : Option String}

theorem current_iff {tx : SentManifest} : tx.Current cluster ↔
    tx.sessionWallet = some tx.signer.val ∧
      pointer cluster tx.signer tx.storage = some tx.manifestCid := by
  constructor
  · rintro ⟨hsigner, s, hs⟩
    rw [getManifestCid_val, Except.ok.injEq, Prod.mk.injEq] at hs
    exact ⟨hsigner, hs.2⟩
  · rintro ⟨hsigner, hpointer⟩
    exact ⟨hsigner, _, by rw [getManifestCid_val, hpointer]⟩

/-! ### Reading pointers -/

/-- No wallet, or the key of one. -/
def IsWallet (o : Option String) : Prop := ∀ x, o = some x → ∃ w : WalletPubKey, x = w.val

theorem isWallet_none : IsWallet none := fun _ h => by cases h

theorem isWallet_val (w : WalletPubKey) : IsWallet (some w.val) := fun _ h =>
  ⟨w, (Option.some.inj h).symm⟩

theorem equalPointers_localManifestCid (cluster : Option String) {o : Option String}
    (ho : IsWallet o) (s : LocalStorage) :
    EqualPointers cluster s (localManifestCid cluster o s).1 := by
  cases o with
  | none => exact fun _ => rfl
  | some x =>
    obtain ⟨w, rfl⟩ := ho x rfl
    intro w'
    rw [localManifestCid_val, pointer_migrate]

/-- What the reads and writes of pointers leave as it is. -/
structure Frame (p q : Panel) : Prop where
  wallet : q.sessionWallet = p.sessionWallet
  view : q.connect.view = p.connect.view
  memo : q.connect.memo = p.connect.memo
  rendered : q.widget.view = p.widget.view
  listening : q.widget.listening = p.widget.listening

theorem Quiet.frame (h : Quiet cluster p q) : Frame p q :=
  ⟨h.wallet, h.view, h.memo, h.rendered, h.listening⟩

/-- The widget has read the pointer of the wallet that it listens for. -/
def CopyFresh (cluster : Option String) (p : Panel) : Prop :=
  ∀ w : WalletPubKey, p.widget.listening = some (some w.val) →
    p.widget.localManifestCid = pointer cluster w p.storage

theorem manifestCidChanged_spec (P : Platform) {p : Panel} (h : IsWallet p.widget.listening.join) :
    Frame p (p.manifestCidChanged P) ∧ (p.manifestCidChanged P).restores = p.restores ∧
      EqualPointers P.cluster p.storage (p.manifestCidChanged P).storage ∧
      (p.manifestCidChanged P).CopyFresh P.cluster := by
  have hlistening : (p.manifestCidChanged P).widget.listening = p.widget.listening := by
    unfold manifestCidChanged
    split <;> rfl
  unfold CopyFresh
  rw [hlistening]
  unfold manifestCidChanged
  split
  · rename_i x hx
    obtain ⟨hjoin, -⟩ := Option.filter_eq_some_iff.mp hx
    obtain ⟨w, rfl⟩ := h x hjoin
    have hread : localManifestCid P.cluster (some w.val) p.storage =
        (migrate P.cluster w.val p.storage, pointer P.cluster w p.storage) :=
      localManifestCid_val P.cluster w p.storage
    refine ⟨⟨rfl, rfl, rfl, rfl, rfl⟩, rfl,
      equalPointers_localManifestCid P.cluster (isWallet_val w) p.storage, fun w' hw' => ?_⟩
    rw [hw'] at hjoin
    obtain rfl : w' = w := WalletPubKey.val_injective (Option.some.inj hjoin)
    change (localManifestCid P.cluster (some w'.val) p.storage).2 =
      pointer P.cluster w' (localManifestCid P.cluster (some w'.val) p.storage).1
    rw [hread, pointer_migrate]
  · rename_i hnone
    refine ⟨⟨rfl, rfl, rfl, rfl, rfl⟩, rfl, fun _ => rfl, fun w hw => ?_⟩
    rw [hw, Option.join_some, Option.filter_eq_none_iff] at hnone
    exact absurd (by simpa using w.ne) (hnone w.val rfl)

theorem manifest_setManifestCid_eq_ok {w : WalletPubKey} {cid : String} {s s' : LocalStorage} :
    Manifest.setManifestCid cluster w.val cid s = .ok s' ↔
      trim cid ≠ "" ∧ s' = setItem s (scopedKey cluster w.val) (trim cid) := by
  unfold Manifest.setManifestCid
  by_cases htrim : trim cid = ""
  · rw [if_pos htrim]
    constructor
    · intro h
      cases h
    · exact fun h => absurd htrim h.1
  · rw [if_neg htrim, canonicalizeWalletPubKey_val]
    simp only [ok_bind, buildManifestStorageKey_val, result_pure, Except.ok.injEq]
    exact ⟨fun h => ⟨htrim, h.symm⟩, fun h => h.2.symm⟩

theorem setManifestCid_spec (h : IsWallet p.widget.listening.join) {w : WalletPubKey} {cid : String}
    (hset : p.setManifestCid P w.val cid = .ok q) :
    trim cid ≠ "" ∧ Frame p q ∧ q.restores = p.restores ∧
      EqualPointers P.cluster (setItem p.storage (scopedKey P.cluster w.val) (trim cid)) q.storage ∧
      q.CopyFresh P.cluster := by
  obtain ⟨s, hs, rfl⟩ := setManifestCid_eq_ok.mp hset
  obtain ⟨htrim, rfl⟩ := manifest_setManifestCid_eq_ok.mp hs
  obtain ⟨hframe, hrestores, hequal, hcopy⟩ := manifestCidChanged_spec P
    (p := p.onStorage fun _ => setItem p.storage (scopedKey P.cluster w.val) (trim cid)) h
  exact ⟨htrim, ⟨hframe.wallet, hframe.view, hframe.memo, hframe.rendered, hframe.listening⟩,
    hrestores, hequal, hcopy⟩

/-! ### The caches -/

/-- What holds of the copies of the pointer, and of the wallets that they are read for. -/
structure Copied (P : Platform) (D : Dates) (p : Panel) : Prop where
  synchronised : p.Synchronised P D
  session : IsWallet p.sessionWallet
  rendered : IsWallet p.widget.view.walletPubKey
  listening : IsWallet p.widget.listening.join
  restores : ∀ r ∈ p.restores, IsWallet (some r.1)
  memoKey : p.connect.memo.walletPubKey = p.connect.view.walletPubKey
  memo : ∀ w : WalletPubKey, p.connect.memo.walletPubKey = some w.val →
    p.connect.memo.localManifestCid = pointer P.cluster w p.connect.memo.storage
  copy : p.CopyFresh P.cluster

theorem Copied.congr (h : p.Copied P D) (hsync : q.Synchronised P D) (hframe : Frame p q)
    (hrestores : ∀ r ∈ q.restores, r ∈ p.restores) (hcopy : q.CopyFresh P.cluster) :
    q.Copied P D where
  synchronised := hsync
  session := by
    rw [hframe.wallet]
    exact h.session
  rendered := by
    rw [hframe.rendered]
    exact h.rendered
  listening := by
    rw [hframe.listening]
    exact h.listening
  restores r hr := h.restores r (hrestores r hr)
  memoKey := by rw [hframe.memo, hframe.view, h.memoKey]
  memo := by
    rw [hframe.memo]
    exact h.memo
  copy := hcopy

/-- The copy stays right where the widget keeps it and the pointers stay. -/
theorem CopyFresh.congr (h : p.CopyFresh cluster)
    (hlistening : q.widget.listening = p.widget.listening)
    (hcopy : q.widget.localManifestCid = p.widget.localManifestCid)
    (hpointers : EqualPointers cluster p.storage q.storage) : q.CopyFresh cluster := by
  intro w hw
  rw [hlistening] at hw
  rw [hcopy, h w hw, hpointers w]

theorem copied_mount (P : Platform) (D : Dates) (now : Int) (s : LocalStorage) (isVerified : Bool) :
    (mount P now s isVerified).Copied P D where
  synchronised := synchronised_mount now s isVerified
  session := isWallet_none
  rendered := isWallet_none
  listening := isWallet_none
  restores := fun r hr => by cases hr
  memoKey := rfl
  memo := fun w hw => by cases hw
  copy := fun w hw => by cases hw

theorem Copied.renderConnect (h : p.Copied P D) (hsync : (p.renderConnect P).Synchronised P D) :
    (p.renderConnect P).Copied P D := by
  revert hsync
  unfold Panel.renderConnect
  dsimp only
  split
  · rename_i hkey
    intro hsync
    exact ⟨hsync, h.session, h.rendered, h.listening, h.restores, hkey, h.memo, h.copy⟩
  · intro hsync
    have hpointers := equalPointers_localManifestCid P.cluster h.session p.storage
    refine ⟨hsync, h.session, h.rendered, h.listening, h.restores, rfl, fun w hw => ?_,
      h.copy.congr rfl rfl hpointers⟩
    change (localManifestCid P.cluster p.sessionWallet p.storage).2 = _
    rw [show p.sessionWallet = some w.val from hw, localManifestCid_val]

theorem call_connectWallet (cluster : Option String) (p : Panel) (w : WalletPubKey)
    (provider : Option String) :
    (p.call P D (.connectWallet (.text w.val) provider p.now)).sessionWallet = some w.val ∧
      EqualPointers cluster p.storage
        (p.call P D (.connectWallet (.text w.val) provider p.now)).storage := by
  rw [sessionWallet, storage, storage, call_session]
  exact ⟨(connectWallet_walletPubKey ..).trans (normalized_text w.ne),
    equalPointers_of_records (connectWallet_records P p.now (.text w.val) provider p.session.state)⟩

theorem Copied.syncSession (h : p.Copied P D) (hsync : (p.syncSession P D).Synchronised P D) :
    (p.syncSession P D).Copied P D := by
  revert hsync
  unfold Panel.syncSession
  split
  · exact fun _ => h
  · dsimp only
    split
    · rename_i w hw
      intro hsync
      obtain ⟨hwallet, hpointers⟩ := call_connectWallet (P := P) (D := D) P.cluster
        { p with connect := { p.connect with
            synced := some p.connect.view, publicKeyStr := p.connect.view.address } } w
        (some "phantom")
      refine ⟨hsync, ?_, h.rendered, h.listening, h.restores, h.memoKey, h.memo,
        h.copy.congr rfl rfl hpointers⟩
      exact fun x hx => isWallet_val w x (hwallet.symm.trans hx)
    · intro hsync
      exact ⟨hsync, h.session, h.rendered, h.listening, h.restores, h.memoKey, h.memo, h.copy⟩

theorem Copied.readPointer (h : p.Copied P D) (hsync : (p.readPointer P).Synchronised P D) :
    (p.readPointer P).Copied P D := by
  revert hsync
  unfold Panel.readPointer
  split
  · exact fun _ => h
  · intro hsync
    refine ⟨hsync, h.session, h.rendered, h.rendered, h.restores, h.memoKey, h.memo, fun w hw => ?_⟩
    have hview : p.widget.view.walletPubKey = some w.val := Option.some.inj hw
    change (localManifestCid P.cluster p.widget.view.walletPubKey p.storage).2 =
      pointer P.cluster w (localManifestCid P.cluster p.widget.view.walletPubKey p.storage).1
    rw [hview, localManifestCid_val, pointer_migrate]

theorem Copied.storePointer (h : p.Copied P D) {w : WalletPubKey} {cid : String}
    (hsync : (p.storePointer P w.val cid).Synchronised P D) :
    (p.storePointer P w.val cid).Copied P D := by
  revert hsync
  unfold Panel.storePointer
  split
  · rename_i q hq
    intro hsync
    obtain ⟨-, hframe, hrestores, -, hcopy⟩ := setManifestCid_spec h.listening hq
    exact h.congr hsync hframe (fun r hr => hrestores ▸ hr) hcopy
  · exact fun _ => h

theorem removeManifestCid_eq (b : Bool) (w : WalletPubKey) (s : LocalStorage) :
    removeManifestCid b cluster w.val s =
      .ok (if b then Function.update s (scopedKey cluster w.val) none
        else setItem s (scopedKey cluster w.val) "") := by
  simp only [removeManifestCid, canonicalizeWalletPubKey_val, ok_bind, buildManifestStorageKey_val,
    result_pure]

theorem pointer_removed {w w' : WalletPubKey} (h : w' ≠ w) (s : LocalStorage) :
    pointer cluster w' (Function.update s (scopedKey cluster w.val) none) =
      pointer cluster w' s := by
  have hscoped : scopedKey cluster w'.val ≠ scopedKey cluster w.val := fun he =>
    h (scopedKey_injective he)
  rw [pointer, pointer, Function.update_of_ne hscoped,
    Function.update_of_ne (scopedKey_ne_legacyKey cluster w w').symm]

theorem Copied.dropPointer (h : p.Copied P D) {w : WalletPubKey}
    (hfresh : p.Fresh P.cluster (.removeManifestCid w))
    (hsync : (p.dropPointer P w.val).Synchronised P D) : (p.dropPointer P w.val).Copied P D := by
  revert hsync
  unfold Panel.dropPointer
  rw [removeManifestCid_eq, if_pos rfl]
  intro hsync
  refine h.congr hsync ⟨rfl, rfl, rfl, rfl, rfl⟩ (fun r hr => hr) fun w' hw' => ?_
  change p.widget.localManifestCid = pointer P.cluster w' (Function.update p.storage _ none)
  rw [h.copy w' hw']
  by_cases hsame : w' = w
  · subst hsame
    exact (hfresh hw').symm
  · exact (pointer_removed hsame p.storage).symm

theorem Copied.clickRestore (h : p.Copied P D) (hsync : p.clickRestore.Synchronised P D) :
    p.clickRestore.Copied P D := by
  revert hsync
  unfold Panel.clickRestore
  split
  · rename_i w cid hw hcid
    intro hsync
    refine ⟨hsync, h.session, h.rendered, h.listening, fun r hr => ?_, h.memoKey, h.memo, h.copy⟩
    rcases List.mem_append.mp hr with hr | hr
    · exact h.restores r hr
    · rw [List.mem_singleton.mp hr, ← (Option.filter_eq_some_iff.mp hw).1]
      exact h.rendered
  · exact fun _ => h

theorem Copied.finishRestore (h : p.Copied P D) {i : Nat}
    (hfresh : p.Fresh P.cluster (.restored i))
    (hsync : (p.finishRestore P i).Synchronised P D) : (p.finishRestore P i).Copied P D := by
  revert hsync
  unfold Panel.finishRestore
  split
  · rename_i w cid hi
    obtain ⟨w, rfl⟩ := h.restores _ (List.mem_of_getElem? hi) w rfl
    have hshown := hfresh _ _ hi
    have herase : ∀ r ∈ p.restores.eraseIdx i, r ∈ p.restores := fun r hr =>
      List.mem_of_mem_eraseIdx hr
    dsimp only
    split
    · rename_i q hq
      intro hsync
      obtain ⟨htrim, hframe, hrestores, hpointers, -⟩ :=
        setManifestCid_spec (by exact h.listening) hq
      refine h.congr hsync
        ⟨hframe.wallet, hframe.view, hframe.memo, hframe.rendered, hframe.listening⟩
        (fun r (hr : r ∈ q.restores) => herase r ?_) fun w' hw' => ?_
      · rw [hrestores] at hr
        exact hr
      have hpointer := hpointers w'
      have hlistening : p.widget.listening = some (some w'.val) := hframe.listening.symm.trans hw'
      have hcid := hshown w' hlistening htrim
      change some cid = pointer P.cluster w' q.storage
      rw [hpointer, pointer_setItem_scoped]
      split
      · rename_i hsame
        rw [if_pos (congrArg WalletPubKey.val hsame)] at hcid
        have hne : cid ≠ "" := fun he => htrim (hcid.trans he)
        simp [cidFound, hcid, hne]
      · rename_i hother
        rw [if_neg fun he => hother (WalletPubKey.val_injective he)] at hcid
        exact hcid.symm
    · intro hsync
      exact h.congr hsync ⟨rfl, rfl, rfl, rfl, rfl⟩ herase h.copy
  · exact fun _ => h

/-- Every step keeps the copies right where the condition holds of it. -/
theorem Copied.apply (h : p.Copied P D) {a : Action} (hfresh : p.Fresh P.cluster a) :
    (p.apply P D C a).Copied P D := by
  have hsync := h.synchronised.apply (C := C) a
  rcases loud_or_quiet (C := C) h.synchronised.standing a with hloud | hquiet
  · cases a with
    | adapter wallet => exact h.congr hsync ⟨rfl, rfl, rfl, rfl, rfl⟩ (fun r hr => hr) h.copy
    | renderConnect => exact h.renderConnect hsync
    | syncSession => exact h.syncSession hsync
    | renderWidget =>
      exact ⟨hsync, h.session, h.session, h.listening, h.restores, h.memoKey, h.memo, h.copy⟩
    | readPointer => exact h.readPointer hsync
    | setManifestCid w cid => exact h.storePointer hsync
    | removeManifestCid w => exact h.dropPointer hfresh hsync
    | restore => exact h.clickRestore hsync
    | restored i => exact h.finishRestore hfresh hsync
    | publishConnect =>
      obtain ⟨sent, publishing, hclicked⟩ := p.clickPublish_changes
      rw [Panel.apply, hclicked] at hsync ⊢
      exact h.congr hsync ⟨rfl, rfl, rfl, rfl, rfl⟩ (fun r hr => hr) h.copy
    | publishWidget =>
      obtain ⟨sent, loading, hclicked⟩ := p.handlePublish_changes
      rw [Panel.apply, hclicked] at hsync ⊢
      exact h.congr hsync ⟨rfl, rfl, rfl, rfl, rfl⟩ (fun r hr => hr) h.copy
    | _ => exact hloud.elim
  · exact h.congr hsync hquiet.frame (fun r hr => hquiet.restores ▸ hr)
      (h.copy.congr hquiet.listening hquiet.copy hquiet.pointers)

/-! ### What is sent -/

theorem publishManifest_sent (p : Panel) (wallet : Option WalletPubKey) (cid : String) :
    (p.publishManifest wallet cid).sent =
      p.sent ++ (wallet.map fun w => ⟨w, cid, p.sessionWallet, p.storage⟩).toList := by
  unfold publishManifest
  split
  · rfl
  · exact (List.append_nil _).symm

/-- Only the publish buttons send anything. -/
theorem sent_apply (hp : p.Standing P D) {a : Action} (hconnect : a ≠ .publishConnect)
    (hwidget : a ≠ .publishWidget) : (p.apply P D C a).sent = p.sent := by
  rcases loud_or_quiet (C := C) hp a with hloud | hquiet
  · cases a with
    | adapter w => rfl
    | syncSession =>
      simp only [apply, syncSession]
      split
      · rfl
      · split <;> rfl
    | renderConnect =>
      obtain ⟨s, memo, h⟩ := renderConnect_changes P p
      rw [apply, h]
      rfl
    | renderWidget => rfl
    | readPointer =>
      obtain ⟨s, copy, h⟩ := readPointer_changes P p
      rw [apply, h]
      rfl
    | setManifestCid w cid =>
      obtain ⟨s, copy, h⟩ := storePointer_changes P p w.val cid
      rw [apply, h]
      rfl
    | removeManifestCid w =>
      obtain ⟨s, h⟩ := dropPointer_changes P p w.val
      rw [apply, h]
      rfl
    | restore =>
      obtain ⟨restores, loading, h⟩ := p.clickRestore_changes
      rw [apply, h]
    | restored i =>
      obtain ⟨s, restores, copy, loading, h⟩ := finishRestore_changes P p i
      rw [apply, h]
      rfl
    | publishConnect => exact absurd rfl hconnect
    | publishWidget => exact absurd rfl hwidget
    | _ => exact hloud.elim
  · exact hquiet.sent

/-- What a click sends while the adapter is connected is right where its CID is the pointer. -/
theorem click_current_iff (h : p.Copied P D) (hsettled : p.Settled) {w : WalletPubKey}
    (hadapter : p.adapter = some w) {cid : String} :
    SentManifest.Current cluster ⟨w, cid, p.sessionWallet, p.storage⟩ ↔
      pointer cluster w p.storage = some cid := by
  rw [current_iff]
  exact and_iff_right (h.synchronised.connected hsettled hadapter)

/-- A click on the button of `ConnectWallet` sends a current pointer exactly when the pointer is
what it was when the memo was computed. -/
theorem clickPublish_current_iff (h : p.Copied P D) (hsettled : p.Settled) {w : WalletPubKey}
    (hadapter : p.adapter = some w) {cid : String}
    (hcid : p.connect.memo.localManifestCid = some cid) :
    SentManifest.Current P.cluster ⟨w, cid, p.sessionWallet, p.storage⟩ ↔
      p.MemoFresh P.cluster := by
  have hkey : p.connect.memo.walletPubKey = some w.val := by
    rw [h.memoKey, hsettled.connect]
    exact h.synchronised.connected hsettled hadapter
  rw [click_current_iff h hsettled hadapter, ← hcid, h.memo w hkey]
  constructor
  · intro hsame w' hw'
    obtain rfl : w = w' := Option.some.inj (hadapter.symm.trans hw')
    exact hsame
  · exact fun hfresh => hfresh w hadapter

/-- A click on the button of the widget sends a current pointer. -/
theorem handlePublish_current (h : p.Copied P D) (hsettled : p.Settled) {w : WalletPubKey}
    (hadapter : p.adapter = some w) {cid : String} (hcid : p.widget.localManifestCid = some cid) :
    SentManifest.Current P.cluster ⟨w, cid, p.sessionWallet, p.storage⟩ := by
  have hlistening : p.widget.listening = some (some w.val) := by
    rw [hsettled.listening, hsettled.widget]
    exact congrArg some (h.synchronised.connected hsettled hadapter)
  rw [click_current_iff h hsettled hadapter, ← h.copy w hlistening, hcid]

theorem Settled.view_address (h : p.Settled) :
    p.connect.view.address = p.adapter ∧ p.widget.view.address = p.adapter :=
  ⟨congrArg View.address h.connect, congrArg View.address h.widget⟩

theorem sent_current_apply (h : p.Copied P D) {a : Action} (hallows : p.Allows a)
    (hfresh : p.Fresh P.cluster a) (hsent : ∀ tx ∈ p.sent, tx.Current P.cluster) :
    ∀ tx ∈ (p.apply P D C a).sent, tx.Current P.cluster := by
  by_cases hconnect : a = .publishConnect
  · subst hconnect
    obtain ⟨hsettled, -, -⟩ := hallows
    simp only [Panel.apply, clickPublish]
    split
    · rename_i cid hcid
      intro tx htx
      rw [publishManifest_sent, hsettled.view_address.1, List.mem_append] at htx
      rcases htx with htx | htx
      · exact hsent tx htx
      · obtain ⟨w, hadapter, rfl⟩ := Option.map_eq_some_iff.mp (Option.mem_toList.mp htx)
        exact (clickPublish_current_iff h hsettled hadapter hcid).mpr hfresh
    · exact hsent
  · by_cases hwidget : a = .publishWidget
    · subst hwidget
      obtain ⟨hsettled, -, -⟩ := hallows
      simp only [Panel.apply, handlePublish]
      split
      · rename_i cid hcid
        intro tx htx
        rw [publishManifest_sent, hsettled.view_address.2, List.mem_append] at htx
        rcases htx with htx | htx
        · exact hsent tx htx
        · obtain ⟨w, hadapter, rfl⟩ := Option.map_eq_some_iff.mp (Option.mem_toList.mp htx)
          exact handlePublish_current h hsettled hadapter hcid
      · exact hsent
    · rw [sent_apply h.synchronised.standing hconnect hwidget]
      exact hsent

/-! ### A stale memo -/

/-- The renderings and effects, and the events of the adapter. -/
def Calm : Action → Prop
  | .adapter _ | .renderConnect | .syncSession | .renderIdentity | .clearUnconnected => True
  | .renderWidget | .readPointer => True
  | _ => False

theorem calm_connecting (w : WalletPubKey) : ∀ a ∈ connecting w, Calm a := by
  simp [connecting, settling, Calm]

theorem Calm.fresh {a : Action} (ha : Calm a) (p : Panel) : p.Fresh cluster a := by
  cases a with
  | removeManifestCid w => exact ha.elim
  | restored i => exact ha.elim
  | publishConnect => exact ha.elim
  | _ => exact trivial

/-- What is as it was when the page was opened with `s`. -/
structure Untouched (cluster : Option String) (s : LocalStorage) (p : Panel) : Prop where
  pointers : EqualPointers cluster s p.storage
  memo : EqualPointers cluster s p.connect.memo.storage
  publicKeyStr : p.connect.publicKeyStr = (p.connect.synced.map View.address).join
  isVerified : p.connect.isVerified = true
  head : p.connect.onChainLatestManifestCid = none
  publishing : p.connect.publishing = false
  restores : p.restores = []

theorem untouched_mount (cluster : Option String) (now : Int) (s : LocalStorage) :
    (mount P now s true).Untouched cluster s where
  pointers := equalPointers_of_records (loadVerified_records P now s)
  memo := fun _ => rfl
  publicKeyStr := rfl
  isVerified := rfl
  head := rfl
  publishing := rfl
  restores := rfl

theorem Untouched.congr {s : LocalStorage} (h : p.Untouched cluster s)
    (hconnect : q.connect = p.connect) (hrestores : q.restores = p.restores)
    (hpointers : EqualPointers cluster p.storage q.storage) : q.Untouched cluster s where
  pointers w := (hpointers w).trans (h.pointers w)
  memo := by
    rw [hconnect]
    exact h.memo
  publicKeyStr := by rw [hconnect, h.publicKeyStr]
  isVerified := by rw [hconnect, h.isVerified]
  head := by rw [hconnect, h.head]
  publishing := by rw [hconnect, h.publishing]
  restores := hrestores.trans h.restores

theorem clearUnconnected_connect (p : Panel) : (p.clearUnconnected P D).connect = p.connect := by
  unfold clearUnconnected
  split
  · rfl
  · dsimp only
    split <;> rfl

theorem Untouched.apply {s : LocalStorage} (hp : p.Copied P D) (h : p.Untouched P.cluster s)
    {a : Action} (ha : Calm a) : (p.apply P D C a).Untouched P.cluster s := by
  cases a with
  | adapter w => exact h.congr rfl rfl fun _ => rfl
  | renderIdentity => exact h.congr rfl rfl fun _ => rfl
  | renderWidget => exact h.congr rfl rfl fun _ => rfl
  | clearUnconnected =>
    have hquiet := quiet_clearUnconnected (P := P) (D := D) P.cluster p
    exact h.congr (clearUnconnected_connect p) hquiet.restores hquiet.pointers
  | readPointer =>
    simp only [Panel.apply, Panel.readPointer]
    split
    · exact h
    · exact h.congr rfl rfl (equalPointers_localManifestCid P.cluster hp.rendered p.storage)
  | renderConnect =>
    simp only [Panel.apply, Panel.renderConnect]
    split
    · exact ⟨h.pointers, h.memo, h.publicKeyStr, h.isVerified, h.head, h.publishing, h.restores⟩
    · have hread := equalPointers_localManifestCid P.cluster hp.session p.storage
      exact ⟨fun w => (hread w).trans (h.pointers w), h.pointers, h.publicKeyStr, h.isVerified,
        h.head, h.publishing, h.restores⟩
  | syncSession =>
    simp only [Panel.apply, Panel.syncSession]
    split
    · exact h
    · split
      · rename_i w hw
        obtain ⟨-, hpointers⟩ := call_connectWallet (P := P) (D := D) P.cluster
          { p with connect := { p.connect with
              synced := some p.connect.view, publicKeyStr := p.connect.view.address } } w
          (some "phantom")
        exact ⟨fun w' => (hpointers w').trans (h.pointers w'), h.memo, rfl, h.isVerified,
          h.head, h.publishing, h.restores⟩
      · exact ⟨h.pointers, h.memo, rfl, h.isVerified, h.head, h.publishing, h.restores⟩
  | _ => exact ha.elim

theorem AnyRun.untouched {s : LocalStorage} {as : List Action} (hrun : AnyRun P D C p as q)
    (has : ∀ a ∈ as, Calm a) (hp : p.Copied P D) (h : p.Untouched P.cluster s) :
    Run P D C (Fresh P.cluster) p as q ∧ q.Copied P D ∧ q.Untouched P.cluster s := by
  induction as generalizing p with
  | nil =>
    obtain rfl : q = p := hrun
    exact ⟨rfl, hp, h⟩
  | cons a as ih =>
    have ha := has a List.mem_cons_self
    obtain ⟨hrest, hq⟩ := ih hrun.2.2 (fun b hb => has b (List.mem_cons_of_mem a hb))
      (hp.apply (ha.fresh p)) (h.apply hp ha)
    exact ⟨⟨hrun.1, ha.fresh p, hrest⟩, hq⟩

/-- The page opened with the pointer `cid` of `w`, and the adapter connected: the button of
`ConnectWallet` is there, and the memo has `cid`. -/
theorem exists_publishable (P : Platform) (D : Dates) (C : TextCodecs) {s : LocalStorage}
    {w : WalletPubKey} {cid : String} (hpointer : pointer P.cluster w s = some cid)
    (hcid : cid ≠ "") :
    ∃ p, Run P D C (Fresh P.cluster) (mount P 0 s true) (connecting w) p ∧ p.Copied P D ∧
      p.Settled ∧ p.adapter = some w ∧ p.connect.memo.localManifestCid = some cid ∧
      p.MemoFresh P.cluster ∧ p.Allows .publishConnect := by
  obtain ⟨p, hrun, hsettled, hadapter, hwallet⟩ := exists_connected P D C 0 s true w
  obtain ⟨hrun', hcopied, huntouched⟩ := hrun.untouched (calm_connecting w)
    (copied_mount P D 0 s true) (untouched_mount P.cluster 0 s)
  have hkey : p.connect.memo.walletPubKey = some w.val := by
    rw [hcopied.memoKey, hsettled.connect]
    exact hwallet
  have hmemo : p.connect.memo.localManifestCid = some cid := by
    rw [hcopied.memo w hkey, huntouched.memo w, hpointer]
  have hkeyStr : p.connect.publicKeyStr = some w := by
    rw [huntouched.publicKeyStr, hsettled.synced, Option.map_some, hsettled.connect, current,
      hadapter, Option.join_some]
  have hcan : p.connect.canPublish = true := by
    rw [ConnectWallet.canPublish, ConnectWallet.isUpToDate, hkeyStr, huntouched.isVerified, hmemo,
      huntouched.head, huntouched.publishing]
    simpa using hcid
  refine ⟨p, hrun', hcopied, hsettled, hadapter, hmemo, fun w' _ => ?_, hsettled,
    huntouched.restores, hcan⟩
  rw [huntouched.pointers w', huntouched.memo w']

theorem publishConnect_sent (hsettled : p.Settled) {w : WalletPubKey}
    (hadapter : p.adapter = some w) {cid : String}
    (hcid : p.connect.memo.localManifestCid = some cid) :
    (p.apply P D C .publishConnect).sent = p.sent ++ [⟨w, cid, p.sessionWallet, p.storage⟩] := by
  simp only [apply, clickPublish, hcid, publishManifest_sent, hsettled.view_address.1, hadapter]
  rfl

theorem Settled.setManifestCid (h : p.Settled) {w cid : String}
    (hset : p.setManifestCid P w cid = .ok q) : q.Settled := by
  obtain ⟨s, copy, rfl⟩ := setManifestCid_changes hset
  exact ⟨h.connect, h.synced, h.identity, h.identityEffect, h.widget, h.listening⟩

/-- Where the button of `ConnectWallet` can be clicked, it sends the same CID after the pointer has
changed. -/
theorem exists_stale (C : TextCodecs) (h : p.Copied P D) {w : WalletPubKey}
    (hadapter : p.adapter = some w) {cid cid' : String}
    (hmemo : p.connect.memo.localManifestCid = some cid) (hallows : p.Allows .publishConnect)
    (htrim : trim cid' = cid') (hne : cid' ≠ "") (hnew : cid' ≠ cid) :
    ∃ q, AnyRun P D C p [.setManifestCid w cid', .publishConnect] q ∧ ∃ tx ∈ q.sent,
      tx.signer = w ∧ tx.manifestCid = cid ∧ pointer P.cluster w tx.storage = some cid' ∧
      ¬ tx.Current P.cluster := by
  obtain ⟨q, hset⟩ : ∃ q, p.setManifestCid P w.val cid' = .ok q :=
    ⟨_, setManifestCid_eq_ok.mpr ⟨_, setManifestCid_val P.cluster w htrim hne p.storage, rfl⟩⟩
  obtain ⟨hadapter', hconnect, hrestores⟩ :
      q.adapter = p.adapter ∧ q.connect = p.connect ∧ q.restores = p.restores := by
    obtain ⟨s, copy, rfl⟩ := setManifestCid_changes hset
    exact ⟨rfl, rfl, rfl⟩
  obtain ⟨-, -, -, hpointers, -⟩ := setManifestCid_spec h.listening hset
  have hpointer : pointer P.cluster w q.storage = some cid' := by
    rw [hpointers w, htrim, pointer_set_same P.cluster w htrim hne]
  have hsettled : q.Settled := hallows.1.setManifestCid hset
  have hstep : p.apply P D C (.setManifestCid w cid') = q := by
    simp only [apply, storePointer, hset]
  have hclick : q.Allows .publishConnect :=
    ⟨hsettled, hrestores.trans hallows.2.1, (congrArg _ hconnect).trans hallows.2.2⟩
  refine ⟨q.apply P D C .publishConnect, ⟨trivial, trivial, ?_⟩,
    ⟨w, cid, q.sessionWallet, q.storage⟩, ?_, rfl, rfl, hpointer, fun hcurrent => ?_⟩
  · rw [hstep]
    exact ⟨hclick, trivial, rfl⟩
  · rw [publishConnect_sent hsettled (hadapter'.trans hadapter)
      (hconnect ▸ hmemo)]
    exact List.mem_append_right _ (List.mem_singleton_self _)
  · have hold := (current_iff.mp hcurrent).2
    exact hnew (Option.some.inj (hpointer.symm.trans hold))

/-! ### Runs -/

/-- A storage with the pointer of a wallet. -/
def pointedStorage (P : Platform) : LocalStorage :=
  setItem (fun _ => none) (scopedKey P.cluster panelWallet.val) "bafyOld"

theorem pointer_pointedStorage (P : Platform) :
    pointer P.cluster panelWallet (pointedStorage P) = some "bafyOld" :=
  pointer_set_same P.cluster panelWallet (by decide) (by decide) _

/-- In every run whose steps meet the condition, what the publish buttons send is signed by the
wallet of the session and carries its pointer. -/
theorem published_current {now : Int} {s : LocalStorage} {isVerified : Bool} {as : List Action}
    (hrun : Run P D C (Fresh P.cluster) (mount P now s isVerified) as p) :
    ∀ tx ∈ p.sent, tx.Current P.cluster := by
  have hinv := Run.invariant
    (fun p => p.Copied P D ∧ ∀ tx ∈ p.sent, tx.Current P.cluster)
    (fun _ _ h hallows hfresh =>
      ⟨h.1.apply hfresh, sent_current_apply h.1 hallows hfresh h.2⟩) hrun
    ⟨copied_mount P D now s isVerified, fun tx htx => by cases htx⟩
  exact hinv.2

theorem published_current_sample : ∃ p, Run symbolic sampleDates sampleCodecs
    (Fresh symbolic.cluster) (mount symbolic 0 (pointedStorage symbolic) true)
    (connecting panelWallet ++ [.publishConnect]) p ∧ p.sent ≠ [] ∧
      ∀ tx ∈ p.sent, tx.Current symbolic.cluster := by
  obtain ⟨p, hrun, -, hsettled, hadapter, hmemo, hfresh, hallows⟩ := exists_publishable symbolic
    sampleDates sampleCodecs (pointer_pointedStorage symbolic) (by decide)
  have hclick : Run symbolic sampleDates sampleCodecs (Fresh symbolic.cluster) p [.publishConnect]
      (p.apply symbolic sampleDates sampleCodecs .publishConnect) := ⟨hallows, hfresh, rfl⟩
  refine ⟨_, hrun.append hclick, ?_, published_current (hrun.append hclick)⟩
  rw [publishConnect_sent hsettled hadapter hmemo]
  exact List.append_ne_nil_of_right_ne_nil _ (List.cons_ne_nil _ _)

/-- A pointer that changes after the wallet is connected: the button of `ConnectWallet` sends the
old one. -/
theorem stale_pointer_published : ∃ p, AnyRun symbolic sampleDates sampleCodecs
    (mount symbolic 0 (pointedStorage symbolic) true)
    (connecting panelWallet ++ [.setManifestCid panelWallet "bafyNew", .publishConnect]) p ∧
      ∃ tx ∈ p.sent, tx.signer = panelWallet ∧ tx.manifestCid = "bafyOld" ∧
        pointer symbolic.cluster panelWallet tx.storage = some "bafyNew" ∧
        ¬ tx.Current symbolic.cluster := by
  obtain ⟨p, hrun, hcopied, -, hadapter, hmemo, -, hallows⟩ := exists_publishable symbolic
    sampleDates sampleCodecs (pointer_pointedStorage symbolic) (by decide)
  obtain ⟨q, hrun', hsent⟩ := exists_stale sampleCodecs hcopied hadapter hmemo hallows
    (show trim "bafyNew" = "bafyNew" by decide) (by decide) (by decide)
  exact ⟨q, hrun.any.append hrun', hsent⟩

end Panel
end SovereignJedi.Pages
