import SovereignJedi.Manifest.Service

/-! The service's calls run to the end with nothing interleaved: each is a pure computation of what
it reads, merges or seals, followed by at most one change of the browser's data. -/

namespace SovereignJedi.Manifest

open SovereignJedi.Js SovereignJedi.Crypto SovereignJedi.Async

variable (P : Platform)

/-- `getManifestCid` of a wallet on the browser's data. -/
def manifestCid (w : WalletPubKey) (b : Browser) : Option String :=
  pointer P.cluster w b.localStorage

/-- The data after a read of the wallet's pointer. -/
def Browser.migrated (w : WalletPubKey) (b : Browser) : Browser :=
  { b with localStorage := migrate P.cluster w.val b.localStorage }

/-- The data after `bytes` were added to IPFS and the wallet's pointer set to their CID. -/
def Browser.stored (w : WalletPubKey) (bytes : Bytes) (b : Browser) : Browser where
  localStorage := setItem b.localStorage (scopedKey P.cluster w.val) (P.cidOf bytes)
  uploads := b.uploads ++ [bytes]

/-- The bytes that `persist` uploads. -/
def sealManifest (fault : Faults) (draws : SealDraws) (walletPubKey : String)
    (kek manifestKey : Bytes) (manifest : Json) : Result Bytes := do
  let envelope ← attempt (fault .wrap)
    (buildManifestWrapEnvelope P walletPubKey kek manifestKey draws.salt.1 draws.wrapNonce)
  let encrypted ← attempt (fault .encrypt)
    (encryptManifestV1 P manifest manifestKey walletPubKey envelope draws.nonce)
  attempt (fault .addBytes) (.ok (P.encodeJsonToBytes encrypted))

/-- The key and manifest that `readManifest` gets. -/
def fetchManifest (fault : Faults) (walletPubKey : String) (signatureBytes : Bytes)
    (cid invalidJson : String) : Result (Bytes × Json) := do
  let bytes ← attempt (fault .catBytes) (.ok (P.content cid))
  let encrypted ← rethrow (P.decodeBytesToJson bytes) fun _ => invalidJson
  let manifestKey ← attempt (fault .unwrap) (unwrapManifestKey P encrypted walletPubKey signatureBytes)
  let manifest ← attempt (fault .decrypt) (decryptManifestV1 P encrypted manifestKey walletPubKey)
  return (manifestKey, manifest)

/-- The bytes that the INIT branch uploads. -/
def sealEmpty (walletPubKey : String) (p : LoadParams) : Result Bytes := do
  let kek ← attempt (p.env.fault .deriveKek) (deriveVaultRootKekFromSignature P p.signatureBytes)
  let manifestKey ← attempt (p.env.fault .deriveManifestKey) (deriveManifestKey P kek)
  attempt (p.env.fault .sodium) (.ok ())
  sealManifest P p.env.fault p.env.draws walletPubKey kek manifestKey
    (emptyManifest walletPubKey p.env.nowIso)

/-- The manifest and the bytes that an append makes of the manifest at `cid`. -/
def sealAppended (p : AppendParams) (walletPubKey cid : String) : Result (Json × Bytes) := do
  let (manifestKey, manifest) ← fetchManifest P p.env.fault walletPubKey p.signatureBytes cid
    "Impossible de charger le manifest : JSON invalide."
  let manifest ← mergeEntry p manifest
  attempt (p.env.fault .sodium) (.ok ())
  let kek ← attempt (p.env.fault .deriveKek) (deriveVaultRootKekFromSignature P p.signatureBytes)
  let bytes ← sealManifest P p.env.fault p.env.draws walletPubKey kek manifestKey manifest
  return (manifest, bytes)

variable {P}

@[simp] theorem manifestCid_migrated (w w' : WalletPubKey) (b : Browser) :
    manifestCid P w (b.migrated P w') = manifestCid P w b :=
  pointer_migrate _ _ _ _

theorem manifestCid_stored_same (hP : P.Lawful) (w : WalletPubKey) (bytes : Bytes) (b : Browser) :
    manifestCid P w (b.stored P w bytes) = some (P.cidOf bytes) :=
  pointer_set_same _ w (hP.cidOf_trim bytes) (hP.cidOf_ne bytes) _

@[simp] theorem isBlank_val (w : WalletPubKey) : isBlank w.val = false := by
  simp [isBlank, w.ne]

@[simp] theorem attempt_none {α : Type} (r : Result α) : attempt none r = r := rfl

theorem attempt_eq_ok {α : Type} {fault : Option JsError} {r : Result α} {a : α} :
    attempt fault r = .ok a ↔ fault = none ∧ r = .ok a := by
  cases fault <;> simp [attempt]

/-! ### Runs -/

@[simp] theorem run_step {α : Type} (point : Step → AwaitPoint) (fault : Faults) (s : Step)
    (r : Result α) (b : Browser) : (step point fault s r).run b = (b, attempt (fault s) r) := rfl

theorem run_readManifestCid (w : WalletPubKey) (b : Browser) :
    (readManifestCid P w.val).run b = (b.migrated P w, .ok (manifestCid P w b)) := by
  simp [readManifestCid, Task.run_atomically, getManifestCid_val, Browser.migrated, manifestCid]

theorem run_storeManifestCid (hP : P.Lawful) (w : WalletPubKey) (bytes : Bytes) (b : Browser) :
    (storeManifestCid P w.val (P.cidOf bytes)).run b =
      ({ b with localStorage :=
          setItem b.localStorage (scopedKey P.cluster w.val) (P.cidOf bytes) }, .ok ()) := by
  simp [storeManifestCid, Task.run_atomically,
    setManifestCid_val P.cluster w (hP.cidOf_trim bytes) (hP.cidOf_ne bytes)]

theorem run_addBytes (point : Step → AwaitPoint) (fault : Faults) (bytes : Bytes) (b : Browser) :
    (addBytes P point fault bytes).run b =
      match fault .addBytes with
      | none => ({ b with uploads := b.uploads ++ [bytes] }, .ok (P.cidOf bytes))
      | some e => (b, .error e) := by
  rw [addBytes, Task.bind_def, Task.run_bind, run_step]
  cases fault .addBytes <;> rfl

theorem run_persist (hP : P.Lawful) (point : Step → AwaitPoint) (fault : Faults) (draws : SealDraws)
    (w : WalletPubKey) (kek manifestKey : Bytes) (manifest : Json) (b : Browser) :
    (persist P point fault draws w.val kek manifestKey manifest).run b =
      match sealManifest P fault draws w.val kek manifestKey manifest with
      | .ok bytes => (b.stored P w bytes, .ok (P.cidOf bytes))
      | .error e => (b, .error e) := by
  simp only [persist, sealManifest, Task.bind_def]
  rw [Task.run_bind, run_step]
  cases attempt (fault .wrap)
      (buildManifestWrapEnvelope P w.val kek manifestKey draws.salt.1 draws.wrapNonce) with
  | error e => rfl
  | ok envelope =>
    simp only [ok_bind]
    rw [Task.run_bind, run_step]
    cases attempt (fault .encrypt)
        (encryptManifestV1 P manifest manifestKey w.val envelope draws.nonce) with
    | error e => rfl
    | ok encrypted =>
      simp only [ok_bind, Task.run_bind, run_addBytes]
      cases fault .addBytes with
      | some e => rfl
      | none =>
        simp only [attempt_none, run_storeManifestCid hP]
        rfl

theorem run_readManifest (point : Step → AwaitPoint) (fault : Faults) (walletPubKey : String)
    (signatureBytes : Bytes) (cid invalidJson : String) (b : Browser) :
    (readManifest P point fault walletPubKey signatureBytes cid invalidJson).run b =
      (b, fetchManifest P fault walletPubKey signatureBytes cid invalidJson) := by
  simp only [readManifest, fetchManifest, Task.bind_def]
  rw [Task.run_bind, run_step]
  cases attempt (fault .catBytes) (.ok (P.content cid)) with
  | error e => rfl
  | ok bytes =>
    simp only [ok_bind]
    rw [Task.run_bind, Task.run_done]
    cases rethrow (P.decodeBytesToJson bytes) fun _ => invalidJson with
    | error e => rfl
    | ok encrypted =>
      simp only [ok_bind]
      rw [Task.run_bind, run_step]
      cases attempt (fault .unwrap) (unwrapManifestKey P encrypted walletPubKey signatureBytes) with
      | error e => rfl
      | ok manifestKey =>
        simp only [ok_bind]
        rw [Task.run_bind, run_step]
        cases attempt (fault .decrypt)
            (decryptManifestV1 P encrypted manifestKey walletPubKey) <;> rfl

theorem run_initManifest (hP : P.Lawful) (w : WalletPubKey) (p : LoadParams) (b : Browser) :
    (initManifest P w.val p).run b =
      match sealEmpty P w.val p with
      | .ok bytes => (b.stored P w bytes,
          .ok (.created (emptyManifest w.val p.env.nowIso) (P.cidOf bytes)))
      | .error e => (b, .error e) := by
  simp only [initManifest, sealEmpty, Task.bind_def]
  rw [Task.run_bind, run_step]
  cases attempt (p.env.fault .deriveKek) (deriveVaultRootKekFromSignature P p.signatureBytes) with
  | error e => rfl
  | ok kek =>
    simp only [ok_bind]
    rw [Task.run_bind, run_step]
    cases attempt (p.env.fault .deriveManifestKey) (deriveManifestKey P kek) with
    | error e => rfl
    | ok manifestKey =>
      simp only [ok_bind]
      rw [Task.run_bind, run_step]
      cases attempt (p.env.fault .sodium) (.ok ()) with
      | error e => rfl
      | ok _ =>
        simp only [ok_bind, Task.run_bind, run_persist hP]
        cases sealManifest P p.env.fault p.env.draws w.val kek manifestKey
          (emptyManifest w.val p.env.nowIso) <;> rfl

theorem run_appendTo (hP : P.Lawful) (w : WalletPubKey) (p : AppendParams) (cid : String)
    (b : Browser) :
    (appendTo P p w.val cid).run b =
      match sealAppended P p w.val cid with
      | .ok (manifest, bytes) => (b.stored P w bytes, .ok (manifest, P.cidOf bytes))
      | .error e => (b, .error e) := by
  simp only [appendTo, sealAppended, Task.bind_def]
  rw [Task.run_bind, run_readManifest]
  cases fetchManifest P p.env.fault w.val p.signatureBytes cid
      "Impossible de charger le manifest : JSON invalide." with
  | error e => rfl
  | ok read =>
    simp only [ok_bind]
    rw [Task.run_bind, Task.run_done]
    cases mergeEntry p read.2 with
    | error e => rfl
    | ok manifest =>
      simp only [ok_bind]
      rw [Task.run_bind, run_step]
      cases attempt (p.env.fault .sodium) (.ok ()) with
      | error e => rfl
      | ok _ =>
        simp only [ok_bind]
        rw [Task.run_bind, run_step]
        cases attempt (p.env.fault .deriveKek)
            (deriveVaultRootKekFromSignature P p.signatureBytes) with
        | error e => rfl
        | ok kek =>
          simp only [ok_bind, Task.run_bind, run_persist hP]
          cases sealManifest P p.env.fault p.env.draws w.val kek read.1 manifest <;> rfl

theorem run_loadManifest (p : LoadParams) (walletPubKey cid : String) (b : Browser) :
    (loadManifest P walletPubKey p cid).run b =
      (b, (fetchManifest P p.env.fault walletPubKey p.signatureBytes cid
        ("Impossible de charger le manifest : JSON invalide (CID=" ++ cid ++ ")")).map
          fun r => .loaded r.2 cid) := by
  rw [loadManifest, Task.bind_def, Task.run_bind, run_readManifest]
  cases fetchManifest P p.env.fault walletPubKey p.signatureBytes cid
    ("Impossible de charger le manifest : JSON invalide (CID=" ++ cid ++ ")") <;> rfl

/-- What `loadManifestOrInit` does once its arguments are checked. -/
def loadOutcome (P : Platform) (w : WalletPubKey) (p : LoadParams) (b : Browser) :
    Browser × Result LoadResult :=
  match manifestCid P w b with
  | some cid => (b.migrated P w,
      (fetchManifest P p.env.fault w.val p.signatureBytes cid
        ("Impossible de charger le manifest : JSON invalide (CID=" ++ cid ++ ")")).map
          fun r => .loaded r.2 cid)
  | none =>
    if onChainHead p.onChainLatestManifestCid then (b.migrated P w, .ok .restoreRequired)
    else match sealEmpty P w.val p with
      | .ok bytes => ((b.migrated P w).stored P w bytes,
          .ok (.created (emptyManifest w.val p.env.nowIso) (P.cidOf bytes)))
      | .error e => (b.migrated P w, .error e)

theorem run_loadManifestOrInit (hP : P.Lawful) {w : WalletPubKey} {p : LoadParams}
    (hw : trim p.walletPubKey = w.val) (hunlock : hasUnlock p.unlock = true) (b : Browser) :
    (loadManifestOrInit P p).run b = loadOutcome P w p b := by
  have hread := run_readManifestCid (P := P) w b
  simp only [loadManifestOrInit, hw, isBlank_val, hunlock, Bool.not_false, check, require_true,
    Task.bind_def, Task.done_ok_bind, Task.run_bind_ok hread, loadOutcome]
  cases manifestCid P w b with
  | some cid => exact run_loadManifest p w.val cid _
  | none =>
    by_cases hchain : onChainHead p.onChainLatestManifestCid = true
    · simp only [hchain, if_true]
      rfl
    · simp only [hchain]
      exact run_initManifest hP w p _

/-- An append on the manifest at `cid`, when the data is `b`. -/
def appendOutcome (P : Platform) (w : WalletPubKey) (p : AppendParams) (cid : String) (b : Browser) :
    Browser × Result (Json × String) :=
  match sealAppended P p w.val cid with
  | .ok (manifest, bytes) => (b.stored P w bytes, .ok (manifest, P.cidOf bytes))
  | .error e => (b, .error e)

/-- What an append does in its section. -/
def sectionOutcome (P : Platform) (w : WalletPubKey) (p : AppendParams) (b : Browser) :
    Browser × Result (Json × String) :=
  match manifestCid P w b with
  | some cid => appendOutcome P w p cid (b.migrated P w)
  | none =>
    if onChainHead p.onChainLatestManifestCid then
      (b.migrated P w, .error (.error "Restore from Solana required before appending"))
    else match sealEmpty P w.val (p.toInit w.val) with
      | .ok bytes => appendOutcome P w p (P.cidOf bytes) ((b.migrated P w).stored P w bytes)
      | .error e => (b.migrated P w, .error e)

theorem sectionOutcome_some {w : WalletPubKey} {p : AppendParams} {b : Browser} {cid : String}
    (h : manifestCid P w b = some cid) :
    sectionOutcome P w p b = appendOutcome P w p cid (b.migrated P w) := by
  rw [sectionOutcome, h]

theorem sectionOutcome_onChain {w : WalletPubKey} {p : AppendParams} {b : Browser}
    (h : manifestCid P w b = none) (hchain : onChainHead p.onChainLatestManifestCid = true) :
    sectionOutcome P w p b =
      (b.migrated P w, .error (.error "Restore from Solana required before appending")) := by
  rw [sectionOutcome, h]
  simp only [hchain, if_true]

theorem sectionOutcome_init_error {w : WalletPubKey} {p : AppendParams} {b : Browser} {e : JsError}
    (h : manifestCid P w b = none) (hchain : onChainHead p.onChainLatestManifestCid = false)
    (hseal : sealEmpty P w.val (p.toInit w.val) = .error e) :
    sectionOutcome P w p b = (b.migrated P w, .error e) := by
  rw [sectionOutcome, h]
  simp only [hchain, hseal]
  rfl

theorem sectionOutcome_init {w : WalletPubKey} {p : AppendParams} {b : Browser} {bytes : Bytes}
    (h : manifestCid P w b = none) (hchain : onChainHead p.onChainLatestManifestCid = false)
    (hseal : sealEmpty P w.val (p.toInit w.val) = .ok bytes) :
    sectionOutcome P w p b =
      appendOutcome P w p (P.cidOf bytes) ((b.migrated P w).stored P w bytes) := by
  rw [sectionOutcome, h]
  simp only [hchain, hseal]
  rfl

theorem appendOutcome_ok {w : WalletPubKey} {p : AppendParams} {cid : String} {b : Browser}
    {m : Json} {bytes : Bytes} (h : sealAppended P p w.val cid = .ok (m, bytes)) :
    appendOutcome P w p cid b = (b.stored P w bytes, .ok (m, P.cidOf bytes)) := by
  rw [appendOutcome, h]

theorem appendOutcome_error {w : WalletPubKey} {p : AppendParams} {cid : String} {b : Browser}
    {e : JsError} (h : sealAppended P p w.val cid = .error e) :
    appendOutcome P w p cid b = (b, .error e) := by
  rw [appendOutcome, h]

theorem migrated_migrated (w : WalletPubKey) (b : Browser) :
    (b.migrated P w).migrated P w = b.migrated P w := by
  simp only [Browser.migrated, migrate_migrate]

theorem migrated_stored (w : WalletPubKey) (bytes : Bytes) (b : Browser) :
    (b.stored P w bytes).migrated P w = b.stored P w bytes := by
  simp only [Browser.migrated, Browser.stored, migrate_setItem_scoped]

/-- The init inside an append. -/
theorem run_ensureManifest (hP : P.Lawful) {w : WalletPubKey} {p : AppendParams}
    (hunlock : hasUnlock p.unlock = true) {b : Browser} (hcid : manifestCid P w b = none) :
    (ensureManifest P p w.val none).run b =
      if onChainHead p.onChainLatestManifestCid then
        (b.migrated P w, .error (.error "Restore from Solana required before appending"))
      else match sealEmpty P w.val (p.toInit w.val) with
        | .ok bytes => ((b.migrated P w).stored P w bytes, .ok ())
        | .error e => (b.migrated P w, .error e) := by
  have hinit := run_loadManifestOrInit (p := p.toInit w.val) hP w.trim_val hunlock b
  rw [ensureManifest, Task.bind_def, Task.run_bind, Task.run_awaited, hinit, loadOutcome, hcid]
  by_cases hchain : onChainHead p.onChainLatestManifestCid = true
  · simp only [AppendParams.toInit_onChainLatestManifestCid, hchain, if_true]
    rfl
  · simp only [AppendParams.toInit_onChainLatestManifestCid, hchain]
    cases sealEmpty P w.val (p.toInit w.val) <;> rfl

theorem run_appendSection (hP : P.Lawful) {w : WalletPubKey} {p : AppendParams}
    (hw : trim p.walletPubKey = w.val) (hunlock : hasUnlock p.unlock = true) (b : Browser) :
    (appendSection P p).run b = sectionOutcome P w p b := by
  have hread := run_readManifestCid (P := P) w b
  simp only [appendSection, hw, Task.bind_def, Task.run_bind_ok hread, sectionOutcome]
  cases hcid : manifestCid P w b with
  | some cid =>
    have hread' := run_readManifestCid (P := P) w (b.migrated P w)
    rw [manifestCid_migrated, hcid, migrated_migrated] at hread'
    simp only [ensureManifest, Task.pure_def, Task.done_ok_bind, Task.run_bind_ok hread']
    exact run_appendTo hP w p cid _
  | none =>
    have hcid' : manifestCid P w (b.migrated P w) = none := by rw [manifestCid_migrated, hcid]
    have hensure := run_ensureManifest hP (p := p) hunlock hcid'
    rw [migrated_migrated] at hensure
    by_cases hchain : onChainHead p.onChainLatestManifestCid = true
    · simp only [hchain, if_true] at hensure ⊢
      exact Task.run_bind_error hensure _
    · simp only [hchain] at hensure ⊢
      cases hseal : sealEmpty P w.val (p.toInit w.val) with
      | error e =>
        rw [hseal] at hensure
        exact Task.run_bind_error hensure _
      | ok bytes =>
        rw [hseal] at hensure
        have hread' := run_readManifestCid (P := P) w ((b.migrated P w).stored P w bytes)
        rw [manifestCid_stored_same hP, migrated_stored] at hread'
        refine (Task.run_bind_ok hensure _).trans ((Task.run_bind_ok hread' _).trans ?_)
        exact run_appendTo hP w p _ _

theorem appendEntryAndPersist_ok {p : AppendParams} (h : appendChecks p = .ok ()) :
    appendEntryAndPersist P p =
      runExclusive (trim p.walletPubKey) .previous .exclusive (appendSection P p) := by
  rw [appendEntryAndPersist, h]

theorem appendEntryAndPersist_error {p : AppendParams} {e : JsError}
    (h : appendChecks p = .error e) : appendEntryAndPersist P p = .done (.error e) := by
  rw [appendEntryAndPersist, h]

theorem run_appendEntryAndPersist_data {p : AppendParams} (h : appendChecks p = .ok ())
    (s : WalletTab) :
    ((appendEntryAndPersist P p).run s).1.data = ((appendSection P p).run s.data).1 := by
  rw [appendEntryAndPersist_ok h, (run_runExclusive_data _ _ _ _ _).1]

theorem run_appendEntryAndPersist_result {p : AppendParams} (h : appendChecks p = .ok ())
    (s : WalletTab) :
    ((appendEntryAndPersist P p).run s).2 = ((appendSection P p).run s.data).2 := by
  rw [appendEntryAndPersist_ok h, (run_runExclusive_data _ _ _ _ _).2]

end SovereignJedi.Manifest
