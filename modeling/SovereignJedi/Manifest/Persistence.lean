import SovereignJedi.Js.Symbolic
import SovereignJedi.Manifest.Sequential

/-! What a wallet's pointer designates. A sealed manifest opens under the signature that sealed it,
so that after an init and any number of appends under one signature, a later session loads exactly
the manifest that the last call returned. -/

namespace SovereignJedi.Manifest

open SovereignJedi.Js SovereignJedi.Crypto SovereignJedi.Async

variable {P : Platform}

/-! ### Merging -/

theorem newEntry_wf (p : AppendParams) : (newEntry p).WF := by
  refine .ofFields (show ["entryId", "fileCid", "addedAt", "envelope", "originalFileName", "mimeType",
    "fileSize", "fileIntegritySha256B64"].Nodup by decide) (show ∀ k ∈ ["entryId", "fileCid",
    "addedAt", "envelope", "originalFileName", "mimeType", "fileSize", "fileIntegritySha256B64"],
    Json.isIndexKey k = false by decide) ?_
  simp only [List.mem_cons, List.not_mem_nil, or_false, forall_eq_or_imp, forall_eq,
    Option.some.injEq, Option.map_eq_some_iff, forall_exists_index, and_imp]
  refine ⟨?_, ?_, ?_, p.entry.envelope_wf, ?_, ?_, ?_, ?_⟩
  · rintro v rfl; exact .str _
  · rintro v rfl; exact .str _
  · rintro v rfl; exact .str _
  · rintro v s - rfl; exact .str _
  · rintro v s - rfl; exact .str _
  · rintro v q - rfl; exact .num _
  · rintro v s - rfl; exact .str _

theorem entriesOf_eq_ok {m : Json} {es : List Json} :
    entriesOf m = .ok es ↔ m.get "entries" = some (.arr es) := by
  unfold entriesOf
  split <;> simp_all

theorem mergeEntry_isManifest {w : String} {p : AppendParams} {m m' : Json} (hm : IsManifest w m)
    (h : mergeEntry p m = .ok m') : IsManifest w m' := by
  simp only [mergeEntry, bind_eq_ok, require_eq_ok, exists_const, result_pure, Except.ok.injEq] at h
  obtain ⟨-, -, es, hes, dup, -, rfl⟩ := h
  have hmerged : IsManifest w (if dup then m else m.set "entries" (.arr (es ++ [newEntry p]))) := by
    cases dup with
    | true => exact hm
    | false =>
      refine hm.set (.arr fun x hx => ?_) (by decide) (by decide) (by decide)
      rcases List.mem_append.mp hx with hx | hx
      · cases hm.wf.get (entriesOf_eq_ok.mp hes) with
        | arr hwf => exact hwf x hx
      · obtain rfl := List.mem_singleton.mp hx
        exact newEntry_wf p
  exact hmerged.set (.str _) (by decide) (by decide) (by decide)

/-! ### Sealed manifests open -/

theorem emptyManifest_isManifest (w createdAt : String) :
    IsManifest w (emptyManifest w createdAt) := by
  refine ⟨.obj (show Json.OwnKeys ["version", "walletPubKey", "createdAt", "updatedAt", "entries"]
    by decide) ?_, rfl, by simp [emptyManifest]⟩
  simp only [List.mem_cons, List.not_mem_nil, or_false, forall_eq_or_imp, forall_eq]
  exact ⟨.num _, .str _, .str _, .str _, .arr (by simp)⟩

theorem openManifest_sealManifest (hP : P.Lawful) {w : WalletPubKey} {sig kek key bytes : Bytes}
    {fault : Faults} {draws : SealDraws} {m : Json}
    (hkek : deriveVaultRootKekFromSignature P sig = .ok kek) (hkey : key.length = 32)
    (hm : IsManifest w.val m) (h : sealManifest P fault draws w.val kek key m = .ok bytes) :
    openManifest P w.val sig bytes = .ok m := by
  simp only [sealManifest, bind_eq_ok, attempt_eq_ok, Except.ok.injEq] at h
  obtain ⟨env, ⟨-, hbuild⟩, obj, ⟨-, hencrypt⟩, -, rfl⟩ := h
  exact openManifest_sealed hP (isBlank_val w) hkek hkey hm hbuild hencrypt

theorem openManifest_sealEmpty (hP : P.Lawful) {w : WalletPubKey} {p : LoadParams} {bytes : Bytes}
    (h : sealEmpty P w.val p = .ok bytes) :
    openManifest P w.val p.signatureBytes bytes = .ok (emptyManifest w.val p.env.nowIso) := by
  simp only [sealEmpty, bind_eq_ok, attempt_eq_ok] at h
  obtain ⟨kek, ⟨-, hkek⟩, key, ⟨-, hkey⟩, _, -, h⟩ := h
  obtain ⟨kek', hkek', hlen⟩ := deriveKekFromSignature_ok hP p.signatureBytes none
  obtain rfl : kek' = kek := Except.ok.inj (hkek'.symm.trans hkek)
  obtain ⟨key', hkey', hkeylen⟩ := deriveManifestKey_ok hP hlen
  obtain rfl : key' = key := Except.ok.inj (hkey'.symm.trans hkey)
  exact openManifest_sealManifest hP hkek hkeylen (emptyManifest_isManifest _ _) h

/-- The steps of `fetchManifest` are those of `openManifest`, when none of them fails. -/
theorem fetchManifest_eq_ok {fault : Faults} {w cid message : String} {sig key : Bytes} {m : Json}
    (h : fetchManifest P fault w sig cid message = .ok (key, m)) :
    openManifest P w sig (P.content cid) = .ok m ∧ key.length = 32 ∧ fault .catBytes = none ∧
      fault .unwrap = none ∧ fault .decrypt = none := by
  simp only [fetchManifest, bind_eq_ok, attempt_eq_ok, rethrow_eq_ok, result_pure, Except.ok.injEq,
    Prod.mk.injEq] at h
  obtain ⟨bytes, ⟨hcat, rfl⟩, obj, hparse, key', ⟨hunwrapFault, hunwrap⟩, m', ⟨hdecFault, hdec⟩, rfl,
    rfl⟩ := h
  refine ⟨?_, (unwrapManifestKey_decrypts hunwrap).1, hcat, hunwrapFault, hdecFault⟩
  simp [openManifest, hparse, hunwrap, hdec]

theorem fetchManifest_of_open (fault : Faults) {w cid : String} (message : String) {sig : Bytes}
    {m : Json} (hcat : fault .catBytes = none) (hunwrap : fault .unwrap = none)
    (hdecrypt : fault .decrypt = none) (h : openManifest P w sig (P.content cid) = .ok m) :
    ∃ key, fetchManifest P fault w sig cid message = .ok (key, m) := by
  simp only [openManifest, bind_eq_ok] at h
  obtain ⟨obj, hparse, key, hkey, hm⟩ := h
  exact ⟨key, by simp [fetchManifest, hcat, hunwrap, hdecrypt, hparse, hkey, hm]⟩

/-- The parts of a successful append: the manifest it read, the merge and the sealing. -/
theorem sealAppended_eq_ok (hP : P.Lawful) {w : WalletPubKey} {p : AppendParams} {cid : String}
    {m' : Json} {bytes : Bytes} (h : sealAppended P p w.val cid = .ok (m', bytes)) :
    ∃ m, openManifest P w.val p.signatureBytes (P.content cid) = .ok m ∧ mergeEntry p m = .ok m' ∧
      openManifest P w.val p.signatureBytes bytes = .ok m' := by
  simp only [sealAppended, bind_eq_ok, attempt_eq_ok, result_pure, Except.ok.injEq,
    Prod.mk.injEq] at h
  obtain ⟨⟨key, m⟩, hfetch, m'', hmerge, _, -, kek, ⟨-, hkek⟩, bytes', hseal, rfl, rfl⟩ := h
  obtain ⟨hopen, hkey, -⟩ := fetchManifest_eq_ok hfetch
  have hm := mergeEntry_isManifest (openManifest_isManifest hP hopen) hmerge
  exact ⟨m, hopen, hmerge, openManifest_sealManifest hP hkek hkey hm hseal⟩

/-! ### Which steps can fail -/

/-- The operations of a read. -/
def readSteps : List Step := [.catBytes, .unwrap, .decrypt]

def sealSteps : List Step := [.wrap, .encrypt, .addBytes]

/-- The operations of the INIT branch. -/
def initSteps : List Step := [.deriveKek, .deriveManifestKey, .sodium] ++ sealSteps

/-- The operations of an append on a manifest. -/
def appendSteps : List Step := [.catBytes, .unwrap, .decrypt, .sodium, .deriveKek] ++ sealSteps

/-- None of the operations fails. -/
def Faults.NoneOf (fault : Faults) (steps : List Step) : Prop := ∀ s ∈ steps, fault s = none

theorem exists_sealManifest_iff (hP : P.Lawful) {w : WalletPubKey} {sig kek key : Bytes}
    (fault : Faults) (draws : SealDraws) {m : Json}
    (hkek : deriveVaultRootKekFromSignature P sig = .ok kek) (hkey : key.length = 32)
    (hm : IsManifest w.val m) :
    (∃ bytes, sealManifest P fault draws w.val kek key m = .ok bytes) ↔ fault.NoneOf sealSteps := by
  obtain ⟨env, hbuild, hwf, hver, hwal, -⟩ :=
    buildManifestWrapEnvelope_spec hP (isBlank_val w) hkek hkey draws.salt draws.wrapNonce
  obtain ⟨obj, hencrypt, -⟩ :=
    encryptManifestV1_spec hP (isBlank_val w) hm hkey hwf hver hwal draws.nonce
  simp only [Faults.NoneOf, sealSteps, List.mem_cons, List.not_mem_nil, or_false,
    forall_eq_or_imp, forall_eq]
  constructor
  · rintro ⟨bytes, h⟩
    simp only [sealManifest, bind_eq_ok, attempt_eq_ok] at h
    obtain ⟨_, ⟨hwrap, -⟩, _, ⟨henc, -⟩, hadd, -⟩ := h
    exact ⟨hwrap, henc, hadd⟩
  · rintro ⟨hwrap, henc, hadd⟩
    exact ⟨P.encodeJsonToBytes obj, by
      simp only [sealManifest, hwrap, henc, hadd, attempt_none, hbuild, ok_bind, hencrypt]⟩

/-- An init succeeds unless one of its operations fails. -/
theorem exists_sealEmpty_iff (hP : P.Lawful) (w : WalletPubKey) {p : LoadParams} :
    (∃ bytes, sealEmpty P w.val p = .ok bytes) ↔ p.env.fault.NoneOf initSteps := by
  obtain ⟨kek, hkek, hlen⟩ := deriveKekFromSignature_ok hP p.signatureBytes none
  obtain ⟨key, hkey, hkeylen⟩ := deriveManifestKey_ok hP hlen
  have hseal := exists_sealManifest_iff hP p.env.fault p.env.draws hkek hkeylen
    (emptyManifest_isManifest w.val p.env.nowIso)
  have hkek' : deriveVaultRootKekFromSignature P p.signatureBytes = .ok kek := hkek
  have hsteps : p.env.fault.NoneOf initSteps ↔ p.env.fault .deriveKek = none ∧
      p.env.fault .deriveManifestKey = none ∧ p.env.fault .sodium = none ∧
      p.env.fault.NoneOf sealSteps := by
    simp only [Faults.NoneOf, initSteps, List.cons_append, List.nil_append, List.mem_cons,
      forall_eq_or_imp]
  rw [hsteps, ← hseal]
  constructor
  · rintro ⟨bytes, h⟩
    simp only [sealEmpty, bind_eq_ok, attempt_eq_ok] at h
    obtain ⟨_, ⟨hd, he⟩, _, ⟨hm, he'⟩, _, ⟨hs, -⟩, h⟩ := h
    obtain rfl := Except.ok.inj (hkek'.symm.trans he)
    obtain rfl := Except.ok.inj (hkey.symm.trans he')
    exact ⟨hd, hm, hs, bytes, h⟩
  · rintro ⟨hd, hm, hs, bytes, h⟩
    exact ⟨bytes, by simp only [sealEmpty, hd, hm, hs, attempt_none, hkek', ok_bind, hkey, h]⟩

/-- An append on a manifest that opens succeeds unless the entry does not merge or one of the
append's operations fails. -/
theorem exists_sealAppended_iff (hP : P.Lawful) {w : WalletPubKey} {p : AppendParams} {cid : String}
    {m : Json} (hopen : openManifest P w.val p.signatureBytes (P.content cid) = .ok m) :
    (∃ r, sealAppended P p w.val cid = .ok r) ↔
      (∃ m', mergeEntry p m = .ok m') ∧ p.env.fault.NoneOf appendSteps := by
  have hsteps : p.env.fault.NoneOf appendSteps ↔ p.env.fault .catBytes = none ∧
      p.env.fault .unwrap = none ∧ p.env.fault .decrypt = none ∧ p.env.fault .sodium = none ∧
      p.env.fault .deriveKek = none ∧ p.env.fault.NoneOf sealSteps := by
    simp only [Faults.NoneOf, appendSteps, List.cons_append, List.nil_append, List.mem_cons,
      forall_eq_or_imp]
  obtain ⟨kek, hkek, hlen⟩ := deriveKekFromSignature_ok hP p.signatureBytes none
  have hkek' : deriveVaultRootKekFromSignature P p.signatureBytes = .ok kek := hkek
  rw [hsteps]
  constructor
  · rintro ⟨⟨m', bytes⟩, h⟩
    simp only [sealAppended, bind_eq_ok, attempt_eq_ok, result_pure, Except.ok.injEq] at h
    obtain ⟨⟨key, m₀⟩, hfetch, m'', hmerge, _, ⟨hs, -⟩, _, ⟨hd, he⟩, bytes', hseal, -⟩ := h
    obtain ⟨hopen', hkey, hc, hu, hdec⟩ := fetchManifest_eq_ok hfetch
    obtain rfl := Except.ok.inj (hkek'.symm.trans he)
    obtain rfl := Except.ok.inj (hopen.symm.trans hopen')
    have hm := mergeEntry_isManifest (openManifest_isManifest hP hopen) hmerge
    exact ⟨⟨m'', hmerge⟩, hc, hu, hdec, hs, hd,
      (exists_sealManifest_iff hP p.env.fault p.env.draws hkek hkey hm).mp ⟨bytes', hseal⟩⟩
  · rintro ⟨⟨m', hmerge⟩, hc, hu, hdec, hs, hd, hsealSteps⟩
    obtain ⟨key, hfetch⟩ := fetchManifest_of_open p.env.fault
      "Impossible de charger le manifest : JSON invalide." hc hu hdec hopen
    have hm := mergeEntry_isManifest (openManifest_isManifest hP hopen) hmerge
    obtain ⟨bytes, hseal⟩ := (exists_sealManifest_iff hP p.env.fault p.env.draws hkek
      (fetchManifest_eq_ok hfetch).2.1 hm).mpr hsealSteps
    exact ⟨(m', bytes), by
      simp only [sealAppended, hfetch, ok_bind, hmerge, hs, hd, hkek', attempt_none, hseal,
        result_pure]⟩

/-! ### Sessions -/

/-- The pointer of `w` designates an object that opens under `sig` to `m`. -/
def Designates (P : Platform) (w : WalletPubKey) (sig : Bytes) (b : Browser) (m : Json) : Prop :=
  ∃ cid, manifestCid P w b = some cid ∧ openManifest P w.val sig (P.content cid) = .ok m

theorem Designates.stored (hP : P.Lawful) {w : WalletPubKey} {sig bytes : Bytes} {m : Json}
    (h : openManifest P w.val sig bytes = .ok m) (b : Browser) :
    Designates P w sig (b.stored P w bytes) m :=
  ⟨P.cidOf bytes, manifestCid_stored_same hP w bytes b, by rwa [hP.content_cidOf]⟩

theorem loadOutcome_created (hP : P.Lawful) {w : WalletPubKey} {p : LoadParams} {b b' : Browser}
    {m : Json} {cid : String} (h : loadOutcome P w p b = (b', .ok (.created m cid))) :
    Designates P w p.signatureBytes b' m := by
  unfold loadOutcome at h
  split at h
  · generalize fetchManifest _ _ _ _ _ _ = read at h
    cases read <;> simp [Except.map] at h
  · split at h
    · simp at h
    · split at h
      · rename_i bytes hseal
        simp only [Prod.mk.injEq, Except.ok.injEq, LoadResult.created.injEq] at h
        obtain ⟨rfl, rfl, -⟩ := h
        exact Designates.stored hP (openManifest_sealEmpty hP hseal) _
      · simp at h

theorem sectionOutcome_ok (hP : P.Lawful) {w : WalletPubKey} {p : AppendParams} {b b' : Browser}
    {m' : Json} {cid' : String} (h : sectionOutcome P w p b = (b', .ok (m', cid'))) :
    Designates P w p.signatureBytes b' m' := by
  have happend : ∀ cid b₀, appendOutcome P w p cid b₀ = (b', .ok (m', cid')) →
      Designates P w p.signatureBytes b' m' := by
    intro cid b₀ h
    unfold appendOutcome at h
    split at h
    · rename_i m'' bytes hseal
      simp only [Prod.mk.injEq, Except.ok.injEq] at h
      obtain ⟨rfl, rfl, -⟩ := h
      obtain ⟨m, -, -, hopen⟩ := sealAppended_eq_ok hP hseal
      exact Designates.stored hP hopen _
    · simp at h
  unfold sectionOutcome at h
  split at h
  · exact happend _ _ h
  · split at h
    · simp at h
    · split at h
      · exact happend _ _ h
      · simp at h

/-- The browser's data after an init for `w` under `sig` and any number of further successful
appends under it, and the manifest that the last of these calls returned. -/
inductive Persisted (P : Platform) (w : WalletPubKey) (sig : Bytes) : Browser → Json → Prop
  | init {p : LoadParams} {b b' : Browser} {m : Json} {cid : String}
      (hw : trim p.walletPubKey = w.val) (hsig : p.signatureBytes = sig)
      (hrun : (loadManifestOrInit P p).run b = (b', .ok (.created m cid))) : Persisted P w sig b' m
  | append {p : AppendParams} {s s' : WalletTab} {m m' : Json} {cid : String}
      (hprev : Persisted P w sig s.data m) (hw : trim p.walletPubKey = w.val)
      (hsig : p.signatureBytes = sig)
      (hrun : (appendEntryAndPersist P p).run s = (s', .ok (m', cid))) :
      Persisted P w sig s'.data m'

theorem hasUnlock_of_load_ok {p : LoadParams} {b b' : Browser} {r : LoadResult}
    (h : (loadManifestOrInit P p).run b = (b', .ok r)) : hasUnlock p.unlock = true := by
  by_contra hunlock
  rw [Bool.not_eq_true] at hunlock
  cases hblank : isBlank (trim p.walletPubKey) <;>
    simp [loadManifestOrInit, check, hblank, hunlock] at h

theorem appendChecks_of_ok {p : AppendParams} {s s' : WalletTab} {r : Json × String}
    (h : (appendEntryAndPersist P p).run s = (s', .ok r)) : appendChecks p = .ok () := by
  cases hcheck : appendChecks p with
  | ok u => rfl
  | error e =>
    rw [appendEntryAndPersist_error hcheck, Task.run_done] at h
    simp at h

theorem appendChecks_ok {w : WalletPubKey} {p : AppendParams} (hw : trim p.walletPubKey = w.val)
    (hunlock : hasUnlock p.unlock = true) : appendChecks p = .ok () := by
  simp [appendChecks, hw, hunlock]

theorem hasUnlock_of_appendChecks {p : AppendParams} (h : appendChecks p = .ok ()) :
    hasUnlock p.unlock = true := by
  simp only [appendChecks, bind_eq_ok, require_eq_ok, exists_const] at h
  exact h.2

theorem Persisted.designates (hP : P.Lawful) {w : WalletPubKey} {sig : Bytes} {b : Browser} {m : Json}
    (h : Persisted P w sig b m) : Designates P w sig b m := by
  induction h with
  | init hw hsig hrun =>
    have hunlock := hasUnlock_of_load_ok hrun
    rw [run_loadManifestOrInit hP hw hunlock] at hrun
    exact hsig ▸ loadOutcome_created hP hrun
  | @append p s s' m m' cid _ hw hsig hrun _ =>
    have hcheck := appendChecks_of_ok hrun
    have hdata := run_appendEntryAndPersist_data (P := P) hcheck s
    have hresult := run_appendEntryAndPersist_result (P := P) hcheck s
    have hsection := run_appendSection hP hw (hasUnlock_of_appendChecks hcheck) s.data
    rw [hrun, hsection] at hdata hresult
    exact hsig ▸ sectionOutcome_ok hP (Prod.ext hdata.symm hresult.symm)

/-- Without a pointer or an on-chain head, a load none of whose steps fails creates a manifest. -/
theorem run_load_creates (hP : P.Lawful) {w : WalletPubKey} {p : LoadParams} {b : Browser}
    (hw : trim p.walletPubKey = w.val) (hunlock : hasUnlock p.unlock = true)
    (hfault : p.env.fault.NoneOf initSteps) (hcid : manifestCid P w b = none)
    (hchain : onChainHead p.onChainLatestManifestCid = false) :
    ∃ b' cid, (loadManifestOrInit P p).run b =
      (b', .ok (.created (emptyManifest w.val p.env.nowIso) cid)) := by
  obtain ⟨bytes, hseal⟩ := (exists_sealEmpty_iff hP w).mpr hfault
  refine ⟨(b.migrated P w).stored P w bytes, P.cidOf bytes, ?_⟩
  rw [run_loadManifestOrInit hP hw hunlock, loadOutcome, hcid]
  simp only [hchain, hseal]
  rfl

/-- An append that seals stores what it has sealed. -/
theorem run_append_sealed (hP : P.Lawful) {w : WalletPubKey} {p : AppendParams} {s : WalletTab}
    {m : Json} {cid : String} {bytes : Bytes} (hcheck : appendChecks p = .ok ())
    (hw : trim p.walletPubKey = w.val) (hcid : manifestCid P w s.data = some cid)
    (hseal : sealAppended P p w.val cid = .ok (m, bytes)) :
    ((appendEntryAndPersist P p).run s).1.data = (s.data.migrated P w).stored P w bytes ∧
      ((appendEntryAndPersist P p).run s).2 = .ok (m, P.cidOf bytes) := by
  have hsection : (appendSection P p).run s.data =
      ((s.data.migrated P w).stored P w bytes, .ok (m, P.cidOf bytes)) := by
    rw [run_appendSection hP hw (hasUnlock_of_appendChecks hcheck), sectionOutcome_some hcid,
      appendOutcome_ok hseal]
  rw [run_appendEntryAndPersist_data hcheck, run_appendEntryAndPersist_result hcheck, hsection]
  exact ⟨rfl, rfl⟩

/-- An append none of whose steps fails succeeds on a manifest that takes its entry. -/
theorem run_append_succeeds (hP : P.Lawful) {w : WalletPubKey} {p : AppendParams} {s : WalletTab}
    {m m' : Json} (hcheck : appendChecks p = .ok ()) (hw : trim p.walletPubKey = w.val)
    (hfault : p.env.fault.NoneOf appendSteps) (hm : Designates P w p.signatureBytes s.data m)
    (hmerge : mergeEntry p m = .ok m') :
    ∃ s' cid, (appendEntryAndPersist P p).run s = (s', .ok (m', cid)) := by
  obtain ⟨cid, hcid, hopen⟩ := hm
  obtain ⟨⟨m'', bytes⟩, hseal⟩ := (exists_sealAppended_iff hP hopen).mpr ⟨⟨m', hmerge⟩, hfault⟩
  obtain ⟨m₀, hopen', hmerge', -⟩ := sealAppended_eq_ok hP hseal
  obtain rfl := Except.ok.inj (hopen.symm.trans hopen')
  obtain rfl := Except.ok.inj (hmerge.symm.trans hmerge')
  exact ⟨_, _, Prod.ext rfl (run_append_sealed hP hcheck hw hcid hseal).2⟩

/-- Persistence across sessions: whatever appends followed the init, a load in a fresh session, with
the same wallet and signature and no failing step, returns the manifest that the last call
returned. -/
theorem load_persisted (hP : P.Lawful) {w : WalletPubKey} {sig : Bytes} {b : Browser} {m : Json}
    (h : Persisted P w sig b m) {p : LoadParams} (hw : trim p.walletPubKey = w.val)
    (hsig : p.signatureBytes = sig) (hunlock : hasUnlock p.unlock = true)
    (hfault : ∀ s, p.env.fault s = none) :
    ∃ cid, ((onData (loadManifestOrInit P p)).run (Tab.fresh b : WalletTab)).2 =
      .ok (.loaded m cid) := by
  obtain ⟨cid, hcid, hopen⟩ := h.designates hP
  obtain ⟨key, hfetch⟩ := fetchManifest_of_open p.env.fault
    ("Impossible de charger le manifest : JSON invalide (CID=" ++ cid ++ ")") (hfault _) (hfault _)
    (hfault _) hopen
  refine ⟨cid, ?_⟩
  rw [run_onData, Tab.fresh_data, run_loadManifestOrInit hP hw hunlock, loadOutcome, hcid, hsig]
  simp only [hfetch]
  rfl

/-! ### An instance -/

/-- The public key of 32 zero bytes. -/
def sampleWallet : WalletPubKey :=
  ⟨"11111111111111111111111111111111", by decide, base58_of_all (by decide)⟩

def sampleSignature : Bytes := List.replicate 64 0

def sampleUnlock : Value :=
  some (.obj [("canonicalObject", .obj []), ("messageToSign", .str "SOVEREIGN_JEDI_VAULT_ROOT_V1")])

def sampleDraws : SealDraws where
  salt := ⟨List.replicate 32 0, by simp⟩
  wrapNonce := ⟨List.replicate 24 0, by simp⟩
  nonce := ⟨List.replicate 24 0, by simp⟩

def sampleLoadEnv : LoadEnv where
  fault _ := none
  nowIso := "2024-01-01T00:00:00.000Z"
  draws := sampleDraws

def sampleLoad : LoadParams where
  walletPubKey := sampleWallet.val
  signatureBytes := sampleSignature
  unlock := sampleUnlock
  onChainLatestManifestCid := none
  env := sampleLoadEnv

def sampleEntry : EntryArg where
  fileCid := "bafyfile"
  envelope := some (.obj [])
  envelope_wf j h := by
    obtain rfl := Option.some.inj h
    exact .obj (show Json.OwnKeys [] by decide) (by simp)
  entryId := none
  addedAt := none
  originalFileName := none
  mimeType := none
  fileSize := none
  fileIntegritySha256B64 := none

def sampleAppend : AppendParams where
  walletPubKey := sampleWallet.val
  signatureBytes := sampleSignature
  unlock := sampleUnlock
  entry := sampleEntry
  onChainLatestManifestCid := none
  env := {
    init := sampleLoadEnv
    fault _ := none
    addedAtNow := "2024-01-01T00:00:01.000Z"
    updatedAtNow := "2024-01-01T00:00:02.000Z"
    uuid := "a"
    draws := sampleDraws }

/-- The data of a browser that has never run the app. -/
def emptyBrowser : Browser := { localStorage := fun _ => none, uploads := [] }

/-- Manifest with one entry. -/
def sampleManifest : Json :=
  .obj [("version", .num 1), ("walletPubKey", .str sampleWallet.val),
    ("createdAt", .str sampleLoadEnv.nowIso), ("updatedAt", .str sampleAppend.env.updatedAtNow),
    ("entries", .arr [newEntry sampleAppend])]

/-- The sample wallet has created its manifest. -/
theorem exists_sample_init : ∃ b, Persisted symbolic sampleWallet sampleSignature b
    (emptyManifest sampleWallet.val sampleLoadEnv.nowIso) := by
  have hw : trim sampleLoad.walletPubKey = sampleWallet.val := sampleWallet.trim_val
  obtain ⟨b, cid, hinit⟩ := run_load_creates symbolic_lawful (b := emptyBrowser) hw rfl
    (fun _ _ => rfl) rfl rfl
  exact ⟨b, .init hw rfl hinit⟩

/-- An init and one append, and then a load in a fresh session. -/
theorem load_persisted_sample : ∃ b cid,
    Persisted symbolic sampleWallet sampleSignature b sampleManifest ∧
    ((onData (loadManifestOrInit symbolic sampleLoad)).run (Tab.fresh b : WalletTab)).2 =
      .ok (.loaded sampleManifest cid) := by
  have hw : trim sampleLoad.walletPubKey = sampleWallet.val := sampleWallet.trim_val
  obtain ⟨b, hinit⟩ := exists_sample_init
  obtain ⟨s, cid', happend⟩ := run_append_succeeds (p := sampleAppend) (s := Tab.fresh b)
    symbolic_lawful (appendChecks_ok hw rfl) hw (fun _ _ => rfl) (hinit.designates symbolic_lawful)
    (show mergeEntry sampleAppend _ = .ok sampleManifest from rfl)
  have happend' : Persisted symbolic sampleWallet sampleSignature s.data sampleManifest :=
    .append (p := sampleAppend) (s := Tab.fresh b) hinit hw rfl happend
  obtain ⟨cid'', hload⟩ := load_persisted symbolic_lawful happend' (p := sampleLoad) hw rfl rfl
    (fun _ => rfl)
  exact ⟨s.data, cid'', happend', hload⟩

end SovereignJedi.Manifest
