import SovereignJedi.Manifest.Persistence

/-! The error guardrail of the service: a call that fails uploads nothing and leaves the pointer as
it was. A load keeps it. An append keeps it except where it creates the missing manifest first, and
then fails on the entry or on a later operation. -/

namespace SovereignJedi.Manifest

open SovereignJedi.Js SovereignJedi.Crypto SovereignJedi.Async

variable {P : Platform} {α : Type}

/-- If the call rejected, the wallet's pointer is as before it and no object was uploaded. -/
def Guarded (P : Platform) (w : WalletPubKey) (b b' : Browser) (r : Result α) : Prop :=
  ∀ e, r = .error e → manifestCid P w b' = manifestCid P w b ∧ b'.uploads = b.uploads

theorem Guarded.of_ok {w : WalletPubKey} {b b' : Browser} {a : α} :
    Guarded P w b b' (.ok a : Result α) := fun _ h => by cases h

theorem Guarded.of_migrated (w : WalletPubKey) (b : Browser) (r : Result α) :
    Guarded P w b (b.migrated P w) r := fun _ _ => ⟨by simp, rfl⟩

theorem guarded_loadOutcome (w : WalletPubKey) (p : LoadParams) (b : Browser) :
    Guarded P w b (loadOutcome P w p b).1 (loadOutcome P w p b).2 := by
  unfold loadOutcome
  split
  · exact Guarded.of_migrated w b _
  · split
    · exact Guarded.of_migrated w b _
    · split
      · exact Guarded.of_ok
      · exact Guarded.of_migrated w b _

/-- A load that rejects has changed nothing. -/
theorem guarded_loadManifestOrInit (hP : P.Lawful) {w : WalletPubKey} {p : LoadParams}
    (hw : trim p.walletPubKey = w.val) (b : Browser) :
    Guarded P w b ((loadManifestOrInit P p).run b).1 ((loadManifestOrInit P p).run b).2 := by
  by_cases hunlock : hasUnlock p.unlock = true
  · rw [run_loadManifestOrInit hP hw hunlock]
    exact guarded_loadOutcome w p b
  · rw [Bool.not_eq_true] at hunlock
    have hrun : (loadManifestOrInit P p).run b = (b, .error (.error
        "loadManifestOrInit: missing unlock material (BuildUnlockResult)")) := by
      simp [loadManifestOrInit, check, hw, hunlock, require]
    rw [hrun]
    exact fun _ _ => ⟨rfl, rfl⟩

/-- The entry has what an append requires of it. -/
def EntryArg.Valid (e : EntryArg) : Prop := isBlank e.fileCid = false ∧ truthy e.envelope = true

/-- The empty manifest takes an entry exactly when it is valid. -/
theorem exists_mergeEntry_emptyManifest_iff (p : AppendParams) (w createdAt : String) :
    (∃ m', mergeEntry p (emptyManifest w createdAt) = .ok m') ↔ p.entry.Valid := by
  have hentries : entriesOf (emptyManifest w createdAt) = .ok [] := rfl
  simp only [EntryArg.Valid, mergeEntry, bind_eq_ok, require_eq_ok, exists_const, hentries,
    Except.ok.injEq, exists_eq_left', someEntry, result_pure, Bool.not_eq_true']
  simp

/-- If the append has to create the manifest, and does, then the entry is valid and none of the
operations of the append proper fails. -/
def NoFailureAfterInit (P : Platform) (w : WalletPubKey) (p : AppendParams) (b : Browser) : Prop :=
  hasUnlock p.unlock = true → manifestCid P w b = none →
    onChainHead p.onChainLatestManifestCid = false → p.env.init.fault.NoneOf initSteps →
      p.entry.Valid ∧ p.env.fault.NoneOf appendSteps

/-- After a successful init, an append succeeds exactly if its entry and operations allow. -/
theorem exists_sealAppended_init_iff (hP : P.Lawful) {w : WalletPubKey} {p : AppendParams}
    {bytes : Bytes} (hseal : sealEmpty P w.val (p.toInit w.val) = .ok bytes) :
    (∃ r, sealAppended P p w.val (P.cidOf bytes) = .ok r) ↔
      p.entry.Valid ∧ p.env.fault.NoneOf appendSteps := by
  have hopen := openManifest_sealEmpty hP hseal
  rw [AppendParams.toInit_signatureBytes, ← hP.content_cidOf bytes] at hopen
  rw [exists_sealAppended_iff hP hopen, exists_mergeEntry_emptyManifest_iff]

/-- Without a pointer, an append of a valid entry succeeds if none of its operations fails. -/
theorem sectionOutcome_succeeds (hP : P.Lawful) {w : WalletPubKey} {p : AppendParams} {b : Browser}
    (hcid : manifestCid P w b = none) (hchain : onChainHead p.onChainLatestManifestCid = false)
    (hinit : p.env.init.fault.NoneOf initSteps) (hvalid : p.entry.Valid)
    (hfault : p.env.fault.NoneOf appendSteps) : ∃ r, (sectionOutcome P w p b).2 = .ok r := by
  obtain ⟨bytes, hseal⟩ := (exists_sealEmpty_iff hP w (p := p.toInit w.val)).mpr hinit
  obtain ⟨⟨m, bytes'⟩, happend⟩ := (exists_sealAppended_init_iff hP hseal).mpr ⟨hvalid, hfault⟩
  rw [sectionOutcome_init hcid hchain hseal, appendOutcome_ok happend]
  exact ⟨_, rfl⟩

theorem guarded_sectionOutcome_iff (hP : P.Lawful) {w : WalletPubKey} {p : AppendParams}
    (hunlock : hasUnlock p.unlock = true) (b : Browser) :
    Guarded P w b (sectionOutcome P w p b).1 (sectionOutcome P w p b).2 ↔
      NoFailureAfterInit P w p b := by
  cases hcid : manifestCid P w b with
  | some cid =>
    refine iff_of_true ?_ fun _ h => by rw [hcid] at h; cases h
    rw [sectionOutcome_some hcid]
    cases hseal : sealAppended P p w.val cid with
    | ok r => rw [appendOutcome_ok hseal]; exact Guarded.of_ok
    | error e => rw [appendOutcome_error hseal]; exact Guarded.of_migrated w b _
  | none =>
    cases hchain : onChainHead p.onChainLatestManifestCid with
    | true =>
      rw [sectionOutcome_onChain hcid hchain]
      exact iff_of_true (Guarded.of_migrated w b _) fun _ _ h => by rw [hchain] at h; cases h
    | false =>
      have hinit := exists_sealEmpty_iff hP w (p := p.toInit w.val)
      cases hseal : sealEmpty P w.val (p.toInit w.val) with
      | error e =>
        rw [sectionOutcome_init_error hcid hchain hseal]
        refine iff_of_true (Guarded.of_migrated w b _) fun _ _ _ hfault => ?_
        obtain ⟨bytes, h⟩ := hinit.mpr hfault
        rw [hseal] at h
        cases h
      | ok bytes =>
        rw [sectionOutcome_init hcid hchain hseal]
        have hok := exists_sealAppended_init_iff hP hseal
        cases happend : sealAppended P p w.val (P.cidOf bytes) with
        | ok r =>
          rw [appendOutcome_ok happend]
          exact iff_of_true Guarded.of_ok fun _ _ _ _ => hok.mp ⟨r, happend⟩
        | error e =>
          -- the pointer and the upload of the init stay behind
          rw [appendOutcome_error happend]
          refine iff_of_false (fun h => ?_) fun h => ?_
          · have hsame := (h e rfl).1
            rw [manifestCid_stored_same hP, hcid] at hsame
            cases hsame
          · obtain ⟨r, hr⟩ := hok.mpr (h hunlock hcid hchain (hinit.mp ⟨bytes, hseal⟩))
            rw [happend] at hr
            cases hr

/-- An append keeps the guardrail exactly when nothing can fail after its own init. -/
theorem guarded_appendEntryAndPersist_iff (hP : P.Lawful) {w : WalletPubKey} {p : AppendParams}
    (hw : trim p.walletPubKey = w.val) (s : WalletTab) :
    Guarded P w s.data ((appendEntryAndPersist P p).run s).1.data
      ((appendEntryAndPersist P p).run s).2 ↔ NoFailureAfterInit P w p s.data := by
  by_cases hunlock : hasUnlock p.unlock = true
  · have hcheck : appendChecks p = .ok () := appendChecks_ok hw hunlock
    rw [run_appendEntryAndPersist_data hcheck, run_appendEntryAndPersist_result hcheck,
      run_appendSection hP hw hunlock]
    exact guarded_sectionOutcome_iff hP hunlock _
  · obtain ⟨e, hcheck⟩ : ∃ e, appendChecks p = .error e := by
      cases hcheck : appendChecks p with
      | error e => exact ⟨e, rfl⟩
      | ok u => exact absurd (hasUnlock_of_appendChecks hcheck) hunlock
    rw [appendEntryAndPersist_error hcheck, Task.run_done]
    exact iff_of_true (fun _ _ => ⟨rfl, rfl⟩) (fun h => absurd h hunlock)

/-- The error guardrail: every load keeps it, and an append keeps it exactly when nothing can fail
after its own init. -/
theorem error_guardrail (hP : P.Lawful) (w : WalletPubKey) (s : WalletTab) :
    (∀ p : LoadParams, trim p.walletPubKey = w.val →
      Guarded P w s.data ((onData (loadManifestOrInit P p)).run s).1.data
        ((onData (loadManifestOrInit P p)).run s).2) ∧
    ∀ p : AppendParams, trim p.walletPubKey = w.val →
      (Guarded P w s.data ((appendEntryAndPersist P p).run s).1.data
        ((appendEntryAndPersist P p).run s).2 ↔ NoFailureAfterInit P w p s.data) := by
  refine ⟨fun p hw => ?_, fun p hw => guarded_appendEntryAndPersist_iff hP hw s⟩
  simp only [run_onData, Tab.setData_data]
  exact guarded_loadManifestOrInit hP hw s.data

/-- An entry whose `fileCid` is blank. -/
def blankAppend : AppendParams :=
  { sampleAppend with entry := { sampleEntry with fileCid := "" } }

/-- With a pointer, an append of an entry with a blank `fileCid` is rejected and changes nothing. -/
theorem error_guardrail_sample : ∃ (b : Browser) (cid : String) (e : JsError),
    manifestCid symbolic sampleWallet b = some cid ∧
    ((appendEntryAndPersist symbolic blankAppend).run (Tab.fresh b)).2 = .error e ∧
    manifestCid symbolic sampleWallet
      ((appendEntryAndPersist symbolic blankAppend).run (Tab.fresh b)).1.data = some cid ∧
    ((appendEntryAndPersist symbolic blankAppend).run (Tab.fresh b)).1.data.uploads = b.uploads := by
  have hw : trim blankAppend.walletPubKey = sampleWallet.val := sampleWallet.trim_val
  obtain ⟨b, hb⟩ := exists_sample_init
  obtain ⟨cid, hcid, hopen⟩ := hb.designates symbolic_lawful
  have hcheck : appendChecks blankAppend = .ok () := appendChecks_ok hw rfl
  obtain ⟨e, he⟩ : ∃ e, sealAppended symbolic blankAppend sampleWallet.val cid = .error e := by
    cases hseal : sealAppended symbolic blankAppend sampleWallet.val cid with
    | error e => exact ⟨e, rfl⟩
    | ok r =>
      obtain ⟨⟨m', hmerge⟩, -⟩ := (exists_sealAppended_iff symbolic_lawful (p := blankAppend) hopen).mp
        ⟨r, hseal⟩
      cases hmerge
  have hresult : ((appendEntryAndPersist symbolic blankAppend).run (Tab.fresh b)).2 = .error e := by
    rw [run_appendEntryAndPersist_result hcheck, run_appendSection symbolic_lawful hw rfl,
      Tab.fresh_data, sectionOutcome_some hcid, appendOutcome_error he]
  obtain ⟨hpointer, huploads⟩ := ((error_guardrail symbolic_lawful sampleWallet (Tab.fresh b)).2
    blankAppend hw).mpr (fun _ hnone => absurd (hcid.symm.trans hnone) (by simp)) e hresult
  exact ⟨b, cid, e, hcid, hresult, hpointer.trans hcid, huploads⟩

/-- In a fresh browser, an append of an entry with a blank `fileCid` is rejected after an empty
manifest was uploaded and the pointer set to it. -/
theorem blank_append_not_guarded :
    ¬ Guarded symbolic sampleWallet emptyBrowser
      ((appendEntryAndPersist symbolic blankAppend).run (Tab.fresh emptyBrowser)).1.data
      ((appendEntryAndPersist symbolic blankAppend).run (Tab.fresh emptyBrowser)).2 := by
  have hw : trim blankAppend.walletPubKey = sampleWallet.val := sampleWallet.trim_val
  intro hguard
  have h := (guarded_appendEntryAndPersist_iff symbolic_lawful hw (Tab.fresh emptyBrowser)).mp hguard
  obtain ⟨⟨hfile, -⟩, -⟩ := h rfl rfl rfl fun _ _ => rfl
  cases hfile

end SovereignJedi.Manifest
