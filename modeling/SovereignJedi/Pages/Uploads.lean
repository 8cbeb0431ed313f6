import SovereignJedi.Pages.Operations

/-! What becomes of an upload. Once the page has appended its entry, the entry stays in the manifest of
the wallet and is among the files of the page, as long as no load of the page replaces a manifest
with entries and the list is kept right. -/

namespace SovereignJedi.Pages

open Relation
open SovereignJedi.Js SovereignJedi.Async SovereignJedi.Session SovereignJedi.Manifest
open SovereignJedi.Registry (Accounts Hash)
open SovereignJedi.Files (File maxMvpFileBytes)

variable {Pubkey Address : Type}

/-- A load of `w` whose init is about to set the pointer goes on only where the pointer holds
nothing. -/
def Event.OverwritesNothing (W : Deployment Pubkey Address) (w : WalletPubKey)
    (h : Home Pubkey Address) (e : Event Pubkey Address) : Prop :=
  ∀ i c refreshKey ready next, e = .advance i →
    h.jobs[i]? = some (.refresh c refreshKey (.await (.load .addBytes) ready next)) →
    c.wallet = some w.val → HoldsNothing W.platform w h.tab.data

theorem Event.OverwritesNothing.resumes {W : Deployment Pubkey Address} {w : WalletPubKey}
    {h : Home Pubkey Address} {e : Event Pubkey Address} (he : e.OverwritesNothing W w h) :
    e.Resumes W (InitsWhere w (HoldsNothing W.platform w)) h := by
  rintro i j call pt ready next rfl hjob hwaits p rfl hw rfl -
  obtain ⟨c, refreshKey, load, rfl, hwallet⟩ := hwaits.of_load
  exact he i c refreshKey ready load rfl hjob (hw ▸ hwallet)

/-! ### The files of a manifest -/

theorem exists_item_of_mapM {es : List Json} {files : List FileItem}
    (h : es.mapM fileItem = .ok files) {x : Json} (hx : x ∈ es) :
    ∃ item ∈ files, fileItem x = .ok item := by
  induction es generalizing files with
  | nil => cases hx
  | cons e es ih =>
    rw [List.mapM_cons] at h
    simp only [bind_eq_ok, result_pure, Except.ok.injEq] at h
    obtain ⟨item, hitem, items, hitems, rfl⟩ := h
    rcases List.mem_cons.mp hx with rfl | hx
    · exact ⟨item, List.mem_cons_self, hitem⟩
    · obtain ⟨item', hmem, hitem'⟩ := ih hitems hx
      exact ⟨item', List.mem_cons_of_mem _ hmem, hitem'⟩

/-- Each entry of a manifest is among its files. -/
theorem exists_item {m : Json} {files : List FileItem} (h : fileItems m = .ok files) {x : Json}
    (hx : x ∈ manifestEntries m) : ∃ item ∈ files, fileItem x = .ok item := by
  cases hes : Manifest.entriesOf m with
  | error e =>
    rw [manifestEntries, hes] at hx
    cases hx
  | ok es =>
    rw [manifestEntries_ok hes] at hx
    rw [fileItems, entriesOf_eq_ok.mp hes] at h
    exact exists_item_of_mapM h hx

/-- An entry that the pointer holds is in a list of its entries. -/
theorem Lists.exists_item {P : Platform} (hA : P.IdealAead) {w : WalletPubKey} {b : Browser}
    {files : List FileItem} (h : Lists P w b files) {x : Json} (hx : Holds P w b x) :
    ∃ item ∈ files, fileItem x = .ok item := by
  obtain ⟨sig, m, ⟨cid, hcid, hopen⟩, hfiles⟩ := h
  obtain ⟨sig', m', ⟨cid', hcid', hopen'⟩, hx⟩ := hx
  obtain rfl := Option.some.inj (hcid.symm.trans hcid')
  obtain rfl := openManifest_unique hA hopen hopen'
  exact Pages.exists_item hfiles hx

/-! ### Uploads -/

section Uploads

variable [DecidableEq Pubkey] [DecidableEq Address] {W : Deployment Pubkey Address}
  {w : WalletPubKey} {h h' : Home Pubkey Address}

/-- The entry of an upload stays in the manifest of its wallet. -/
theorem upload_held (hP : W.platform.Lawful) (hA : W.platform.IdealAead) {b : Browser}
    {accounts : Accounts Pubkey Address} {s : SessionManager} (hs : Connected s.walletPubKey)
    (hrun : Home.Run W (Event.OverwritesNothing W w) (Home.init accounts s b) h) {i : Nat}
    {c : Snapshot Pubkey} {a : AppendParams} {r : Json × String}
    (hjob : h.jobs[i]? = some (.append c a (.done (.ok r)))) (hwallet : c.wallet = some w.val)
    (hafter : Home.Run W (Event.OverwritesNothing W w) h h') :
    ∃ x, a.Added x ∧ Holds W.platform w h'.tab.data x := by
  have hresumes : ∀ h e, Event.OverwritesNothing W w h e →
      e.Resumes W (InitsWhere w (HoldsNothing W.platform w)) h := fun h e he => he.resumes
  have hinit : (Home.init accounts s b).WellFormed W := wellFormed_init accounts hs b
  have hwf : h.WellFormed W := hinit.run hP hrun
  obtain ⟨p, hp, hc⟩ := (calls_init accounts s b).run hP hinit (hrun.mono hresumes)
  obtain ⟨l, hl, hthread⟩ := hc.thread hjob
  cases hl with
  | append hwallet' hw =>
    obtain rfl := c.wallet_unique hwallet hwallet'
    obtain ⟨k, hk⟩ := hthread _ (List.mem_singleton_self _)
    obtain ⟨q, hq, hc'⟩ := hc.run hP hwf (hafter.mono hresumes)
    -- the append has settled, so it is still there after any turns of the tab
    have hkept : q.threads[k]? = some (.append a, .done (.ok (.append r.1 r.2))) := by
      clear hc'
      induction hq with
      | refl => exact hk
      | tail _ hstep ih => exact hstep.done ih
    obtain ⟨x, hadded, hx⟩ := entryHeld_of_tabRun hP hA (hp.trans hq) hkept a r.1 r.2 rfl hw rfl
    exact ⟨x, hadded, hc'.tab ▸ hx⟩

/-- An upload that the page has made stays in the manifest of its wallet, and is listed whenever
nothing is in flight. -/
theorem upload_listed (hP : W.platform.Lawful) (hA : W.platform.IdealAead) {b : Browser}
    {accounts : Accounts Pubkey Address} {s : SessionManager} (hs : Connected s.walletPubKey)
    (hrun : Home.Run W (fun h e => e.Timely W h ∧ e.OverwritesNothing W w h)
      (Home.init accounts s b) h) {i : Nat} {c : Snapshot Pubkey} {a : AppendParams}
    {r : Json × String} (hjob : h.jobs[i]? = some (.append c a (.done (.ok r))))
    (hwallet : c.wallet = some w.val)
    (hafter : Home.Run W (fun h e => e.Timely W h ∧ e.OverwritesNothing W w h) h h') :
    ∃ x, a.Added x ∧ Holds W.platform w h'.tab.data x ∧
      (h'.Settled → h'.view.gate = true → h'.view.wallet = some w.val → h'.page.reported = false →
        ∃ item ∈ h'.page.files, fileItem x = .ok item) := by
  obtain ⟨x, hadded, hx⟩ := upload_held hP hA hs (hrun.mono fun _ _ he => he.2) hjob hwallet
    (hafter.mono fun _ _ he => he.2)
  refine ⟨x, hadded, hx, fun hsettled hgate hview hreported => ?_⟩
  have hall : Home.Run W _ (Home.init accounts s b) h' := hrun.trans hafter
  have hcoherent : h'.Coherent W :=
    coherent_of_run hP accounts hs b (hall.mono fun _ _ he => he.1)
  obtain ⟨w', hw', hlists⟩ := (hcoherent.showsManifest hsettled).entries hgate hreported
  obtain rfl := h'.view.wallet_unique hview hw'
  exact hlists.exists_item hA hx

end Uploads

/-! ### A sample -/

section Samples

variable {W : Deployment Nat (Nat × Hash)} {w : WalletPubKey} {m m' : Json} {cid : String}
  {h : Home Nat (Nat × Hash)} {load : Task AwaitPoint WalletTab JsError LoadResult}

theorem overwritesNothing_of_ne {e : Event Nat (Nat × Hash)} (he : ∀ i, e ≠ .advance i) :
    e.OverwritesNothing W w h := fun i _ _ _ _ h _ _ => absurd h (he i)

/-- A load that is not in an init overwrites nothing. -/
theorem overwritesNothing_load {c : Snapshot Nat} {refreshKey : RefreshKey} {head : Option String}
    (hjobs : h.jobs = [.refresh c refreshKey load])
    (hwithin : ∀ q, load.Within (onTab (coveredBounds W.platform w head)) q) :
    (Event.advance 0).OverwritesNothing W w h := by
  intro i c' refreshKey' ready next he hjob
  cases he
  rw [hjobs] at hjob
  cases hjob
  exact absurd ⟨.addBytes, by decide, rfl⟩ (Task.within_await.mp (hwithin none)).1

theorem overwritesNothing_append {c : Snapshot Nat} {a : AppendParams}
    {append : Task AwaitPoint WalletTab JsError (Json × String)}
    (hjobs : h.jobs = [.append c a append]) : (Event.advance 0).OverwritesNothing W w h := by
  intro i c' refreshKey ready next he hjob
  cases he
  rw [hjobs] at hjob
  cases hjob

/-- The end of an append is timely when its refresh starts. -/
theorem timely_settle_append {c : Snapshot Nat} {a : AppendParams} {r : Json × String} {env : LoadEnv}
    (hjobs : h.jobs = [.append c a (.done (.ok r))])
    (hstarts : Home.Starts W { h with jobs := [] } c "post-append") :
    (Event.settle 0 env).Timely W h where
  effects _ _ _ he := by cases he
  appended _ _ _ _ _ _ he hjob _ _ := by
    cases he
    rw [hjobs] at hjob ⊢
    cases hjob
    exact Or.inl hstarts
  failed _ _ _ _ _ he hjob := by
    cases he
    rw [hjobs] at hjob
    cases hjob
  closed _ _ _ _ _ _ _ _ _ he hjob := by
    cases he
    rw [hjobs] at hjob
    cases hjob
  displayed _ _ _ _ _ _ _ _ _ he hjob := by
    cases he
    rw [hjobs] at hjob
    cases hjob
  stored _ _ _ _ _ _ _ he := by cases he

/-- What an append leaves when none of its steps fails: the pointer to the merged manifest. -/
theorem run_append_opens (hP : W.platform.Lawful) {a : AppendParams} (hw : Js.trim a.walletPubKey = w.val)
    (hunlock : hasUnlock a.unlock = true) (hfault : a.env.fault.NoneOf appendSteps) {tab : WalletTab}
    (hpointer : manifestCid W.platform w tab.data = some cid)
    (hopen : openManifest W.platform w.val a.signatureBytes (W.platform.content cid) = .ok m)
    (hmerge : mergeEntry a m = .ok m') : ∃ cid',
      ((appendEntryAndPersist W.platform a).run tab).2 = .ok (m', cid') ∧
      manifestCid W.platform w ((appendEntryAndPersist W.platform a).run tab).1.data = some cid' ∧
      openManifest W.platform w.val a.signatureBytes (W.platform.content cid') = .ok m' := by
  obtain ⟨⟨m₁, bytes⟩, hseal⟩ := (exists_sealAppended_iff hP hopen).mpr ⟨⟨m', hmerge⟩, hfault⟩
  obtain ⟨m₀, hopen₀, hmerge₀, hopens⟩ := sealAppended_eq_ok hP hseal
  obtain rfl := Except.ok.inj (hopen.symm.trans hopen₀)
  obtain rfl := Except.ok.inj (hmerge.symm.trans hmerge₀)
  obtain ⟨hdata, hresult⟩ := run_append_sealed hP (appendChecks_ok hw hunlock) hw hpointer hseal
  refine ⟨W.platform.cidOf bytes, hresult, ?_, ?_⟩
  · rw [hdata, manifestCid_stored_same hP]
  · rw [hP.content_cidOf, hopens]

/-- An idle page that has loaded one manifest, while the pointer is at another one, loads that. -/
theorem loading_refresh (hh : h.Idle) (heffects : h.effects = some h.view)
    (hwallet : h.view.wallet = some w.val) {pre : Prerequisites}
    (hpre : h.view.prerequisites = some pre) (hsig : pre.vaultRootSig = sampleSignature)
    (hunlock : hasUnlock (unlockValue pre.unlock) = true) (hrendered : h.view ∈ h.renderings)
    (hpointer : manifestCid W.platform w h.tab.data = some cid)
    (hopen : openManifest W.platform w.val sampleSignature (W.platform.content cid) = .ok m)
    (hstarts : h.Starts W h.view "post-append") : ∃ load,
      Loading W w m cid load (h.refreshFromManifest W h.view "post-append" sampleLoadEnv) := by
  rw [refreshFromManifest_starts hwallet hpre hstarts,
    firstLoad_some hwallet hpre hunlock sampleLoadEnv hpointer, hpointer, hh.jobs]
  exact ⟨_, {
    effects := heffects
    wallet := hwallet
    unlocked := ⟨pre, hpre, hsig, hunlock⟩
    rendered := hrendered
    job := rfl
    pointer := (manifestCid_migrated w w _).trans ((manifestCid_migrated w w _).trans hpointer)
    opens := hopen
    free := hh.free
    reads := by
      have hsig' : (h.view.loadParams W pre sampleLoadEnv).signatureBytes = sampleSignature := hsig
      exact reads_loadManifest (fun _ _ => rfl) (hsig' ▸ hopen) }⟩

/-- The files are listed, another one is uploaded and appended, and the manifest is loaded again. -/
theorem Loading.run_upload (hP : W.platform.Lawful) (hA : W.platform.IdealAead)
    (hl : Loading W w m cid load h) {files : List FileItem} (hfiles : fileItems m = .ok files)
    {file : File} (hsize : ¬ file.bytes.length > maxMvpFileBytes) {u : Uploaded}
    {env : AppendEnv} (hfault : env.fault.NoneOf appendSteps)
    (hmerge : ∀ pre, mergeEntry (h.view.appendParams W pre file u env) m = .ok m') (hne : m ≠ m') : ∃ h₁ h₂ a cid' load',
      Home.Run W (fun h e => e.Timely W h ∧ e.OverwritesNothing W w h) h h₁ ∧
      h₁.jobs[0]? = some (.append h.view a (.done (.ok (m', cid')))) ∧
      Home.Run W (fun h e => e.Timely W h ∧ e.OverwritesNothing W w h) h₁ h₂ ∧
      Loading W w m' cid' load' h₂ := by
  obtain ⟨pre, hpre, hsig, hunlock⟩ := hl.unlocked
  obtain ⟨k, hk⟩ := List.mem_iff_getElem?.mp hl.rendered
  let allowed (h : Home Nat (Nat × Hash)) (e : Event Nat (Nat × Hash)) : Prop :=
    e.Timely W h ∧ e.OverwritesNothing W w h
  -- the load ends, and the files are listed
  let g : Home Nat (Nat × Hash) := { h with
    page := ⟨files, none, false, some (h.view.refreshKey (some cid)), false⟩, jobs := [] }
  have hlisted : Home.Run W allowed h g := hl.run_settle hfiles allowed
    (fun h' k load hjobs hwithin => ⟨timely_advance hjobs, overwritesNothing_load hjobs hwithin⟩) rfl
    hl.pointer ⟨hl.timely hfiles _ sampleLoadEnv, overwritesNothing_of_ne (by simp)⟩
  -- the upload comes to the end of its append
  let a := h.view.appendParams W pre file u env
  let tab := ((appendEntryAndPersist W.platform a).run h.tab).1
  have hw : Js.trim a.walletPubKey = w.val := trim_prerequisites hl.wallet hpre
  have hsig' : a.signatureBytes = sampleSignature := hsig
  obtain ⟨cid', hresult, hpointer, hopens⟩ := run_append_opens (a := a) hP hw hunlock hfault
    hl.pointer (hsig' ▸ hl.opens) (hmerge pre)
  have happended : Home.Run W allowed g
      { g with tab, jobs := [.append h.view a (.done (.ok (m', cid')))] } := by
    have hrun := run_appended (W := W) allowed (h := g) hl.wallet rfl hl.free hk hpre hsize u env
      ⟨timely_of_quiet (by simp) (by simp) (by simp), overwritesNothing_of_ne (by simp)⟩
      (fun _ => ⟨timely_of_quiet (by simp) (by simp) (by simp), overwritesNothing_of_ne (by simp)⟩)
      fun h' t hjobs => ⟨timely_of_advance fun hA' => absurd hA hA', overwritesNothing_append hjobs⟩
    rw [← hresult]
    exact hrun
  -- its refresh starts, since the pointer has moved
  have hstarts : Home.Starts W { g with tab, jobs := [] } h.view "post-append" := by
    refine ⟨by rw [hpre]; rfl, rfl, fun hkey => hne ?_⟩
    have hkey' := Option.some.inj hkey.1
    rw [hl.wallet, safeGetManifestCid_wallet, hpointer] at hkey'
    have hcid : cid = cid' := congrArg RefreshKey.manifestCid hkey'
    subst hcid
    exact Except.ok.inj (hl.opens.symm.trans (hsig' ▸ hopens))
  obtain ⟨load', hloading⟩ := loading_refresh (W := W) (h := { g with tab, jobs := [] })
    ⟨rfl, rfl, free_run_append hl.free a⟩ hl.effects hl.wallet hpre hsig hunlock hl.rendered hpointer
    (hsig' ▸ hopens) hstarts
  refine ⟨_, _, a, cid', load', hlisted.trans happended, rfl, ?_, hloading⟩
  exact .single ⟨.settle 0 sampleLoadEnv, trivial,
    ⟨timely_settle_append rfl hstarts, overwritesNothing_of_ne (by simp)⟩, rfl⟩

def sampleUploaded : Uploaded := ⟨"bafynew", sampleEntry.envelope, sampleEntry.envelope_wf⟩

/-- The append of `Files.sampleFile` after that of the sample entry. -/
def sampleUpload : AppendParams :=
  { sampleAppend with
    entry := fileEntry Files.sampleFile sampleUploaded
    env := { sampleAppend.env with uuid := "b" } }

def sampleUploadManifest : Json :=
  .obj [("version", .num 1), ("walletPubKey", .str sampleWallet.val),
    ("createdAt", .str sampleLoadEnv.nowIso), ("updatedAt", .str sampleUpload.env.updatedAtNow),
    ("entries", .arr [newEntry sampleAppend, newEntry sampleUpload])]

theorem upload_listed_sample : ∃ (h : Home Nat (Nat × Hash)) (a : AppendParams) (x : Json),
    h.Settled ∧ h.view.gate = true ∧ a.Added x ∧ Holds symbolic sampleWallet h.tab.data x ∧
      ∃ item ∈ h.page.files, fileItem x = .ok item := by
  obtain ⟨b, -, hpersisted, -⟩ := load_persisted_sample
  have hm := hpersisted.designates symbolic_lawful
  obtain ⟨cid, load, h, hrun, hl⟩ := exists_loading (W := sampleDeployment symbolic)
    symbolic_lawful rfl (fun _ => none) hm
  obtain ⟨item, hfiles⟩ : ∃ item, fileItems sampleManifest = .ok [item] := ⟨_, rfl⟩
  obtain ⟨files, hfiles'⟩ : ∃ files, fileItems sampleUploadManifest = .ok files := ⟨_, rfl⟩
  have hmerge : ∀ pre, mergeEntry (h.view.appendParams (sampleDeployment symbolic) pre
      Files.sampleFile sampleUploaded sampleUpload.env) sampleManifest = .ok sampleUploadManifest :=
    fun _ => (rfl : _ = mergeEntry sampleUpload sampleManifest).trans rfl
  have hne : sampleManifest ≠ sampleUploadManifest := by
    intro heq
    have hentries := congrArg (fun m => (manifestEntries m).length) heq
    cases hentries
  obtain ⟨h₁, h₂, a, cid', load', hrun₁, hjob, hrun₂, hl'⟩ := hl.run_upload symbolic_lawful
    symbolic_idealAead hfiles (by decide) (fun _ _ => rfl) hmerge hne
  have hend := hl'.run_settle hfiles' (fun h e => e.Timely _ h ∧ e.OverwritesNothing _ sampleWallet h)
    (fun _ _ _ hjobs hwithin => ⟨timely_advance hjobs, overwritesNothing_load hjobs hwithin⟩) rfl
    hl'.pointer ⟨hl'.timely hfiles' _ sampleLoadEnv, overwritesNothing_of_ne (by simp)⟩
  have hstarting : Home.Run (sampleDeployment symbolic) (fun h e =>
      e.Timely (sampleDeployment symbolic) h ∧
      e.OverwritesNothing (sampleDeployment symbolic) sampleWallet h)
      (Home.opened (fun _ => none) b) h :=
    hrun.mono fun _ _ he => ⟨he.1, overwritesNothing_of_ne he.2⟩
  have hsettled : Home.Settled { h₂ with
      page := ⟨files, none, false, some (h₂.view.refreshKey (some cid')), false⟩, jobs := [] } :=
    ⟨hl'.effects, fun j hj => absurd hj List.not_mem_nil⟩
  obtain ⟨x, hadded, hx, hlisted⟩ := upload_listed symbolic_lawful symbolic_idealAead connected_none
    (hstarting.trans hrun₁) hjob hl.wallet (hrun₂.trans hend)
  exact ⟨_, a, x, hsettled, hl'.gate, hadded, hx, hlisted hsettled hl'.gate hl'.wallet rfl⟩

end Samples

end SovereignJedi.Pages
