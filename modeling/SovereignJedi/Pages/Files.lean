import SovereignJedi.Pages.Calls

/-! Whether "My files" lists the manifest of the wallet. A load stores its list without another look
at the session, a refresh may be dropped for one in flight or for the key of an earlier one, and a
failed load leaves the list; so the list is right as long as none of these happens where it
matters. -/

namespace SovereignJedi.Pages

open Relation
open SovereignJedi.Js SovereignJedi.Async SovereignJedi.Session SovereignJedi.Manifest
open SovereignJedi.Registry

variable {Pubkey Address : Type}

/-- The gate of the list. -/
def Snapshot.gate (c : Snapshot Pubkey) : Bool :=
  c.isSessionGateOk && c.session.lastVaultRootSignatureBytes.isSome

/-- The list is the entries of the manifest that the pointer of `w` designates. -/
def Lists (P : Platform) (w : WalletPubKey) (b : Browser) (files : List FileItem) : Prop :=
  ∃ sig m, Designates P w sig b m ∧ fileItems m = .ok files

/-- The list as it should be for the last rendering. -/
structure Home.ShowsManifest (W : Deployment Pubkey Address) (h : Home Pubkey Address) : Prop where
  entries : h.view.gate = true → h.page.reported = false →
    ∃ w : WalletPubKey, h.view.wallet = some w.val ∧ Lists W.platform w h.tab.data h.page.files
  empty : h.view.gate = false ∨ h.page.reported = true → h.page.files = []

/-- The effects of the last rendering have run, and no load or append is in flight. -/
structure Home.Settled (h : Home Pubkey Address) : Prop where
  effects : h.effects = some h.view
  jobs : ∀ j ∈ h.jobs, ∃ c pre file, j = .upload c pre file

/-! ### When the list is right -/

/-- The job will refresh the list of `w`. -/
def Job.Due (w : WalletPubKey) : Job Pubkey → Prop
  | .refresh c _ _ => c.wallet = some w.val
  | .upload _ _ _ => False
  | .append c _ rest => c.wallet = some w.val ∧ rest.Succeeds

def SomeDue (w : WalletPubKey) (jobs : List (Job Pubkey)) : Prop := ∃ j ∈ jobs, j.Due w

/-- The effects have run last for `w`, with the gate open. -/
def Home.OnDisplay (h : Home Pubkey Address) (w : WalletPubKey) : Prop :=
  ∃ d, h.effects = some d ∧ d.gate = true ∧ d.wallet = some w.val

/-- A refresh for `w` starts a load or needs none: one for `w` is in flight, or the list has not
been cleared since its key was loaded, or there is nothing to list. -/
def Home.Answers (W : Deployment Pubkey Address) (h : Home Pubkey Address) (c : Snapshot Pubkey)
    (w : WalletPubKey) (reason : String) : Prop :=
  h.Starts W c reason ∨
  c.prerequisites.isSome ∧ h.page.refreshInFlight = true ∧ SomeDue w h.jobs ∨
  c.prerequisites.isSome ∧ h.page.refreshInFlight = false ∧ h.page.files ≠ [] ∨
  (c.prerequisites = none ∨ h.page.files = []) ∧ DesignatesEmpty W.platform w h.tab.data

/-- The load has failed, or its manifest cannot be listed. -/
def LoadFails (r : Result LoadResult) : Prop :=
  (∃ e, r = .error e) ∨
    ∃ result m e, r = .ok result ∧ loadedManifest result = some m ∧ fileItems m = .error e

/-- The load has this manifest, under this CID. -/
def LoadGives (r : Result LoadResult) (m : Json) (cid : String) : Prop :=
  r = .ok (.loaded m cid) ∨ r = .ok (.created m cid)

/-- What keeps the list right: a refresh for the wallet on display is answered; a load that fails
does so while nothing is listed, and one that lists files does so for the wallet on display, at its
pointer; and, where a manifest could open under two signatures, the init of an append does not
replace one that is listed. -/
structure Event.Timely (W : Deployment Pubkey Address) (h : Home Pubkey Address)
    (e : Event Pubkey Address) : Prop where
  effects : ∀ env env' w, e = .runEffects env env' → h.view.gate = true →
    h.view.wallet = some w.val → (h.enterEffects W).Answers W h.view w "effect"
  appended : ∀ i env c p r w, e = .settle i env → h.jobs[i]? = some (.append c p (.done (.ok r))) →
    c.wallet = some w.val → h.OnDisplay w →
    Home.Answers W { h with jobs := h.jobs.eraseIdx i } c w "post-append"
  failed : ∀ i env c refreshKey r, e = .settle i env →
    h.jobs[i]? = some (.refresh c refreshKey (.done r)) → LoadFails r → h.page.files = []
  closed : ∀ i env c refreshKey r m cid files d, e = .settle i env →
    h.jobs[i]? = some (.refresh c refreshKey (.done r)) → LoadGives r m cid → fileItems m = .ok files →
    h.effects = some d → d.gate = false → files = []
  displayed : ∀ i env c refreshKey r m cid files w, e = .settle i env →
    h.jobs[i]? = some (.refresh c refreshKey (.done r)) → LoadGives r m cid → fileItems m = .ok files →
    h.OnDisplay w → c.wallet = some w.val ∧ manifestCid W.platform w h.tab.data = some cid ∨
      SomeDue w (h.jobs.eraseIdx i)
  stored : ¬ W.platform.IdealAead → ∀ i c p ready next w, e = .advance i →
    h.jobs[i]? = some (.append c p (.await (.load .addBytes) ready next)) →
    p.env.init.fault .addBytes = none → c.wallet = some w.val → h.OnDisplay w →
    h.page.files = [] ∨ SomeDue w (h.jobs.eraseIdx i)

/-! ### Files -/

theorem fileItems_of_empty {m : Json} (h : Manifest.entriesOf m = .ok []) : fileItems m = .ok [] := by
  unfold Manifest.entriesOf at h
  unfold fileItems
  split at h
  · rename_i es hes
    obtain rfl := Except.ok.inj h
    rw [hes]
    rfl
  all_goals cases h

theorem lists_of_designatesEmpty {P : Platform} {w : WalletPubKey} {b : Browser}
    (h : DesignatesEmpty P w b) : Lists P w b [] := by
  obtain ⟨sig, m, hm, hempty⟩ := h
  exact ⟨sig, m, hm, fileItems_of_empty hempty⟩

/-- A manifest without entries lists nothing. -/
theorem Lists.nil_of_holdsNothing {P : Platform} {w : WalletPubKey} {b : Browser}
    {files : List FileItem} (h : Lists P w b files) (hb : HoldsNothing P w b) : files = [] := by
  obtain ⟨sig, m, hm, hfiles⟩ := h
  unfold fileItems at hfiles
  split at hfiles
  · exact (Except.ok.inj hfiles).symm
  · exact (Except.ok.inj hfiles).symm
  · rename_i es hes
    have hnil : es = [] := by
      refine List.eq_nil_iff_forall_not_mem.mpr fun x hx => hb x ⟨sig, m, hm, ?_⟩
      rwa [manifestEntries_ok (entriesOf_eq_ok.mpr hes)]
    rw [hnil] at hfiles
    exact (Except.ok.inj hfiles).symm
  · cases hfiles

theorem Lists.congr {P : Platform} {w : WalletPubKey} {b b' : Browser} {files : List FileItem}
    (h : Lists P w b files) (hcid : manifestCid P w b' = manifestCid P w b) : Lists P w b' files := by
  obtain ⟨sig, m, ⟨cid, hb, hopen⟩, hm⟩ := h
  exact ⟨sig, m, ⟨cid, hcid.trans hb, hopen⟩, hm⟩

/-- What becomes of the page when a load ends. -/
theorem settle_cases (refreshKey : RefreshKey) (r : Result LoadResult) (page : Page) :
    (LoadFails r ∧ ∃ e, page.settle refreshKey r = page.fail e) ∨
    (r = .ok .restoreRequired ∧ page.settle refreshKey r = { page with
      files := [], manifestErrorMessage := none, refreshInFlight := false, reported := true }) ∨
    ∃ m cid files, LoadGives r m cid ∧ fileItems m = .ok files ∧
      page.settle refreshKey r = ⟨files, none, false, some refreshKey, false⟩ := by
  have hgives : ∀ result m cid, loadedManifest result = some m →
      (result = .loaded m cid ∨ result = .created m cid) → r = .ok result →
      (LoadFails r ∧ ∃ e, page.settle refreshKey r = page.fail e) ∨
      ∃ m cid files, LoadGives r m cid ∧ fileItems m = .ok files ∧
        page.settle refreshKey r = ⟨files, none, false, some refreshKey, false⟩ := by
    rintro result m cid hm hresult rfl
    cases hfiles : fileItems m with
    | error e =>
      exact Or.inl ⟨Or.inr ⟨result, m, e, rfl, hm, hfiles⟩, e, by simp [Page.settle, hm, hfiles]⟩
    | ok files =>
      refine Or.inr ⟨m, cid, files, ?_, hfiles, by simp [Page.settle, hm, hfiles]⟩
      exact hresult.imp (congrArg _) (congrArg _)
  cases r with
  | error e => exact Or.inl ⟨Or.inl ⟨e, rfl⟩, e, rfl⟩
  | ok result =>
    cases result with
    | restoreRequired => exact Or.inr (Or.inl ⟨rfl, rfl⟩)
    | loaded m cid => exact (hgives _ m cid rfl (Or.inl rfl) rfl).imp_right Or.inr
    | created m cid => exact (hgives _ m cid rfl (Or.inr rfl) rfl).imp_right Or.inr

/-! ### Jobs that are due -/

section Due

variable {w w' : WalletPubKey} {jobs : List (Job Pubkey)} {j j' : Job Pubkey} {i : Nat}

theorem SomeDue.append (h : SomeDue w jobs) (more : List (Job Pubkey)) : SomeDue w (jobs ++ more) := by
  obtain ⟨j, hj, hdue⟩ := h
  exact ⟨j, List.mem_append_left _ hj, hdue⟩

theorem SomeDue.set (h : SomeDue w jobs) (hj : jobs[i]? = some j) (hdue : j.Due w → j'.Due w) :
    SomeDue w (jobs.set i j') := by
  obtain ⟨k, hk, hkdue⟩ := h
  obtain ⟨n, hn, rfl⟩ := List.mem_iff_getElem.mp hk
  by_cases hni : n = i
  · subst hni
    rw [List.getElem?_eq_getElem hn, Option.some.injEq] at hj
    exact ⟨j', List.mem_set hn j', hdue (hj ▸ hkdue)⟩
  · exact ⟨_, List.mem_iff_getElem.mpr ⟨n, by simpa using hn,
      List.getElem_set_ne (Ne.symm hni) _⟩, hkdue⟩

theorem SomeDue.eraseIdx (h : SomeDue w jobs) (hj : jobs[i]? = some j) (hdue : ¬ j.Due w) :
    SomeDue w (jobs.eraseIdx i) := by
  obtain ⟨k, hk, hkdue⟩ := h
  obtain ⟨n, hn, rfl⟩ := List.mem_iff_getElem.mp hk
  have hni : n ≠ i := by
    rintro rfl
    rw [List.getElem?_eq_getElem hn, Option.some.injEq] at hj
    exact hdue (hj ▸ hkdue)
  exact ⟨_, List.mem_eraseIdx_iff_getElem.mpr ⟨n, hn, hni, rfl⟩, hkdue⟩

/-- What a due job of `jobs` without the one at `i` does not depend on that one. -/
theorem SomeDue.of_eraseIdx (h : SomeDue w (jobs.eraseIdx i)) : SomeDue w (jobs.set i j') := by
  obtain ⟨k, hk, hkdue⟩ := h
  obtain ⟨n, hn, hni, rfl⟩ := List.mem_eraseIdx_iff_getElem.mp hk
  exact ⟨_, List.mem_iff_getElem.mpr ⟨n, by simpa using hn, List.getElem_set_ne (Ne.symm hni) _⟩,
    hkdue⟩

end Due

/-! ### The invariant -/

/-- The key of the last load is the one of the manifest that is listed. -/
def Page.Keyed (P : Platform) (page : Page) : Prop :=
  ∀ refreshKey, page.lastRefreshKey = some refreshKey → page.files ≠ [] →
    ∃ (w : WalletPubKey) (sig : Bytes) (m : Json), refreshKey.walletPubKey = w.val ∧
      refreshKey.manifestCid ≠ "" ∧ openManifest P w.val sig (P.content refreshKey.manifestCid) = .ok m ∧
      fileItems m = .ok page.files

/-- For the wallet on display the list is right, or a job will refresh it. -/
structure Home.Coherent (W : Deployment Pubkey Address) (h : Home Pubkey Address) : Prop where
  list : ∀ w, h.OnDisplay w → h.page.reported = true ∨
    Lists W.platform w h.tab.data h.page.files ∨ SomeDue w h.jobs
  wallet : ∀ d, h.effects = some d → d.gate = true → ∃ w : WalletPubKey, d.wallet = some w.val
  closed : ∀ d, h.effects = some d → d.gate = false → h.page.files = []
  reported : h.page.reported = true → h.page.files = []
  keyed : h.page.Keyed W.platform

section Coherent

variable {W : Deployment Pubkey Address} {h h' : Home Pubkey Address} {c : Snapshot Pubkey}
  {w w' : WalletPubKey} {reason : String} {tab : WalletTab} {page : Page} {jobs : List (Job Pubkey)}
  {i : Nat}

theorem Home.OnDisplay.unique (h₁ : h.OnDisplay w) (h₂ : h.OnDisplay w') : w = w' := by
  obtain ⟨d, hd, -, hw⟩ := h₁
  obtain ⟨d', hd', -, hw'⟩ := h₂
  obtain rfl := Option.some.inj (hd.symm.trans hd')
  exact d.wallet_unique hw hw'

theorem Page.keyed_of_empty (P : Platform) (hfiles : page.files = []) : page.Keyed P :=
  fun _ _ hne => absurd hfiles hne

theorem Refreshes.reported (hr : Refreshes W h c reason tab page jobs)
    (hreported : h.page.reported = true → h.page.files = []) :
    page.reported = true → page.files = [] := by
  cases hr with
  | gated hpre hsame => exact fun _ => rfl
  | dropped hpre hstarts hsame => exact hreported
  | started hstarts hwallet hload => exact hreported

theorem Refreshes.keyed (hr : Refreshes W h c reason tab page jobs)
    (hkeyed : h.page.Keyed W.platform) : page.Keyed W.platform := by
  cases hr with
  | gated hpre hsame => exact Page.keyed_of_empty _ rfl
  | dropped hpre hstarts hsame => exact hkeyed
  | started hstarts hwallet hload => exact hkeyed

/-- The wallets other than that of the refresh keep their pointers and what is due for them. -/
theorem Refreshes.others (hr : Refreshes W h c reason tab page jobs) (hwallet : c.wallet = some w.val)
    (hne : w' ≠ w) : manifestCid W.platform w' tab.data = manifestCid W.platform w' h.tab.data := by
  cases hr with
  | gated hpre hsame => exact hsame w'
  | dropped hpre hstarts hsame => exact hsame w'
  | started hstarts hwallet' hload =>
    obtain rfl := c.wallet_unique hwallet hwallet'
    exact hload.others w' hne

theorem Refreshes.due (hr : Refreshes W h c reason tab page jobs) (hdue : SomeDue w h.jobs) :
    SomeDue w jobs := by
  cases hr with
  | gated hpre hsame => exact hdue
  | dropped hpre hstarts hsame => exact hdue
  | started hstarts hwallet hload => exact hdue.append _

/-- The list of a key that is not loaded again. -/
theorem Page.Keyed.lists {P : Platform} {b : Browser} (hkeyed : page.Keyed P)
    (hwallet : c.wallet = some w.val)
    (hkey : page.lastRefreshKey = some (c.refreshKey (manifestCid P w b))) (hfiles : page.files ≠ []) :
    Lists P w b page.files := by
  obtain ⟨w', sig, m, hw', hne, hopen, hm⟩ := hkeyed _ hkey hfiles
  have hval : (c.refreshKey (manifestCid P w b)).walletPubKey = w.val := by
    rw [Snapshot.refreshKey, Snapshot.hook_of_wallet hwallet]
    rfl
  obtain rfl := WalletPubKey.val_injective (hval.symm.trans hw')
  refine ⟨sig, m, ⟨(manifestCid P w b).getD "", ?_, hopen⟩, hm⟩
  cases hcid : manifestCid P w b with
  | some cid => rfl
  | none =>
    rw [hcid] at hne
    exact absurd rfl hne

/-- A refresh that is answered leaves the list right, or a job that will refresh it. -/
theorem Refreshes.lists (hr : Refreshes W h c reason tab page jobs) (hwallet : c.wallet = some w.val)
    (hkeyed : h.page.Keyed W.platform) (hanswers : h.Answers W c w reason) :
    Lists W.platform w tab.data page.files ∨ SomeDue w jobs := by
  cases hr with
  | gated hpre hsame =>
    rcases hanswers with hstarts | ⟨hsome, -⟩ | ⟨hsome, -⟩ | ⟨-, hempty⟩
    · simp [Home.Starts, hpre] at hstarts
    · simp [hpre] at hsome
    · simp [hpre] at hsome
    · exact Or.inl (lists_of_designatesEmpty (hempty.congr (hsame w)))
  | dropped hpre hstarts hsame =>
    rcases hanswers with hstarts' | ⟨-, -, hdue⟩ | ⟨-, hflight, hfiles⟩ | ⟨hfiles, hempty⟩
    · exact absurd hstarts' hstarts
    · exact Or.inr hdue
    · have hkey : h.page.lastRefreshKey = some (c.refreshKey (manifestCid W.platform w h.tab.data)) := by
        by_contra hkey
        refine hstarts ⟨hpre, hflight, fun hdup => hkey ?_⟩
        rw [hdup.1, hwallet, safeGetManifestCid_wallet]
      exact Or.inl ((hkeyed.lists hwallet hkey hfiles).congr (hsame w))
    · have hnil : h.page.files = [] := hfiles.resolve_left fun hnone => by simp [hnone] at hpre
      rw [hnil]
      exact Or.inl (lists_of_designatesEmpty (hempty.congr (hsame w)))
  | started hstarts hwallet' hload =>
    exact Or.inr ⟨_, List.mem_append_right _ (List.mem_singleton_self _), hwallet⟩

/-! ### One event -/

variable {e : Event Pubkey Address}

/-- Whatever leaves the session on display, the page and what is due as they are, but for a pointer
of `w`. -/
theorem Home.Coherent.frame (hh : h.Coherent W) (heffects : h'.effects = h.effects)
    (hpage : h'.page = h.page)
    (hlist : ∀ w, h.OnDisplay w → Lists W.platform w h.tab.data h.page.files ∨ SomeDue w h.jobs →
      Lists W.platform w h'.tab.data h.page.files ∨ SomeDue w h'.jobs) : h'.Coherent W where
  list w hw := by
    rw [Home.OnDisplay, heffects] at hw
    rw [hpage]
    exact (hh.list w hw).imp_right (hlist w hw)
  wallet := heffects ▸ hh.wallet
  closed := by
    rw [heffects, hpage]
    exact hh.closed
  reported := hpage ▸ hh.reported
  keyed := hpage ▸ hh.keyed

/-- A load goes on: it stays due for its wallet, and keeps the pointers of the others. -/
theorem Home.Coherent.load (hh : h.Coherent W) (hwf : h.WellFormed W) {refreshKey : RefreshKey}
    {pt : AwaitPoint} {ready : WalletTab → Bool} {next : Task AwaitPoint WalletTab JsError LoadResult}
    (hjob : h.jobs[i]? = some (.refresh c refreshKey (.await pt ready next))) :
    Home.Coherent W { h with
      tab := (next.seg h.tab).1, jobs := h.jobs.set i (.refresh c refreshKey (next.seg h.tab).2) } := by
  obtain ⟨w, hwallet, -, hothers, -⟩ := hwf.load hjob
  refine hh.frame rfl rfl fun w' _ hlist => ?_
  by_cases hw : w' = w
  · subst hw
    exact Or.inr ⟨_, List.mem_set (List.getElem?_eq_some_iff.mp hjob).1 _, hwallet⟩
  · exact hlist.imp (fun hlists => hlists.congr (hothers w' hw)) fun hdue => hdue.set hjob id

/-- An append goes on: unless it can only succeed from there, it keeps the pointer or replaces it by
an init. The init replaces no entries: they exclude each other. -/
theorem Home.Coherent.append (hh : h.Coherent W) (hwf : h.WellFormed W)
    (he : Event.Timely W h (.advance i))
    {p : AppendParams} {pt : AwaitPoint} {ready : WalletTab → Bool}
    {next : Task AwaitPoint WalletTab JsError (Json × String)}
    (hjob : h.jobs[i]? = some (.append c p (.await pt ready next)))
    (hkeeps : W.platform.IdealAead → ∀ w : WalletPubKey, c.wallet = some w.val →
      Keeps W.platform w h.tab.data (next.seg h.tab).1.data) :
    Home.Coherent W { h with
      tab := (next.seg h.tab).1, jobs := h.jobs.set i (.append c p (next.seg h.tab).2) } := by
  obtain ⟨-, w, hwallet, -, ⟨hothers, -⟩, hrest⟩ := hwf.append hjob
  refine hh.frame rfl rfl fun w' hdisplay hlist => ?_
  have hdue : SomeDue w' h.jobs → SomeDue w' (h.jobs.set i (.append c p (next.seg h.tab).2)) :=
    fun hdue => hdue.set hjob fun ⟨hw', hsucceeds⟩ =>
      ⟨hw', (Task.returns_await.mp hsucceeds).seg h.tab⟩
  by_cases hw : w' = w
  · subst hw
    rcases hrest with (hsame | ⟨hpt, hfault, hempty⟩) | hsucceeds
    · exact hlist.imp (fun hlists => hlists.congr hsame) hdue
    · -- the append has replaced the pointer by an init
      obtain rfl := Option.some.inj hpt
      by_cases hA : W.platform.IdealAead
      · refine hlist.imp (fun hlists => ?_) hdue
        have hbefore : HoldsNothing W.platform w' h.tab.data := fun x hx =>
          hempty.holdsNothing hA x (hkeeps hA w' hwallet x hx)
        rw [hlists.nil_of_holdsNothing hbefore]
        exact lists_of_designatesEmpty hempty
      · rcases he.stored hA i c p ready next w' rfl hjob hfault hwallet hdisplay with hfiles | hother
        · rw [hfiles]
          exact Or.inl (lists_of_designatesEmpty hempty)
        · exact Or.inr hother.of_eraseIdx
    · exact Or.inr ⟨_, List.mem_set (List.getElem?_eq_some_iff.mp hjob).1 _, hwallet, hsucceeds⟩
  · exact hlist.imp (fun hlists => hlists.congr (hothers w' hw)) hdue

/-- An append is called. -/
theorem Home.Coherent.uploaded (hh : h.Coherent W) {pre : Prerequisites} {file : Files.File}
    {p : AppendParams} {rest : Task AwaitPoint WalletTab JsError (Json × String)}
    (hjob : h.jobs[i]? = some (.upload c pre file)) (hwallet : c.wallet = some w.val)
    (hcall : Appended W w c p h.tab tab rest) :
    Home.Coherent W { h with tab, jobs := h.jobs.set i (.append c p rest) } := by
  refine hh.frame rfl rfl fun w' _ hlist => ?_
  have hdue : SomeDue w' h.jobs → SomeDue w' (h.jobs.set i (.append c p rest)) := fun hdue =>
    hdue.set hjob False.elim
  by_cases hw : w' = w
  · subst hw
    rcases hcall.tentative with hsame | hsucceeds
    · exact hlist.imp (fun hlists => hlists.congr hsame) hdue
    · exact Or.inr ⟨_, List.mem_set (List.getElem?_eq_some_iff.mp hjob).1 _, hwallet, hsucceeds⟩
  · exact hlist.imp (fun hlists => hlists.congr (hcall.others w' hw)) hdue

/-- What a load gives opens with the signature of its wallet. -/
theorem LoadGives.opens {P : Platform} {r : Result LoadResult} {m : Json} {cid : String} {sig : Bytes}
    {read : Option String} (hgives : LoadGives r m cid) (hfrom : LoadedFrom P w sig read r) :
    openManifest P w.val sig (P.content cid) = .ok m ∧
      (read = some cid ∨ Manifest.entriesOf m = .ok []) := by
  rcases hgives with rfl | rfl
  · exact ⟨hfrom.2, Or.inl hfrom.1⟩
  · exact ⟨hfrom.1, Or.inr hfrom.2⟩

/-- A load ends. -/
theorem Home.Coherent.loaded (hh : h.Coherent W) (hwf : h.WellFormed W) {env : LoadEnv}
    (he : Event.Timely W h (.settle i env)) {refreshKey : RefreshKey} {r : Result LoadResult}
    (hjob : h.jobs[i]? = some (.refresh c refreshKey (.done r))) :
    Home.Coherent W { h with page := h.page.settle refreshKey r, jobs := h.jobs.eraseIdx i } := by
  rcases settle_cases refreshKey r h.page with ⟨hfails, error, heq⟩ | ⟨hr, heq⟩ |
    ⟨m, cid, files, hgives, hfiles, heq⟩
  · rw [heq]
    have hnil := he.failed i env c refreshKey r rfl hjob hfails
    exact ⟨fun _ _ => Or.inl rfl, hh.wallet, hh.closed, fun _ => hnil, hh.keyed⟩
  · rw [heq]
    exact ⟨fun _ _ => Or.inl rfl, hh.wallet, fun _ _ _ => rfl, fun _ => rfl,
      Page.keyed_of_empty _ rfl⟩
  · obtain ⟨w, hwallet, hload⟩ := hwf.job hjob
    obtain ⟨sig, read, hreturns, hcid, hread⟩ := hload.returns
    obtain ⟨hopen, horigin⟩ := hgives.opens ((Task.returns_done r).mp hreturns)
    rw [heq]
    refine ⟨fun w' hdisplay => Or.inr ?_, hh.wallet,
      fun d => he.closed i env c refreshKey r m cid files d rfl hjob hgives hfiles,
      fun hreported => (by cases hreported), ?_⟩
    · refine (he.displayed i env c refreshKey r m cid files w' rfl hjob hgives hfiles
        hdisplay).imp_left ?_
      rintro ⟨hwallet', hpointer⟩
      obtain rfl := c.wallet_unique hwallet hwallet'
      exact ⟨sig, m, ⟨cid, hpointer, hopen⟩, hfiles⟩
    · intro key hkey hne
      obtain rfl := Option.some.inj hkey
      rcases horigin with rfl | hempty
      · refine ⟨w, sig, m, hload.wallet, ?_, ?_, hfiles⟩
        · rw [hcid]
          exact fun h => hread (congrArg some h)
        · rw [hcid]
          exact hopen
      · exact absurd (Except.ok.inj (hfiles.symm.trans (fileItems_of_empty hempty))) hne

theorem Refreshes.page_of_isSome (hr : Refreshes W h c reason tab page jobs)
    (hpre : c.prerequisites.isSome) :
    page.files = h.page.files ∧ page.reported = h.page.reported := by
  cases hr with
  | gated hnone hsame => simp [hnone] at hpre
  | dropped _ hstarts hsame => exact ⟨rfl, rfl⟩
  | started hstarts hwallet hload => exact ⟨rfl, rfl⟩

/-- An append has succeeded, and its snapshot refreshes the list. -/
theorem Home.Coherent.appended (hh : h.Coherent W) (hwf : h.WellFormed W) {env : LoadEnv}
    (he : Event.Timely W h (.settle i env)) {p : AppendParams} {r : Json × String}
    (hjob : h.jobs[i]? = some (.append c p (.done (.ok r))))
    (hr : Refreshes W { h with jobs := h.jobs.eraseIdx i } c "post-append" tab page jobs) :
    Home.Coherent W { h with tab, page, jobs } := by
  obtain ⟨⟨w, hwallet, -⟩, hpre⟩ := hwf.job hjob
  obtain ⟨hfiles, hreported⟩ := hr.page_of_isSome hpre
  refine ⟨fun w' hdisplay => ?_, hh.wallet, ?_, hr.reported hh.reported, hr.keyed hh.keyed⟩
  · by_cases hw : w' = w
    · subst hw
      exact Or.inr (hr.lists hwallet hh.keyed (he.appended i env c p r w' rfl hjob hwallet hdisplay))
    · refine (hh.list w' hdisplay).imp (fun h => hreported.trans h) fun hlist => ?_
      refine hlist.imp (fun hlists => ?_) fun hdue => hr.due (hdue.eraseIdx hjob ?_)
      · rw [hfiles]
        exact hlists.congr (hr.others hwallet hw)
      · exact fun hdue => hw (c.wallet_unique hdue.1 hwallet)
  · rw [hfiles]
    exact hh.closed

theorem enterEffects_files (h : Home Pubkey Address) : (h.enterEffects W).page.files = h.page.files ∧
    (h.enterEffects W).page.reported = h.page.reported ∧
    ((h.enterEffects W).page.lastRefreshKey = none ∨
      (h.enterEffects W).page.lastRefreshKey = h.page.lastRefreshKey) := by
  rw [Home.enterEffects, Home.dedupReset, Home.fetchRegistry]
  split
  · refine ⟨rfl, rfl, ?_⟩
    dsimp only
    split
    · exact Or.inl rfl
    · exact Or.inr rfl
  · refine ⟨rfl, rfl, ?_⟩
    dsimp only
    split
    · exact Or.inl rfl
    · exact Or.inr rfl

theorem Snapshot.wallet_of_gate (hc : Connected c.hook.walletPubKey) (hgate : c.gate = true) :
    ∃ w : WalletPubKey, c.wallet = some w.val := by
  have hsome : c.wallet.isSome := by
    simp only [Snapshot.gate, Snapshot.isSessionGateOk, Bool.and_eq_true] at hgate
    exact hgate.1.1.1
  obtain ⟨v, hv⟩ := Option.isSome_iff_exists.mp hsome
  obtain ⟨w, rfl⟩ := hc v hv
  exact ⟨w, hv⟩

theorem Snapshot.prerequisites_of_closed (hgate : c.gate = false) : c.prerequisites = none := by
  cases hpre : c.prerequisites with
  | none => rfl
  | some pre =>
    obtain ⟨-, hsig, -, hok⟩ := c.prerequisites_eq_some hpre
    simp [Snapshot.gate, hsig, hok] at hgate

theorem Refreshes.files_of_none (hr : Refreshes W h c reason tab page jobs)
    (hpre : c.prerequisites = none) : page.files = [] := by
  cases hr with
  | gated _ hsame => rfl
  | dropped hpre' hstarts hsame => simp [hpre] at hpre'
  | started hstarts hwallet hload => simp [Home.Starts, hpre] at hstarts

/-- The effects run. -/
theorem Home.Coherent.effects (hh : h.Coherent W) (hwf : h.WellFormed W) {env env' : LoadEnv}
    (he : Event.Timely W h (.runEffects env env'))
    (hr : Refreshes W (h.enterEffects W) h.view "effect" tab page jobs) :
    Home.Coherent W { h.enterEffects W with tab, page, jobs } := by
  obtain ⟨hfiles, hreported, hkey⟩ := enterEffects_files (W := W) h
  have hkeyed : (h.enterEffects W).page.Keyed W.platform := by
    intro key hlast hne
    rw [hfiles] at hne ⊢
    rcases hkey with hnone | hsame
    · cases hnone.symm.trans hlast
    · exact hh.keyed key (hsame ▸ hlast) hne
  have hview : ∀ d, (h.enterEffects W).effects = some d → d = h.view := fun d hd =>
    (Option.some.inj hd).symm
  refine ⟨fun w hdisplay => Or.inr ?_, fun d hd hgate => ?_, fun d hd hgate => ?_, ?_, hr.keyed hkeyed⟩
  · obtain ⟨d, hd, hgate, hwallet⟩ := hdisplay
    obtain rfl := hview d hd
    exact hr.lists hwallet hkeyed (he.effects env env' w rfl hgate hwallet)
  · obtain rfl := hview d hd
    exact Snapshot.wallet_of_gate hwf.view hgate
  · obtain rfl := hview d hd
    exact hr.files_of_none (Snapshot.prerequisites_of_closed hgate)
  · refine hr.reported ?_
    rw [hfiles, hreported]
    exact hh.reported

variable [DecidableEq Pubkey] [DecidableEq Address]

/-- Every timely event keeps the list right, or a job that will refresh it. -/
theorem Home.Coherent.next {b : Browser} (hP : W.platform.Lawful) (hh : h.Coherent W)
    (hcalls : h.InTab W (fun _ _ _ => True) (.init (Tab.fresh b))) (hwf : h.WellFormed W)
    (he : e.Timely W h) (hn : Next W h e h') : h'.Coherent W := by
  cases hn with
  | instruction ix => exact ⟨hh.list, hh.wallet, hh.closed, hh.reported, hh.keyed⟩
  | quiet requests hs hstate hview hrenderings =>
    exact ⟨hh.list, hh.wallet, hh.closed, hh.reported, hh.keyed⟩
  | effects hrefreshes => exact hh.effects hwf he hrefreshes
  | handled hwallet hpre =>
    exact hh.frame rfl rfl fun w _ hlist => hlist.imp_right fun hdue => hdue.append _
  | uploaded hjob hwallet hpre hcall => exact hh.uploaded hjob hwallet hcall
  | load hjob hready => exact hh.load hwf hjob
  | append hjob hready =>
    exact hh.append hwf he hjob fun hA w hwallet => hcalls.append_keeps hP hA hjob hready hwallet
  | loaded hjob => exact hh.loaded hwf he hjob
  | appended hjob hrefreshes => exact hh.appended hwf he hjob hrefreshes
  | notUploaded hjob =>
    exact hh.frame rfl rfl fun w _ hlist => hlist.imp_right fun hdue => hdue.eraseIdx hjob id
  | notAppended hjob =>
    refine hh.frame rfl rfl fun w _ hlist => hlist.imp_right fun hdue => hdue.eraseIdx hjob ?_
    rintro ⟨-, hsucceeds⟩
    obtain ⟨a, ha⟩ := (Task.returns_done _).mp hsucceeds
    cases ha

omit [DecidableEq Pubkey] [DecidableEq Address] in
theorem coherent_init (accounts : Accounts Pubkey Address) (s : SessionManager) (b : Browser) :
    (Home.init accounts s b).Coherent W where
  list w hw := by
    obtain ⟨d, hd, -⟩ := hw
    cases hd
  wallet d hd := by cases hd
  closed d hd := by cases hd
  reported hreported := by cases hreported
  keyed := Page.keyed_of_empty _ rfl

omit [DecidableEq Pubkey] [DecidableEq Address] in
theorem Home.Coherent.showsManifest (hh : h.Coherent W) (hsettled : h.Settled) : h.ShowsManifest W where
  entries hgate hreported := by
    obtain ⟨w, hwallet⟩ := hh.wallet _ hsettled.effects hgate
    refine ⟨w, hwallet, ?_⟩
    rcases hh.list w ⟨_, hsettled.effects, hgate, hwallet⟩ with hr | hlists | ⟨j, hj, hdue⟩
    · cases hr.symm.trans hreported
    · exact hlists
    · obtain ⟨c, pre, file, rfl⟩ := hsettled.jobs j hj
      exact hdue.elim
  empty h := h.elim (hh.closed _ hsettled.effects) hh.reported

theorem coherent_of_run (hP : W.platform.Lawful) (accounts : Accounts Pubkey Address)
    {s : SessionManager} (hs : Connected s.walletPubKey) (b : Browser)
    (hrun : Home.Run W (Event.Timely W) (Home.init accounts s b) h) : h.Coherent W := by
  let I (h : Home Pubkey Address) :=
    h.InTab W (fun _ _ _ => True) (.init (Tab.fresh b)) ∧ h.Coherent W
  have hnext : ∀ h e h', h.WellFormed W → I h → e.Timely W h → Next W h e h' → I h' := by
    rintro h e h' hwf ⟨hcalls, hh⟩ he hn
    exact ⟨hcalls.next (fun _ _ _ _ _ _ _ _ _ => trivial) hn, hh.next hP hcalls hwf he hn⟩
  have hinit : I (Home.init accounts s b) :=
    ⟨⟨_, .refl, calls_init accounts s b⟩, coherent_init accounts s b⟩
  exact (invariant_of_run hP (wellFormed_init accounts hs b) hinit hnext hrun).2.2

/-- In every run of timely events the list is that of the wallet's manifest whenever nothing is in
flight. -/
theorem files_of_manifest (hP : W.platform.Lawful) (accounts : Accounts Pubkey Address)
    {s : SessionManager} (hs : Connected s.walletPubKey) (b : Browser)
    (hrun : Home.Run W (Event.Timely W) (Home.init accounts s b) h) (hsettled : h.Settled) :
    h.ShowsManifest W :=
  (coherent_of_run hP accounts hs b hrun).showsManifest hsettled

end Coherent

/-! ### Jobs that run to their end -/

section Alone

variable [DecidableEq Pubkey] [DecidableEq Address] {W : Deployment Pubkey Address}

/-- The only job, of the kind `j`, is advanced by the next segment of its call. -/
def Advances {α : Type} (W : Deployment Pubkey Address)
    (j : Task AwaitPoint WalletTab JsError α → Job Pubkey) : Prop :=
  ∀ (h : Home Pubkey Address) pt ready next, h.jobs = [j (.await pt ready next)] →
    ready h.tab = true → h.apply W (.advance 0) =
      { h with tab := (next.seg h.tab).1, jobs := [j (next.seg h.tab).2] }

theorem advances_refresh (c : Snapshot Pubkey) (refreshKey : RefreshKey) :
    Advances W (.refresh c refreshKey) := by
  intro h pt ready next hjobs hready
  simp [Home.apply, hjobs, hready]

theorem advances_append (c : Snapshot Pubkey) (p : AppendParams) : Advances W (.append c p) := by
  intro h pt ready next hjobs hready
  simp [Home.apply, hjobs, hready]

section Run

variable {α : Type} (allowed : Home Pubkey Address → Event Pubkey Address → Prop)
  {j : Task AwaitPoint WalletTab JsError α → Job Pubkey} {t : Task AwaitPoint WalletTab JsError α}
  {tab : WalletTab}

/-- It is advanced to its end, and keeps `Φ` on the way. -/
theorem run_advance_keeping (hj : Advances W j)
    (Φ : WalletTab → Task AwaitPoint WalletTab JsError α → Prop)
    (hΦ : ∀ pt ready next tab, Φ tab (.await pt ready next) → Φ (next.seg tab).1 (next.seg tab).2)
    (hallowed : ∀ h t, h.jobs = [j t] → Φ h.tab t → allowed h (.advance 0)) (ht : t.RunsAlone tab)
    (hstart : Φ (t.seg tab).1 (t.seg tab).2) (h : Home Pubkey Address) :
    Home.Run W allowed { h with tab := (t.seg tab).1, jobs := [j (t.seg tab).2] }
      { h with tab := (t.run tab).1, jobs := [j (.done (t.run tab).2)] } := by
  induction t generalizing tab with
  | done r => exact .refl
  | sync f n ih => exact ih tab ht hstart
  | await pt ready n ih =>
    obtain ⟨hready, hn⟩ := ht
    exact .head ⟨.advance 0, trivial, hallowed _ _ rfl hstart, (hj _ pt ready n rfl hready).symm⟩
      (ih hn (hΦ pt ready n tab hstart))

theorem run_advance (hj : Advances W j) (hallowed : ∀ h t, h.jobs = [j t] → allowed h (.advance 0))
    (ht : t.RunsAlone tab) (h : Home Pubkey Address) :
    Home.Run W allowed { h with tab := (t.seg tab).1, jobs := [j (t.seg tab).2] }
      { h with tab := (t.run tab).1, jobs := [j (.done (t.run tab).2)] } :=
  run_advance_keeping allowed hj (fun _ _ => True) (fun _ _ _ _ => id)
    (fun h t hjobs _ => hallowed h t hjobs) ht trivial h

end Run

end Alone

/-! ### Samples -/

section Samples

variable {W : Deployment Nat (Nat × Hash)} {w : WalletPubKey} {m : Json} {cid : String}
  {h : Home Nat (Nat × Hash)}

theorem seg_loadManifestOrInit_some {P : Platform} {p : LoadParams}
    (hw : Js.trim p.walletPubKey = w.val) (hunlock : hasUnlock p.unlock = true) {b : Browser}
    (hcid : manifestCid P w b = some cid) :
    (loadManifestOrInit P p).seg b = (b.migrated P w, loadManifest P w.val p cid) := by
  have hread : (readManifestCid P w.val).seg b = (b.migrated P w, .done (.ok (some cid))) := by
    refine Task.seg_atomically ?_
    rw [getManifestCid_val, show pointer P.cluster w b.localStorage = some cid from hcid]
    rfl
  simp only [loadManifestOrInit, hw, isBlank_val, hunlock, check, Bool.not_false, require_true,
    Task.bind_def, Task.done_ok_bind, Task.seg_bind_ok hread]
  rfl

/-- The load reads `m` at `cid`. -/
structure Reads (P : Platform) (w : WalletPubKey) (m : Json) (cid : String)
    (load : Task AwaitPoint WalletTab JsError LoadResult) : Prop where
  unblocked : load.NeverBlocks
  suspended : ∀ tab, load.seg tab = (tab, load)
  run : ∀ tab, load.run tab = (tab, .ok (.loaded m cid))
  within : ∀ head q, load.Within (onTab (coveredBounds P w head)) q

theorem reads_loadManifest {P : Platform} {p : LoadParams} (hfault : p.env.fault.NoneOf readSteps)
    (hopen : openManifest P w.val p.signatureBytes (P.content cid) = .ok m) :
    Reads P w m cid (onData (loadManifest P w.val p cid)) where
  unblocked := (OnPointer.loadManifest p cid).unblocked.zoom _ _
  suspended tab := by
    rw [seg_onData]
    rfl
  run tab := by
    obtain ⟨key, hfetch⟩ := fetchManifest_of_open p.env.fault
      ("Impossible de charger le manifest : JSON invalide (CID=" ++ cid ++ ")")
      (hfault _ (by decide)) (hfault _ (by decide)) (hfault _ (by decide)) hopen
    rw [run_onData, run_loadManifest]
    exact congrArg
      (fun r => (tab, Except.map (fun r : Bytes × Json => LoadResult.loaded r.2 cid) r)) hfetch
  within head q := within_onData (within_loadManifest (admits_coveredBounds head) p cid)

/-- With a pointer, the load that a refresh starts reads its manifest. -/
theorem firstLoad_some {c : Snapshot Nat} {pre : Prerequisites} (hwallet : c.wallet = some w.val)
    (hpre : c.prerequisites = some pre) (hunlock : hasUnlock (unlockValue pre.unlock) = true)
    (env : LoadEnv) (hcid : manifestCid W.platform w h.tab.data = some cid) :
    h.firstLoad W c w pre env =
      (h.tab.setData ((h.tab.data.migrated W.platform w).migrated W.platform w),
        onData (loadManifest W.platform w.val (c.loadParams W pre env) cid)) := by
  have hw : Js.trim (c.loadParams W pre env).walletPubKey = w.val := trim_prerequisites hwallet hpre
  have hcid' : manifestCid W.platform w (h.tab.data.migrated W.platform w) = some cid := by
    rw [manifestCid_migrated, hcid]
  rw [Home.firstLoad, seg_onData]
  exact congrArg (fun out => (h.tab.setData out.1, onData out.2))
    (seg_loadManifestOrInit_some hw hunlock hcid')

/-- The wallet on display, with its vault unlocked, is loading `m`. -/
structure Loading (W : Deployment Nat (Nat × Hash)) (w : WalletPubKey) (m : Json) (cid : String)
    (load : Task AwaitPoint WalletTab JsError LoadResult) (h : Home Nat (Nat × Hash)) : Prop where
  effects : h.effects = some h.view
  wallet : h.view.wallet = some w.val
  unlocked : ∃ pre, h.view.prerequisites = some pre ∧ pre.vaultRootSig = sampleSignature ∧
    hasUnlock (unlockValue pre.unlock) = true
  rendered : h.view ∈ h.renderings
  job : h.jobs = [.refresh h.view (h.view.refreshKey (some cid)) load]
  pointer : manifestCid W.platform w h.tab.data = some cid
  opens : openManifest W.platform w.val sampleSignature (W.platform.content cid) = .ok m
  free : h.tab.Free
  reads : Reads W.platform w m cid load

theorem timely_of_quiet {e : Event Nat (Nat × Hash)} (heffects : ∀ env env', e ≠ .runEffects env env')
    (hsettle : ∀ i env, e ≠ .settle i env) (hadvance : ∀ i, e ≠ .advance i) : e.Timely W h where
  effects env env' _ he := absurd he (heffects env env')
  appended i env _ _ _ _ he := absurd he (hsettle i env)
  failed i env _ _ _ he := absurd he (hsettle i env)
  closed i env _ _ _ _ _ _ _ he := absurd he (hsettle i env)
  displayed i env _ _ _ _ _ _ _ he := absurd he (hsettle i env)
  stored _ i _ _ _ _ _ he := absurd he (hadvance i)

theorem timely_runEffects {env env' : LoadEnv} (heffects : ∀ w : WalletPubKey, h.view.gate = true →
    (h.enterEffects W).Answers W h.view w "effect") : (Event.runEffects env env').Timely W h where
  effects _ _ w _ hgate _ := heffects w hgate
  appended _ _ _ _ _ _ he := by cases he
  failed _ _ _ _ _ he := by cases he
  closed _ _ _ _ _ _ _ _ _ he := by cases he
  displayed _ _ _ _ _ _ _ _ _ he := by cases he
  stored _ _ _ _ _ _ _ he := by cases he

/-- Timely, and no call of the service is resumed. -/
def Event.Starting (W : Deployment Nat (Nat × Hash)) (h : Home Nat (Nat × Hash))
    (e : Event Nat (Nat × Hash)) : Prop :=
  e.Timely W h ∧ ∀ i, e ≠ .advance i

theorem starting_renders {s : SessionManager} (h : Home Nat (Nat × Hash)) :
    (Event.sessionManager s).Starting W h ∧ Event.refresh.Starting W h ∧ Event.render.Starting W h :=
  ⟨⟨timely_of_quiet (by simp) (by simp) (by simp), by simp⟩,
    ⟨timely_of_quiet (by simp) (by simp) (by simp), by simp⟩,
    ⟨timely_of_quiet (by simp) (by simp) (by simp), by simp⟩⟩

theorem Snapshot.gate_of_prerequisites {c : Snapshot Nat} {pre : Prerequisites}
    (hpre : c.prerequisites = some pre) : c.gate = true := by
  obtain ⟨-, hsig, -, hok⟩ := c.prerequisites_eq_some hpre
  simp [Snapshot.gate, hsig, hok]

theorem Loading.gate {load : Task AwaitPoint WalletTab JsError LoadResult}
    (hl : Loading W w m cid load h) : h.view.gate = true := by
  obtain ⟨pre, hpre, -⟩ := hl.unlocked
  exact Snapshot.gate_of_prerequisites hpre

/-- A wallet with a manifest connects, unlocks its vault and starts to load it. -/
theorem exists_loading (hP : W.platform.Lawful) (hdebug : W.debug = false)
    (accounts : Accounts Nat (Nat × Hash)) {b : Browser}
    (hm : Designates W.platform w sampleSignature b m) : ∃ cid load h,
      Home.Run W (Event.Starting W) (Home.opened accounts b) h ∧ Loading W w m cid load h := by
  obtain ⟨cid, hcid, hopen⟩ := hm
  obtain ⟨s, pre, hs⟩ := exists_unlocked w sampleSignature
  obtain ⟨b', message, heq, hsame⟩ :=
    runEffects_connected hP hdebug accounts w b sampleLoadEnv sampleLoadEnv
  have hc : Connected (some w.val) := connected_val w
  let h := (Home.connected accounts w (Tab.fresh b') message).renders s
  obtain ⟨hwallet, hpre⟩ := hs.view (Home.connected accounts w (Tab.fresh b') message)
  have hstarts : (h.enterEffects W).Starts W h.view "effect" :=
    starts_of_idle (by rw [hpre]; rfl) hdebug rfl rfl
  have htab : (h.enterEffects W).tab = Tab.fresh b' := (enterEffects_data (W := W) h).1
  have hcid' : manifestCid W.platform w b' = some cid := by rw [hsame w, hcid]
  have hload := runEffects_starts hwallet hpre hstarts sampleLoadEnv sampleLoadEnv
  rw [firstLoad_some hwallet hpre hs.hasUnlock sampleLoadEnv (by rw [htab]; exact hcid'), htab] at hload
  have hview : (h.runEffects W sampleLoadEnv sampleLoadEnv).view = h.view := by
    rw [hload]
    exact (enterEffects_view (W := W) h).1
  refine ⟨cid, onData (loadManifest W.platform w.val (h.view.loadParams W pre sampleLoadEnv) cid),
    h.runEffects W sampleLoadEnv sampleLoadEnv, ?_, ?_⟩
  · have hconnected : Home.Run W (Event.Starting W) (Home.opened accounts b)
        (Home.connected accounts w (Tab.fresh b') message) := by
      refine .tail (run_renders hc starting_renders _) ⟨.runEffects sampleLoadEnv sampleLoadEnv, trivial,
        ⟨timely_runEffects fun _ hgate => ?_, by simp⟩, heq.symm⟩
      simp [Snapshot.gate, Snapshot.isSessionGateOk, Home.renders, Snapshot.refresh, connectedSession,
        SessionState.of, sampleSession] at hgate
    exact .tail (hconnected.trans (run_renders (hs.wallet ▸ hc) starting_renders _))
      ⟨.runEffects sampleLoadEnv sampleLoadEnv, trivial,
        ⟨timely_runEffects fun _ _ => Or.inl hstarts, by simp⟩, rfl⟩
  · exact {
      effects := by
        rw [hview, hload]
        rfl
      wallet := by
        rw [hview]
        exact hwallet
      unlocked := by
        rw [hview]
        exact ⟨pre, hpre, hs.sig, hs.hasUnlock⟩
      rendered := by
        rw [hview, hload]
        dsimp only
        rw [enterEffects_renderings]
        exact List.mem_append_right _ (List.mem_singleton_self _)
      job := by
        have hcid₀ : manifestCid W.platform w h.tab.data = some cid := hcid'
        rw [hview, hload, hcid₀]
        rfl
      pointer := by
        rw [hload]
        exact (manifestCid_migrated w w _).trans ((manifestCid_migrated w w _).trans hcid')
      opens := hopen
      free := by
        rw [hload]
        exact Tab.free_fresh _
      reads := reads_loadManifest (fun _ _ => rfl) (by
        have hsig : (h.view.loadParams W pre sampleLoadEnv).signatureBytes = sampleSignature := hs.sig
        rw [hsig]
        exact hopen) }

/-- The load goes on from any page on which it is the only job, and its files are listed there. -/
theorem Loading.run_settle {load : Task AwaitPoint WalletTab JsError LoadResult}
    (hl : Loading W w m cid load h) {files : List FileItem} (hfiles : fileItems m = .ok files)
    (allowed : Home Nat (Nat × Hash) → Event Nat (Nat × Hash) → Prop)
    (hadvance : ∀ h' k load, h'.jobs = [.refresh h.view k load] →
      (∀ q, load.Within (onTab (coveredBounds W.platform w (h.view.head W))) q) →
      allowed h' (.advance 0))
    {h' : Home Nat (Nat × Hash)} (hjobs : h'.jobs = h.jobs)
    (hpointer : manifestCid W.platform w h'.tab.data = some cid)
    (hsettle : allowed { h' with jobs :=
      [.refresh h.view (h.view.refreshKey (some cid)) (.done (.ok (.loaded m cid)))] }
      (.settle 0 sampleLoadEnv)) :
    Home.Run W allowed h' { h' with
      page := ⟨files, none, false, some (h.view.refreshKey (some cid)), false⟩, jobs := [] } := by
  have hcovered : Covered W.platform w (h.view.head W) h'.tab.data := Or.inr (by rw [hpointer]; rfl)
  have hrun := run_advance_keeping (W := W) allowed (advances_refresh _ _)
    (fun tab t => Covered W.platform w (h.view.head W) tab.data ∧
      ∀ q, t.Within (onTab (coveredBounds W.platform w (h.view.head W))) q)
    (fun pt ready next tab => covered_seg)
    (fun h'' load hj hΦ => hadvance h'' (h.view.refreshKey (some cid)) load hj hΦ.2)
    (hl.reads.unblocked.runsAlone h'.tab)
    (by
      rw [hl.reads.suspended]
      exact ⟨hcovered, hl.reads.within _⟩) h'
  rw [hl.reads.suspended, hl.reads.run, ← hl.job, ← hjobs] at hrun
  refine .tail hrun ⟨.settle 0 sampleLoadEnv, trivial, hsettle, ?_⟩
  simp [Home.apply, Page.settle, loadedManifest, hfiles]

theorem timely_of_advance {i : Nat} (hstored : ¬ W.platform.IdealAead → ∀ c p ready next w,
    h.jobs[i]? = some (.append c p (.await (.load .addBytes) ready next)) →
    p.env.init.fault .addBytes = none → c.wallet = some w.val → h.OnDisplay w →
    h.page.files = [] ∨ SomeDue w (h.jobs.eraseIdx i)) : (Event.advance i).Timely W h where
  effects _ _ _ he := by cases he
  appended _ _ _ _ _ _ he := by cases he
  failed _ _ _ _ _ he := by cases he
  closed _ _ _ _ _ _ _ _ _ he := by cases he
  displayed _ _ _ _ _ _ _ _ _ he := by cases he
  stored hA _ _ _ _ _ _ he := by
    cases he
    exact hstored hA _ _ _ _ _

theorem timely_advance {c : Snapshot Nat} {refreshKey : RefreshKey}
    {load : Task AwaitPoint WalletTab JsError LoadResult}
    (hjobs : h.jobs = [.refresh c refreshKey load]) : (Event.advance 0).Timely W h := by
  refine timely_of_advance fun _ c p ready next w hjob => ?_
  rw [hjobs] at hjob
  cases hjob

/-- A load is timely that ends for the wallet on display, at its pointer. -/
theorem Loading.timely {load : Task AwaitPoint WalletTab JsError LoadResult}
    (hl : Loading W w m cid load h) {files : List FileItem} (hfiles : fileItems m = .ok files)
    (refreshKey : RefreshKey) (env : LoadEnv) : (Event.settle 0 env).Timely W
      { h with jobs := [.refresh h.view refreshKey (.done (.ok (.loaded m cid)))] } where
  effects _ _ _ he := by cases he
  appended _ _ _ _ _ _ he hjob := by
    cases he
    cases hjob
  failed _ _ _ _ _ he hjob hfails := by
    cases he
    cases hjob
    rcases hfails with ⟨e, he⟩ | ⟨result, m', e, hr, hm, hitems⟩
    · cases he
    · cases hr
      cases hm
      cases hfiles.symm.trans hitems
  closed _ _ _ _ _ _ _ _ d _ _ _ _ hd hgate := by
    obtain rfl := Option.some.inj (hl.effects.symm.trans hd)
    cases hl.gate.symm.trans hgate
  displayed _ _ _ _ _ m' cid' _ w' he hjob hgives _ hdisplay := by
    cases he
    cases hjob
    obtain rfl : w' = w := Home.OnDisplay.unique hdisplay ⟨h.view, hl.effects, hl.gate, hl.wallet⟩
    refine Or.inl ⟨hl.wallet, ?_⟩
    rcases hgives with hr | hr
    · cases hr
      exact hl.pointer
    · cases hr
  stored _ _ _ _ _ _ _ he := by cases he

theorem files_of_manifest_sample : ∃ h : Home Nat (Nat × Hash), h.Settled ∧ h.page.files ≠ [] ∧
    h.view.gate = true ∧ h.ShowsManifest (sampleDeployment symbolic) := by
  obtain ⟨b, -, hpersisted, -⟩ := load_persisted_sample
  have hm := hpersisted.designates symbolic_lawful
  obtain ⟨cid, load, h, hrun, hl⟩ := exists_loading (W := sampleDeployment symbolic)
    symbolic_lawful rfl (fun _ => none) hm
  obtain ⟨item, hfiles⟩ : ∃ item, fileItems sampleManifest = .ok [item] := ⟨_, rfl⟩
  have hend := hl.run_settle hfiles (Event.Timely _) (fun _ _ _ hjobs _ => timely_advance hjobs) rfl
    hl.pointer (hl.timely hfiles _ sampleLoadEnv)
  have hsettled : Home.Settled { h with
      page := ⟨[item], none, false, some (h.view.refreshKey (some cid)), false⟩, jobs := [] } :=
    ⟨hl.effects, fun j hj => absurd hj List.not_mem_nil⟩
  refine ⟨_, hsettled, by simp, hl.gate, ?_⟩
  exact files_of_manifest symbolic_lawful _ connected_none b
    ((hrun.mono fun _ _ he => he.1).trans hend) hsettled

/-- The session switches to `w'` while the manifest is being loaded. -/
theorem Loading.switched (hP : W.platform.Lawful)
    {load : Task AwaitPoint WalletTab JsError LoadResult} (hl : Loading W w m cid load h)
    {files : List FileItem} (hfiles : fileItems m = .ok files) (w' : WalletPubKey) : ∃ h',
    Home.Run W (fun _ _ => True) h h' ∧ h'.Settled ∧ h'.sessionManager.walletPubKey = some w'.val ∧
      h'.view.wallet = some w'.val ∧ h'.view.gate = false ∧ h'.page.files = files := by
  have hc : Connected (some w'.val) := connected_val w'
  let h₁ := h.renders (connectedSession w')
  obtain ⟨b, message, heq, hsame⟩ := runEffects_gated (W := W) (h := h₁) hP hc
    (Snapshot.prerequisites_of_locked rfl) sampleLoadEnv sampleLoadEnv
  let h₂ := h₁.runEffects W sampleLoadEnv sampleLoadEnv
  have hview : h₂.view = h₁.view ∧ h₂.sessionManager = h₁.sessionManager := by
    simp only [h₂, heq]
    exact enterEffects_view (W := W) h₁
  have hjobs : h₂.jobs = h.jobs := by
    simp only [h₂, heq]
    exact (enterEffects_data (W := W) h₁).2.1
  have heffects : h₂.effects = some h₁.view := by
    simp only [h₂, heq]
    rfl
  have hswitched : Home.Run W (fun _ _ => True) h h₂ :=
    .tail (run_renders hc (fun _ => ⟨trivial, trivial, trivial⟩) h)
      ⟨.runEffects sampleLoadEnv sampleLoadEnv, trivial, trivial, rfl⟩
  have hpointer : manifestCid W.platform w h₂.tab.data = some cid := by
    simp only [h₂, heq]
    exact (hsame w).trans hl.pointer
  have hend := hl.run_settle hfiles (fun _ _ => True) (fun _ _ _ _ _ => trivial) hjobs hpointer
    trivial
  refine ⟨_, hswitched.trans hend, ⟨?_, fun j hj => absurd hj List.not_mem_nil⟩, ?_, ?_, ?_, rfl⟩
  · exact heffects.trans (congrArg some hview.1.symm)
  · exact congrArg SessionManager.walletPubKey hview.2
  · rw [hview.1]
    simp [h₁, Home.renders, Snapshot.wallet, Snapshot.refresh, Hook.refresh, connectedSession,
      Option.filter, w'.ne]
  · rw [hview.1]
    simp [h₁, Home.renders, Snapshot.gate, Snapshot.isSessionGateOk, Snapshot.refresh, connectedSession,
      SessionState.of, sampleSession]

/-- The wallet switches while its manifest is being loaded, and the files of the first one are
listed for the other. -/
theorem switched_wallet_lists : ∃ b, Persisted symbolic sampleWallet sampleSignature b sampleManifest ∧
    ∃ h : Home Nat (Nat × Hash), Home.Run (sampleDeployment symbolic) (fun _ _ => True)
      (Home.opened (fun _ => none) b) h ∧ h.Settled ∧
      h.sessionManager.walletPubKey = some sampleOther.val ∧
      h.view.wallet = some sampleOther.val ∧ h.view.gate = false ∧
      fileItems sampleManifest = .ok h.page.files ∧ ¬ h.ShowsManifest (sampleDeployment symbolic) := by
  obtain ⟨b, -, hpersisted, -⟩ := load_persisted_sample
  have hm := hpersisted.designates symbolic_lawful
  obtain ⟨cid, load, h, hrun, hl⟩ := exists_loading (W := sampleDeployment symbolic)
    symbolic_lawful rfl (fun _ => none) hm
  obtain ⟨item, hfiles⟩ : ∃ item, fileItems sampleManifest = .ok [item] := ⟨_, rfl⟩
  obtain ⟨h', hrun', hsettled, hmanager, hwallet, hgate, hitems⟩ :=
    hl.switched symbolic_lawful hfiles sampleOther
  refine ⟨b, hpersisted, h', (hrun.mono fun _ _ _ => trivial).trans hrun', hsettled, hmanager, hwallet, hgate, ?_,
    fun hshows => ?_⟩
  · rw [hitems]
    exact hfiles
  · rw [hshows.empty (Or.inl hgate)] at hitems
    cases hitems

end Samples

end SovereignJedi.Pages
