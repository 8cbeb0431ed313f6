import SovereignJedi.Manifest.Bounded
import SovereignJedi.Pages.Home

/-! What the awaited jobs of the home page do. Each belongs to the wallet of its snapshot and
touches the pointer of that wallet only; a refresh ends with the manifest that its key stands
for. -/

namespace SovereignJedi.Pages

open SovereignJedi.Js SovereignJedi.Async SovereignJedi.Session SovereignJedi.Manifest
open SovereignJedi.Registry

variable {Pubkey Address : Type}

/-- The wallet, if there is one, is a public key. -/
def Connected (walletPubKey : Option String) : Prop :=
  ∀ v, (walletPubKey.filter fun w => w != "") = some v → ∃ w : WalletPubKey, w.val = v

/-- The session manager connects public keys only. -/
def Event.Valid : Event Pubkey Address → Prop
  | .sessionManager s => Connected s.walletPubKey
  | _ => True

/-! ### Jobs -/

/-- The load of a refresh of `w`. -/
structure RefreshJob (P : Platform) (w : WalletPubKey) (refreshKey : RefreshKey)
    (load : Task AwaitPoint WalletTab JsError LoadResult) : Prop where
  wallet : refreshKey.walletPubKey = w.val
  within : ∃ fault, ∀ q, load.Within (onTab (pointerBounds P w fault)) q
  returns : ∃ sig read, load.Returns (LoadedFrom P w sig read) ∧
    refreshKey.manifestCid = read.getD "" ∧ read ≠ some ""

/-- The append of an upload for `w`. -/
structure AppendJob (P : Platform) (w : WalletPubKey) (p : AppendParams)
    (append : Task AwaitPoint WalletTab JsError (Json × String)) : Prop where
  within : ∀ q, append.Within (onTab (pointerBounds P w (p.env.init.fault .addBytes))) q

def Job.WellFormed (P : Platform) : Job Pubkey → Prop
  | .refresh c refreshKey rest => ∃ w : WalletPubKey, c.wallet = some w.val ∧
      RefreshJob P w refreshKey rest
  | .upload c pre _ => (∃ w : WalletPubKey, c.wallet = some w.val) ∧ c.prerequisites = some pre
  | .append c p rest => (∃ w : WalletPubKey, c.wallet = some w.val ∧ AppendJob P w p rest) ∧
      c.prerequisites.isSome

section Segments

variable {P : Platform} {w : WalletPubKey} {refreshKey : RefreshKey} {p : AppendParams}
  {load : Task AwaitPoint WalletTab JsError LoadResult}
  {append : Task AwaitPoint WalletTab JsError (Json × String)} {pt : AwaitPoint}
  {ready : WalletTab → Bool}

/-- A further segment of a load. -/
theorem RefreshJob.seg (h : RefreshJob P w refreshKey (.await pt ready load)) (tab : WalletTab) :
    RefreshJob P w refreshKey (load.seg tab).2 ∧
      OthersKept P w tab.data (load.seg tab).1.data ∧ PointersKept P tab.data (load.seg tab).1.data := by
  obtain ⟨fault, hwithin⟩ := h.within
  obtain ⟨sig, read, hreturns, hread⟩ := h.returns
  obtain ⟨-, hn⟩ := Task.within_await.mp (hwithin none)
  have hcomposes := (pointerBounds_composes (P := P) (w := w) fault).onPart
    fun tab : WalletTab => tab.data
  obtain ⟨-, hupdate, hrest, -⟩ := hn.seg hcomposes (s := tab) trivial
  exact ⟨⟨h.wallet, ⟨fault, hrest⟩, ⟨sig, read, (Task.returns_await.mp hreturns).seg tab, hread⟩⟩,
    hupdate⟩

/-- A further segment of an append: unless it can only succeed from there, it keeps the pointer or
replaces it by an init. -/
theorem AppendJob.seg (h : AppendJob P w p (.await pt ready append)) (tab : WalletTab) :
    AppendJob P w p (append.seg tab).2 ∧
      (OthersKept P w tab.data (append.seg tab).1.data ∧
        PointersKept P tab.data (append.seg tab).1.data) ∧
      ((pointerBounds P w (p.env.init.fault .addBytes)).tentative (some pt) tab.data
        (append.seg tab).1.data ∨ (append.seg tab).2.Succeeds) := by
  obtain ⟨-, hn⟩ := Task.within_await.mp (h.within none)
  have hcomposes := (pointerBounds_composes (P := P) (w := w)
    (p.env.init.fault .addBytes)).onPart fun tab : WalletTab => tab.data
  obtain ⟨-, hupdate, hrest, htentative⟩ := hn.seg hcomposes (s := tab) trivial
  exact ⟨⟨hrest⟩, hupdate, htentative⟩

/-- A covered call stays within its bounds over a further segment. -/
theorem covered_seg {α : Type} {head : Option String} {pt : AwaitPoint} {ready : WalletTab → Bool}
    {next : Task AwaitPoint WalletTab JsError α} {tab : WalletTab}
    (h : Covered P w head tab.data ∧
      ∀ q, (Task.await pt ready next).Within (onTab (coveredBounds P w head)) q) :
    Covered P w head (next.seg tab).1.data ∧
      ∀ q, (next.seg tab).2.Within (onTab (coveredBounds P w head)) q := by
  have hcomposes := (admits_coveredBounds (P := P) (w := w) head).composes.onPart
    fun tab : WalletTab => tab.data
  obtain ⟨hinv, -, hrest, -⟩ := (Task.within_await.mp (h.2 none)).2.seg hcomposes (s := tab) h.1
  exact ⟨hinv, hrest⟩

end Segments

/-! ### Calls of the service -/

section Calls

variable [DecidableEq Pubkey] [DecidableEq Address] {W : Deployment Pubkey Address}
  {w : WalletPubKey} {c : Snapshot Pubkey} {pre : Prerequisites}

omit [DecidableEq Pubkey] [DecidableEq Address]

theorem Snapshot.hook_of_wallet {v : String} (h : c.wallet = some v) : c.hook.walletPubKey = some v :=
  (Option.filter_eq_some_iff.mp h).1

theorem Snapshot.wallet_unique {w' : WalletPubKey} (hw : c.wallet = some w.val)
    (hw' : c.wallet = some w'.val) : w = w' :=
  WalletPubKey.val_injective (Option.some.inj (hw.symm.trans hw'))

theorem Snapshot.prerequisites_eq_some (h : c.prerequisites = some pre) :
    c.wallet = some pre.walletPubKey ∧ c.session.lastVaultRootSignatureBytes = some pre.vaultRootSig ∧
      c.session.lastUnlock = some pre.unlock ∧ c.isSessionGateOk = true := by
  unfold prerequisites at h
  split at h
  · rename_i walletPubKey vaultRootSig unlock hwallet hsig hunlock
    split at h
    · rename_i hgate
      obtain rfl := Option.some.inj h
      exact ⟨hwallet, hsig, hunlock, hgate⟩
    · cases h
  · cases h

theorem Snapshot.prerequisites_of_locked (h : c.session.isVaultUnlocked = false) :
    c.prerequisites = none := by
  cases hpre : c.prerequisites with
  | none => rfl
  | some pre =>
    have hgate := (c.prerequisites_eq_some hpre).2.2.2
    simp [isSessionGateOk, h] at hgate

theorem trim_prerequisites (hwallet : c.wallet = some w.val) (hpre : c.prerequisites = some pre) :
    Js.trim pre.walletPubKey = w.val := by
  have hpre' : pre.walletPubKey = w.val :=
    Option.some.inj ((c.prerequisites_eq_some hpre).1.symm.trans hwallet)
  rw [hpre', w.trim_val]

theorem safeGetManifestCid_wallet (w : WalletPubKey) (b : Browser) :
    safeGetManifestCid W (some w.val) b = (b.migrated W.platform w, manifestCid W.platform w b) := by
  rw [safeGetManifestCid, getManifestCid_val]
  rfl

/-- Reading the pointer changes none. -/
theorem manifestCid_safeGet (hc : Connected c.hook.walletPubKey) (b : Browser) (w' : WalletPubKey) :
    manifestCid W.platform w' (safeGetManifestCid W c.wallet b).1 = manifestCid W.platform w' b := by
  cases hwallet : c.wallet with
  | none => rfl
  | some v =>
    obtain ⟨w, rfl⟩ := hc v hwallet
    rw [safeGetManifestCid_wallet, manifestCid_migrated]

/-- A load of `w` that was started at `tab` and is now at `tab'`, with `rest` left. -/
structure Started (W : Deployment Pubkey Address) (w : WalletPubKey) (c : Snapshot Pubkey)
    (tab tab' : WalletTab) (rest : Task AwaitPoint WalletTab JsError LoadResult) : Prop where
  call : ∃ pre env b, c.prerequisites = some pre ∧ SamePointers W.platform tab.data b ∧
    (onData (loadManifestOrInit W.platform (c.loadParams W pre env))).seg (tab.setData b) = (tab', rest)
  job : RefreshJob W.platform w (c.refreshKey (manifestCid W.platform w tab.data)) rest
  others : OthersKept W.platform w tab.data tab'.data
  kept : PointersKept W.platform tab.data tab'.data
  covered : Covered W.platform w (c.head W) tab.data →
    ∀ q, rest.Within (onTab (coveredBounds W.platform w (c.head W))) q

theorem started_load (hP : W.platform.Lawful) (hwallet : c.wallet = some w.val)
    (hpre : c.prerequisites = some pre) (env : LoadEnv) (tab : WalletTab) :
    Started W w c tab ((onData (loadManifestOrInit W.platform (c.loadParams W pre env))).seg tab).1
      ((onData (loadManifestOrInit W.platform (c.loadParams W pre env))).seg tab).2 := by
  have hw : Js.trim (c.loadParams W pre env).walletPubKey = w.val := trim_prerequisites hwallet hpre
  have hbounds := load_within_pointerBounds (p := c.loadParams W pre env) hP hw none
  have hcomposes := (pointerBounds_composes (P := W.platform) (w := w)
    ((c.loadParams W pre env).env.fault .addBytes)).onPart fun tab : WalletTab => tab.data
  obtain ⟨-, ⟨hothers, hkept⟩, hrest, -⟩ := hbounds.seg hcomposes (s := tab) trivial
  refine ⟨⟨pre, env, tab.data, hpre, fun _ => rfl, rfl⟩,
    ⟨?_, ⟨_, hrest⟩, pre.vaultRootSig, manifestCid W.platform w tab.data, ?_, rfl,
      manifestCid_ne_empty _ _⟩, hothers, hkept, fun hcovered => ?_⟩
  · rw [Snapshot.refreshKey, Snapshot.hook_of_wallet hwallet]
    rfl
  · rw [seg_onData]
    exact (returns_seg_loadManifestOrInit hP hw tab.data).zoom _ _
  · have hload := load_within_coveredBounds (p := c.loadParams W pre env) hP hw none
    exact (hload.seg ((admits_coveredBounds _).composes.onPart _) (s := tab) hcovered).2.2.1

/-- An append of `w` that was called at `tab` and is now at `tab'`, with `rest` left. -/
structure Appended (W : Deployment Pubkey Address) (w : WalletPubKey) (c : Snapshot Pubkey)
    (p : AppendParams) (tab tab' : WalletTab)
    (rest : Task AwaitPoint WalletTab JsError (Json × String)) : Prop where
  wallet : Js.trim p.walletPubKey = w.val
  call : (appendEntryAndPersist W.platform p).seg tab = (tab', rest)
  job : AppendJob W.platform w p rest
  others : OthersKept W.platform w tab.data tab'.data
  kept : PointersKept W.platform tab.data tab'.data
  tentative : manifestCid W.platform w tab'.data = manifestCid W.platform w tab.data ∨ rest.Succeeds
  covered : Covered W.platform w (c.head W) tab.data →
    ∀ q, rest.Within (onTab (coveredBounds W.platform w (c.head W))) q

theorem appended (hP : W.platform.Lawful) (hwallet : c.wallet = some w.val)
    (hpre : c.prerequisites = some pre) (file : Files.File) (u : Uploaded) (env : AppendEnv)
    (tab : WalletTab) : Appended W w c (c.appendParams W pre file u env) tab
      ((appendEntryAndPersist W.platform (c.appendParams W pre file u env)).seg tab).1
      ((appendEntryAndPersist W.platform (c.appendParams W pre file u env)).seg tab).2 := by
  have hw : Js.trim (c.appendParams W pre file u env).walletPubKey = w.val :=
    trim_prerequisites hwallet hpre
  have hbounds := append_within_pointerBounds (p := c.appendParams W pre file u env) hP hw none
  have hcomposes := (pointerBounds_composes (P := W.platform) (w := w)
    ((c.appendParams W pre file u env).env.init.fault .addBytes)).onPart fun tab : WalletTab => tab.data
  obtain ⟨-, ⟨hothers, hkept⟩, hrest, htentative⟩ := hbounds.seg hcomposes (s := tab) trivial
  refine ⟨hw, rfl, ⟨hrest⟩, hothers, hkept, ?_, fun hcovered => ?_⟩
  · refine htentative.imp_left fun h => ?_
    rcases h with h | ⟨h, -⟩
    · exact h
    · cases h
  · have happend := append_within_coveredBounds (p := c.appendParams W pre file u env) hP hw none
    exact (happend.seg ((admits_coveredBounds _).composes.onPart _) (s := tab) hcovered).2.2.1

end Calls

/-! ### Refreshes -/

section Refreshes

variable {W : Deployment Pubkey Address}
  {w : WalletPubKey} {c : Snapshot Pubkey} {h : Home Pubkey Address} {reason : String}

theorem Started.of_same {tab tab' : WalletTab} {b : Browser}
    {rest : Task AwaitPoint WalletTab JsError LoadResult}
    (h : Started W w c (tab.setData b) tab' rest) (hsame : SamePointers W.platform tab.data b) :
    Started W w c tab tab' rest where
  call := by
    obtain ⟨pre, env, b', hpre, hsame', hseg⟩ := h.call
    exact ⟨pre, env, b', hpre, hsame.trans hsame', hseg⟩
  job := by
    rw [← hsame w]
    exact h.job
  others w' hw' := (h.others w' hw').trans (hsame w')
  kept w' hw' := h.kept w' (PointersKept.of_eq hsame w' hw')
  covered hcovered := h.covered (hcovered.mono (PointersKept.of_eq hsame))

/-- `refreshFromManifest` comes to its `loadManifestOrInit`. -/
def Home.Starts (W : Deployment Pubkey Address) (h : Home Pubkey Address) (c : Snapshot Pubkey)
    (reason : String) : Prop :=
  c.prerequisites.isSome ∧ h.page.refreshInFlight = false ∧
    ¬ (h.page.lastRefreshKey =
      some (c.refreshKey (safeGetManifestCid W c.wallet h.tab.data).2) ∧ reason ≠ "manual")

/-- What a `refreshFromManifest` does to the tab, the page and the jobs. -/
inductive Refreshes (W : Deployment Pubkey Address) (h : Home Pubkey Address) (c : Snapshot Pubkey)
    (reason : String) : WalletTab → Page → List (Job Pubkey) → Prop
  | gated {b : Browser} (hpre : c.prerequisites = none)
      (hsame : SamePointers W.platform h.tab.data b) : Refreshes W h c reason (h.tab.setData b)
        { h.page with files := [], manifestErrorMessage := c.missingMessage, reported := false }
        h.jobs
  | dropped {b : Browser} (hpre : c.prerequisites.isSome) (hstarts : ¬ h.Starts W c reason)
      (hsame : SamePointers W.platform h.tab.data b) :
      Refreshes W h c reason (h.tab.setData b) h.page h.jobs
  | started {w : WalletPubKey} {tab : WalletTab} {rest : Task AwaitPoint WalletTab JsError LoadResult}
      (hstarts : h.Starts W c reason) (hwallet : c.wallet = some w.val)
      (hload : Started W w c h.tab tab rest) : Refreshes W h c reason tab
        { h.page with refreshInFlight := true }
        (h.jobs ++ [.refresh c (c.refreshKey (manifestCid W.platform w h.tab.data)) rest])

theorem Connected.wallet (hc : Connected c.hook.walletPubKey) (hpre : c.prerequisites.isSome) :
    ∃ w : WalletPubKey, c.wallet = some w.val := by
  obtain ⟨pre, hpre⟩ := Option.isSome_iff_exists.mp hpre
  have hwallet := (c.prerequisites_eq_some hpre).1
  obtain ⟨w, hw⟩ := hc _ hwallet
  exact ⟨w, hw ▸ hwallet⟩

theorem refreshes_refreshFromManifest (hP : W.platform.Lawful) (hc : Connected c.hook.walletPubKey)
    (h : Home Pubkey Address) (reason : String) (env : LoadEnv) : ∃ tab page jobs,
      h.refreshFromManifest W c reason env = { h with tab, page, jobs } ∧
        Refreshes W h c reason tab page jobs := by
  have hsame : SamePointers W.platform h.tab.data (safeGetManifestCid W c.wallet h.tab.data).1 :=
    manifestCid_safeGet hc _
  rw [Home.refreshFromManifest, Home.startRefresh]
  cases hpre : c.prerequisites with
  | none => exact ⟨_, _, _, rfl, .gated hpre hsame⟩
  | some pre =>
    have hsome : c.prerequisites.isSome := by rw [hpre]; rfl
    by_cases hflight : h.page.refreshInFlight = true
    · refine ⟨_, _, _, if_pos hflight, .dropped hsome (fun hstarts => ?_) hsame⟩
      cases hflight.symm.trans hstarts.2.1
    · simp only [if_neg hflight]
      split
      · rename_i hkey
        exact ⟨_, _, _, rfl, .dropped hsome (fun hstarts => hstarts.2.2 hkey) hsame⟩
      · rename_i hkey
        obtain ⟨w, hwallet⟩ := hc.wallet hsome
        have hstarts : h.Starts W c reason := ⟨hsome, Bool.eq_false_iff.mpr hflight, hkey⟩
        have hload : Started W w c h.tab _ _ := Started.of_same (started_load hP hwallet hpre env
          (h.tab.setData (safeGetManifestCid W c.wallet h.tab.data).1)) hsame
        refine ⟨_, _, _, ?_, .started hstarts hwallet hload⟩
        rw [hwallet, safeGetManifestCid_wallet]

/-- The load that a refresh of `w` starts, after its first segment. -/
def Home.firstLoad (W : Deployment Pubkey Address) (h : Home Pubkey Address) (c : Snapshot Pubkey)
    (w : WalletPubKey) (pre : Prerequisites) (env : LoadEnv) :
    WalletTab × Task AwaitPoint WalletTab JsError LoadResult :=
  (onData (loadManifestOrInit W.platform (c.loadParams W pre env))).seg
    (h.tab.setData (h.tab.data.migrated W.platform w))

theorem refreshFromManifest_starts {pre : Prerequisites} (hwallet : c.wallet = some w.val)
    (hpre : c.prerequisites = some pre) (hstarts : h.Starts W c reason) (env : LoadEnv) :
    h.refreshFromManifest W c reason env = { h with
      tab := (h.firstLoad W c w pre env).1
      page := { h.page with refreshInFlight := true }
      jobs := h.jobs ++ [.refresh c (c.refreshKey (manifestCid W.platform w h.tab.data))
        (h.firstLoad W c w pre env).2] } := by
  obtain ⟨-, hflight, hkey⟩ := hstarts
  rw [hwallet, safeGetManifestCid_wallet] at hkey
  simp only [Home.refreshFromManifest, Home.startRefresh, hwallet, safeGetManifestCid_wallet, hpre,
    hflight, if_neg hkey]
  rfl

/-- Nothing but the effect of a wallet's change differs from the rendering. -/
theorem enterEffects_data (h : Home Pubkey Address) : (h.enterEffects W).tab = h.tab ∧
    (h.enterEffects W).jobs = h.jobs ∧ (h.enterEffects W).accounts = h.accounts := by
  rw [Home.enterEffects, Home.dedupReset, Home.fetchRegistry]
  split
  · exact ⟨rfl, rfl, rfl⟩
  · exact ⟨rfl, rfl, rfl⟩

theorem enterEffects_view (h : Home Pubkey Address) : (h.enterEffects W).view = h.view ∧
    (h.enterEffects W).sessionManager = h.sessionManager := by
  rw [Home.enterEffects, Home.dedupReset, Home.fetchRegistry]
  split
  · exact ⟨rfl, rfl⟩
  · exact ⟨rfl, rfl⟩

theorem enterEffects_renderings (h : Home Pubkey Address) :
    (h.enterEffects W).renderings = h.renderings := by
  rw [Home.enterEffects, Home.dedupReset, Home.fetchRegistry]
  split <;> rfl

theorem enterEffects_page (hdebug : W.debug = false) (h : Home Pubkey Address) :
    (h.enterEffects W).page = h.page := by
  rw [Home.enterEffects, Home.dedupReset, Home.fetchRegistry]
  split <;> simp [hdebug]

/-- The second refresh of the effects never comes to a load. -/
theorem refreshes_runEffects (hP : W.platform.Lawful) (hc : Connected h.view.hook.walletPubKey)
    (env env' : LoadEnv) : ∃ tab page jobs,
      h.runEffects W env env' = { h.enterEffects W with tab, page, jobs } ∧
        Refreshes W (h.enterEffects W) h.view "effect" tab page jobs := by
  obtain ⟨tab, page, jobs, heq, hfirst⟩ :=
    refreshes_refreshFromManifest hP hc (h.enterEffects W) "effect" env
  rw [Home.runEffects, heq]
  dsimp only
  split
  · rename_i hready
    obtain ⟨tab', page', jobs', heq', hsecond⟩ := refreshes_refreshFromManifest hP hc
      { h.enterEffects W with tab, page, jobs } "post-unlock-auto" env'
    rw [heq']
    refine ⟨tab', page', jobs', rfl, ?_⟩
    cases hfirst with
    | gated hpre hsame =>
      cases hsecond with
      | gated _ hsame' => exact .gated hpre (hsame.trans hsame')
      | dropped hpre' => simp [hpre] at hpre'
      | started hstarts' => simp [Home.Starts, hpre] at hstarts'
    | @dropped b hpre hstarts hsame =>
      have hagain : ¬ Home.Starts W { h.enterEffects W with tab := (h.enterEffects W).tab.setData b }
          h.view "post-unlock-auto" := by
        obtain ⟨w, hwallet⟩ := hc.wallet hpre
        simpa [Home.Starts, hwallet, safeGetManifestCid_wallet, hsame w] using hstarts
      cases hsecond with
      | gated hpre' => simp [hpre'] at hpre
      | dropped _ _ hsame' => exact .dropped hpre hstarts (hsame.trans hsame')
      | started hstarts' => exact absurd hstarts' hagain
    | started => simp at hready
  · exact ⟨tab, page, jobs, rfl, hfirst⟩

/-- The effects come to a load when no load is in flight and none has ended. -/
theorem starts_of_idle (hpre : h.view.prerequisites.isSome) (hdebug : W.debug = false)
    (hflight : h.page.refreshInFlight = false) (hkey : h.page.lastRefreshKey = none) :
    (h.enterEffects W).Starts W h.view "effect" := by
  simp [Home.Starts, hpre, enterEffects_page hdebug, hflight, hkey]

/-- Until the prerequisites are there, the effects clear the list and request the registry. -/
theorem runEffects_gated (hP : W.platform.Lawful) (hc : Connected h.view.hook.walletPubKey)
    (hpre : h.view.prerequisites = none) (env env' : LoadEnv) : ∃ b message,
      h.runEffects W env env' = { h.enterEffects W with
        tab := h.tab.setData b
        page := { (h.enterEffects W).page with
          files := [], manifestErrorMessage := message, reported := false } } ∧
      SamePointers W.platform h.tab.data b := by
  obtain ⟨tab, page, jobs, heq, hrefreshes⟩ := refreshes_runEffects hP hc env env'
  rw [heq]
  cases hrefreshes with
  | gated _ hsame =>
    rw [(enterEffects_data (W := W) h).1] at hsame ⊢
    exact ⟨_, _, rfl, hsame⟩
  | dropped hpre' => simp [hpre] at hpre'
  | started hstarts => simp [Home.Starts, hpre] at hstarts

theorem runEffects_starts {pre : Prerequisites} (hwallet : h.view.wallet = some w.val)
    (hpre : h.view.prerequisites = some pre) (hstarts : (h.enterEffects W).Starts W h.view "effect")
    (env env' : LoadEnv) : h.runEffects W env env' = { h.enterEffects W with
      tab := ((h.enterEffects W).firstLoad W h.view w pre env).1
      page := { (h.enterEffects W).page with refreshInFlight := true }
      jobs := h.jobs ++ [.refresh h.view (h.view.refreshKey (manifestCid W.platform w h.tab.data))
        ((h.enterEffects W).firstLoad W h.view w pre env).2] } := by
  obtain ⟨htab, hjobs, -⟩ := enterEffects_data (W := W) h
  rw [Home.runEffects, refreshFromManifest_starts hwallet hpre hstarts, htab, hjobs]
  exact if_neg fun hready => by simp at hready

end Refreshes

end SovereignJedi.Pages
