import SovereignJedi.Pages.Operations

/-! The home page with `SJ_DEBUG` and without it. The flag writes to the console, and two effects
exist under it which forget the key of the last load when the wallet is gone or the vault has been
unlocked. -/

namespace SovereignJedi.Pages

open SovereignJedi.Js SovereignJedi.Crypto SovereignJedi.Async SovereignJedi.Session
open SovereignJedi.Manifest SovereignJedi.Registry
open SovereignJedi.Files (File UploadEnv)

variable {Pubkey Address : Type}

/-! ### With the flag and without -/

def Deployment.withDebug (W : Deployment Pubkey Address) (debug : Bool) : Deployment Pubkey Address :=
  { W with debug }

/-- The pages show the same, with the same session, the same storage and the same uploads. -/
structure SameOutputs (h h' : Home Pubkey Address) : Prop where
  files : h.page.files = h'.page.files
  manifestErrorMessage : h.page.manifestErrorMessage = h'.page.manifestErrorMessage
  sessionManager : h.sessionManager = h'.sessionManager
  state : h.state = h'.state
  localStorage : h.tab.data.localStorage = h'.tab.data.localStorage
  uploads : h.tab.data.uploads = h'.tab.data.uploads

section Twins

variable [DecidableEq Pubkey] [DecidableEq Address] (W : Deployment Pubkey Address) (D : Dates)
  (C : TextCodecs)

/-- The refresh that an input asks for: the page and the snapshot with which it is made. -/
def Home.asks (h : Home Pubkey Address) :
    Input Pubkey Address → Option (Home Pubkey Address × Snapshot Pubkey)
  | .runEffects _ _ => some (h.enterEffects W, h.view)
  | .handleFile rendering file upload append _ =>
    let r := h.appendFile W D C rendering file upload append
    r.2.map fun c => (r.1, c)
  | _ => none

/-- The key of a refresh. -/
def Home.keyOf (h : Home Pubkey Address) (c : Snapshot Pubkey) : RefreshKey :=
  c.refreshKey (safeGetManifestCid W c.wallet h.tab.data).2

/-- The page `h` drops the refresh that `e` asks for, since its key is the one of the last load, and
`h'` has forgotten that key. -/
def Forgotten (h h' : Home Pubkey Address) (e : Input Pubkey Address) : Prop :=
  ∃ g c g' c', h.asks (W.withDebug false) D C e = some (g, c) ∧
    h'.asks (W.withDebug true) D C e = some (g', c') ∧ c.prerequisites.isSome ∧
    g.page.lastRefreshKey = some (g.keyOf W c) ∧ g'.page.lastRefreshKey ≠ some (g.keyOf W c)

end Twins

/-! ### The key of the last load -/

/-- The page with another key of the last load. -/
def Home.withKey (h : Home Pubkey Address) (key : Option RefreshKey) : Home Pubkey Address :=
  { h with page := { h.page with lastRefreshKey := key } }

@[simp] theorem withKey_self (h : Home Pubkey Address) : h.withKey h.page.lastRefreshKey = h := rfl

/-- A load records its key or leaves the key as it was. -/
theorem settle_key (refreshKey : RefreshKey) (r : Result LoadResult) (page : Page)
    (key : Option RefreshKey) :
    (page.settle refreshKey r).lastRefreshKey = some refreshKey ∧
        Page.settle refreshKey r { page with lastRefreshKey := key } = page.settle refreshKey r ∨
      (page.settle refreshKey r).lastRefreshKey = page.lastRefreshKey ∧
        Page.settle refreshKey r { page with lastRefreshKey := key } =
          { page.settle refreshKey r with lastRefreshKey := key } := by
  unfold Page.settle
  split
  · exact .inr ⟨rfl, rfl⟩
  · split
    · exact .inr ⟨rfl, rfl⟩
    · split
      · exact .inr ⟨rfl, rfl⟩
      · exact .inl ⟨rfl, rfl⟩

/-- The pages differ at most in the key of the last load, which the second one may have forgotten. -/
def Agree (h h' : Home Pubkey Address) : Prop :=
  ∃ key, h' = h.withKey key ∧ (key = none ∨ key = h.page.lastRefreshKey)

theorem Agree.refl (h : Home Pubkey Address) : Agree h h := ⟨_, rfl, .inr rfl⟩

theorem Agree.sameOutputs {h h' : Home Pubkey Address} (hagree : Agree h h') : SameOutputs h h' := by
  obtain ⟨key, rfl, -⟩ := hagree
  exact ⟨rfl, rfl, rfl, rfl, rfl, rfl⟩

theorem Agree.idle {h h' : Home Pubkey Address} (hagree : Agree h h') (hh : h.Idle) : h'.Idle := by
  obtain ⟨key, rfl, -⟩ := hagree
  exact ⟨hh.jobs, hh.refreshInFlight, hh.free⟩

theorem Agree.finishLoad {h h' : Home Pubkey Address} (hagree : Agree h h') :
    Agree h.finishLoad h'.finishLoad := by
  obtain ⟨key, rfl, hkey⟩ := hagree
  unfold Home.finishLoad
  have hjobs : (h.withKey key).jobs = h.jobs := rfl
  rw [hjobs]
  split
  · rename_i c refreshKey load _
    rcases settle_key refreshKey (load.run h.tab).2 h.page key with ⟨-, h2⟩ | ⟨h1, h2⟩
    · refine ⟨_, ?_, .inr rfl⟩
      rw [withKey_self]
      exact congrArg (fun page => { h with tab := (load.run h.tab).1, page, jobs := [] }) h2
    · refine ⟨key, ?_, ?_⟩
      · exact congrArg (fun page => { h with tab := (load.run h.tab).1, page, jobs := [] }) h2
      · rw [h1]
        exact hkey
  · exact ⟨key, rfl, hkey⟩

section Refreshing

variable {W W' : Deployment Pubkey Address} {h h' : Home Pubkey Address} {c : Snapshot Pubkey}

theorem safeGetManifestCid_withDebug (debug : Bool) (walletPubKey : Option String) (b : Browser) :
    safeGetManifestCid (W.withDebug debug) walletPubKey b = safeGetManifestCid W walletPubKey b := by
  have hplatform : (W.withDebug debug).platform = W.platform := rfl
  simp only [safeGetManifestCid, hplatform]

theorem keyOf_withDebug (debug : Bool) (h : Home Pubkey Address) (c : Snapshot Pubkey) :
    h.keyOf (W.withDebug debug) c = h.keyOf W c := by
  rw [Home.keyOf, Home.keyOf, safeGetManifestCid_withDebug]

/-- The refresh of a page that has forgotten the key, unless the other page drops it for this key. -/
theorem Agree.refreshFromManifest (hagree : Agree h h') (reason : String) (env : LoadEnv)
    (hkept : c.prerequisites.isSome → h.page.lastRefreshKey = some (h.keyOf W c) →
      h'.page.lastRefreshKey = some (h.keyOf W c)) :
    Agree (h.refreshFromManifest (W.withDebug false) c reason env)
      (h'.refreshFromManifest (W.withDebug true) c reason env) := by
  obtain ⟨key, rfl, hkey⟩ := hagree
  have htab : (h.withKey key).tab = h.tab := rfl
  simp only [Home.refreshFromManifest, Home.startRefresh, safeGetManifestCid_withDebug, htab]
  rw [← Home.keyOf]
  split
  · exact ⟨key, rfl, hkey⟩
  · rename_i pre hpre
    have hsome : c.prerequisites.isSome := by rw [hpre]; rfl
    have hflight : (h.withKey key).page.refreshInFlight = h.page.refreshInFlight := rfl
    rw [hflight]
    split
    · exact ⟨key, rfl, hkey⟩
    · have hiff : key = some (h.keyOf W c) ↔ h.page.lastRefreshKey = some (h.keyOf W c) := by
        refine ⟨fun h1 => ?_, hkept hsome⟩
        rcases hkey with rfl | rfl
        · cases h1
        · exact h1
      have hcond : ((h.withKey key).page.lastRefreshKey = some (h.keyOf W c) ∧ reason ≠ "manual") ↔
          (h.page.lastRefreshKey = some (h.keyOf W c) ∧ reason ≠ "manual") :=
        and_congr_left fun _ => hiff
      by_cases hdrop : h.page.lastRefreshKey = some (h.keyOf W c) ∧ reason ≠ "manual"
      · rw [if_pos hdrop, if_pos (hcond.mpr hdrop)]
        exact ⟨key, rfl, hkey⟩
      · rw [if_neg hdrop, if_neg (hcond.not.mpr hdrop)]
        exact ⟨key, rfl, hkey⟩

/-- Reading the pointer again reads the same. -/
theorem safeGetManifestCid_again (walletPubKey : Option String) (b : Browser) :
    safeGetManifestCid W walletPubKey (safeGetManifestCid W walletPubKey b).1 =
      safeGetManifestCid W walletPubKey b := by
  cases walletPubKey with
  | none => rfl
  | some w =>
    cases hpk : canonicalizeWalletPubKey w with
    | error e => simp only [safeGetManifestCid, getManifestCid, hpk, error_bind]
    | ok pk =>
      cases hkey : buildManifestStorageKey W.platform.cluster pk with
      | error e => simp only [safeGetManifestCid, getManifestCid, hpk, hkey, ok_bind, error_bind]
      | ok key =>
        simp only [safeGetManifestCid, getManifestCid, hpk, hkey, ok_bind, result_pure,
          migrate_migrate]

/-- A refresh that ends without a load leaves the key, and what would be the key of the next one. -/
theorem Home.Idle.refreshFromManifest_key (hh : h.Idle) {reason : String} {env : LoadEnv}
    (hsome : c.prerequisites.isSome)
    (hends : (h.refreshFromManifest W c reason env).page.refreshInFlight = false) :
    (h.page.lastRefreshKey = some (h.keyOf W c) ∧ reason ≠ "manual") ∧
      (h.refreshFromManifest W c reason env).page = h.page ∧
      (h.refreshFromManifest W c reason env).keyOf W c = h.keyOf W c := by
  obtain ⟨pre, hpre⟩ := Option.isSome_iff_exists.mp hsome
  simp only [Home.refreshFromManifest, Home.startRefresh, hpre, hh.refreshInFlight] at hends ⊢
  by_cases hdrop : h.page.lastRefreshKey = some (h.keyOf W c) ∧ reason ≠ "manual"
  · refine ⟨hdrop, ?_⟩
    rw [Home.keyOf] at hdrop
    rw [if_neg Bool.false_ne_true, if_pos hdrop]
    exact ⟨rfl, congrArg (fun read : Browser × Option String => c.refreshKey read.2)
      (safeGetManifestCid_again (W := W) c.wallet h.tab.data)⟩
  · rw [Home.keyOf] at hdrop
    rw [if_neg Bool.false_ne_true, if_neg hdrop] at hends
    cases hends

end Refreshing

/-! ### What an input does to both pages -/

section Performs

variable {W : Deployment Pubkey Address} {h h' : Home Pubkey Address}

/-- The effects that exist under the flag forget the key or do nothing. -/
theorem dedupReset_withKey (hflight : h.page.refreshInFlight = false) :
    ∃ key, h.dedupReset W = h.withKey key ∧ (key = none ∨ key = h.page.lastRefreshKey) := by
  refine ⟨(h.dedupReset W).page.lastRefreshKey, ?_, ?_⟩
  · simp only [Home.dedupReset, Home.withKey, hflight, ite_self]
  · simp only [Home.dedupReset]
    split
    · exact .inl rfl
    · exact .inr rfl

/-- Before the first refresh the flag makes a difference to the key only. -/
theorem Agree.enterEffects (hagree : Agree h h') (hh : h.Idle) :
    Agree (h.enterEffects (W.withDebug false)) (h'.enterEffects (W.withDebug true)) := by
  obtain ⟨key, rfl, hkey⟩ := hagree
  have hfetch : (h.withKey key).fetchRegistry = h.fetchRegistry.withKey key := by
    rw [Home.fetchRegistry, Home.fetchRegistry]
    have heffects : (h.withKey key).effects = h.effects := rfl
    have hview : (h.withKey key).view = h.view := rfl
    rw [heffects, hview]
    split <;> rfl
  have hpage : h.fetchRegistry.page = h.page := by
    rw [Home.fetchRegistry]
    split <;> rfl
  obtain ⟨key', hreset, hkey'⟩ := dedupReset_withKey (W := W.withDebug true)
    (h := h.fetchRegistry.withKey key) (by rw [← hh.refreshInFlight, ← hpage]; rfl)
  have hoff : h.enterEffects (W.withDebug false) = { h.fetchRegistry with effects := some h.view } := by
    simp [Home.enterEffects, Home.dedupReset, Deployment.withDebug]
  rw [hoff, Home.enterEffects, hfetch, hreset]
  refine ⟨key', rfl, ?_⟩
  rcases hkey' with rfl | rfl
  · exact .inl rfl
  · exact hpage ▸ hkey

theorem Agree.runEffects (hagree : Agree h h') (hh : h.Idle) (env env' : LoadEnv)
    (hkept : h.view.prerequisites.isSome →
      (h.enterEffects (W.withDebug false)).page.lastRefreshKey =
        some ((h.enterEffects (W.withDebug false)).keyOf W h.view) →
      (h'.enterEffects (W.withDebug true)).page.lastRefreshKey =
        some ((h.enterEffects (W.withDebug false)).keyOf W h.view)) :
    Agree (h.runEffects (W.withDebug false) env env')
      (h'.runEffects (W.withDebug true) env env') := by
  have hview : h'.view = h.view := by
    obtain ⟨key, rfl, -⟩ := hagree
    rfl
  have hentered : (h.enterEffects (W.withDebug false)).Idle := hh.enterEffects
  have hfirst := (hagree.enterEffects (W := W) hh).refreshFromManifest "effect" env hkept
  obtain ⟨hloads, hidle⟩ := hentered.refreshFromManifest (W := W.withDebug false) h.view "effect" env
  have hflight : ((h'.enterEffects (W.withDebug true)).refreshFromManifest (W.withDebug true) h.view
      "effect" env).page.refreshInFlight = ((h.enterEffects (W.withDebug false)).refreshFromManifest
        (W.withDebug false) h.view "effect" env).page.refreshInFlight := by
    obtain ⟨key, heq, -⟩ := hfirst
    rw [heq]
    rfl
  simp only [Home.runEffects, hview, hflight]
  split
  · rename_i hready
    have hends : ((h.enterEffects (W.withDebug false)).refreshFromManifest (W.withDebug false) h.view
      "effect" env).page.refreshInFlight = false := by simpa using hready.2.2.2
    have hentered' : (h'.enterEffects (W.withDebug true)).Idle := (hagree.idle hh).enterEffects
    refine hfirst.refreshFromManifest "post-unlock-auto" env' fun hsome _ => ?_
    obtain ⟨⟨hlast, -⟩, -, hagain⟩ := hentered.refreshFromManifest_key hsome hends
    rw [keyOf_withDebug] at hlast
    rw [keyOf_withDebug, keyOf_withDebug] at hagain
    obtain ⟨-, hpage, -⟩ := hentered'.refreshFromManifest_key hsome (hflight.trans hends)
    rw [hpage, hagain]
    exact hkept hsome hlast
  · exact hfirst

section Inputs

variable {D : Dates} {C : TextCodecs}

/-- The flag plays no part in an append. -/
theorem appendFile_withDebug (debug : Bool) (h : Home Pubkey Address) :
    h.appendFile (W.withDebug debug) D C = h.appendFile W D C := by
  have hplatform : (W.withDebug debug).platform = W.platform := rfl
  have hparams : ∀ c : Snapshot Pubkey, c.appendParams (W.withDebug debug) = c.appendParams W :=
    fun _ => rfl
  funext rendering file upload append
  simp only [Home.appendFile, Pages.appendFile, hplatform, hparams]

theorem appendFile_withKey (h : Home Pubkey Address) (key : Option RefreshKey) (rendering : Nat)
    (file : File) (upload : UploadEnv) (append : AppendEnv) :
    (h.withKey key).appendFile W D C rendering file upload append =
      ((h.appendFile W D C rendering file upload append).1.withKey key,
        (h.appendFile W D C rendering file upload append).2) := by
  have hrenderings : (h.withKey key).renderings = h.renderings := rfl
  simp only [Home.appendFile, hrenderings]
  cases h.renderings[rendering]? <;> rfl

variable [DecidableEq Pubkey] [DecidableEq Address]

/-- The pages agree after an input whose refresh, if any, is not dropped for a forgotten key. -/
theorem Agree.perform (hagree : Agree h h') (hh : h.Idle) {e : Input Pubkey Address}
    (hkept : ¬ Forgotten W D C h h' e) :
    Agree (h.perform (W.withDebug false) D C e) (h'.perform (W.withDebug true) D C e) := by
  have hkeyed := hagree
  obtain ⟨key, rfl, hkey⟩ := hagree
  cases e with
  | instruction ix => exact ⟨key, rfl, hkey⟩
  | storage key value => exact ⟨_, rfl, hkey⟩
  | session c => exact ⟨key, rfl, hkey⟩
  | refresh now => exact ⟨key, rfl, hkey⟩
  | render => exact ⟨key, rfl, hkey⟩
  | runEffects env env' =>
    refine (hkeyed.runEffects hh env env' fun hsome hlast => ?_).finishLoad
    by_contra hne
    exact hkept ⟨_, _, _, _, rfl, rfl, hsome, hlast, hne⟩
  | fail i message => exact ⟨key, rfl, hkey⟩
  | respond i => exact ⟨key, rfl, hkey⟩
  | deliver i =>
    simp only [Home.perform, Home.apply]
    have hrequests : (h.withKey key).requests = h.requests := rfl
    rw [hrequests]
    split
    · exact ⟨key, rfl, hkey⟩
    · exact ⟨key, rfl, hkey⟩
  | handleFile rendering file upload append load =>
    obtain ⟨tab, hframe, hfree⟩ :=
      appendFile_frame (W := W) (D := D) (C := C) h rendering file upload append
    have hidle : (h.appendFile W D C rendering file upload append).1.Idle := by
      rw [hframe]
      exact ⟨hh.jobs, hh.refreshInFlight, hfree hh.free⟩
    have hlast : (h.appendFile W D C rendering file upload append).1.page.lastRefreshKey =
        h.page.lastRefreshKey := by
      rw [hframe]
    simp only [Forgotten, Home.asks, appendFile_withDebug, appendFile_withKey] at hkept
    simp only [Home.perform, appendFile_withDebug, appendFile_withKey]
    generalize h.appendFile W D C rendering file upload append = r at hidle hlast hkept
    obtain ⟨g, c⟩ := r
    cases c with
    | none => exact ⟨key, rfl, hlast ▸ hkey⟩
    | some c =>
      have hagree : Agree g (g.withKey key) := ⟨key, rfl, hlast ▸ hkey⟩
      refine (hagree.refreshFromManifest "post-append" load fun hsome hkey => ?_).finishLoad
      by_contra hne
      exact hkept ⟨g, c, g.withKey key, c, rfl, rfl, hsome, hkey, hne⟩

/-- The pages agree after every input of a run whose refreshes are not dropped for a forgotten key. -/
theorem Agree.performAll (hagree : Agree h h') (hh : h.Idle) {inputs : List (Input Pubkey Address)}
    (hkept : ∀ before e, before ++ [e] <+: inputs → ¬ Forgotten W D C
      (h.performAll (W.withDebug false) D C before) (h'.performAll (W.withDebug true) D C before) e) :
    ∀ before, before <+: inputs →
      (h.performAll (W.withDebug false) D C before).Idle ∧
        Agree (h.performAll (W.withDebug false) D C before)
          (h'.performAll (W.withDebug true) D C before) := by
  intro before
  induction before using List.reverseRecOn with
  | nil => exact fun _ => ⟨hh, hagree⟩
  | append_singleton before e ih =>
    intro hstart
    obtain ⟨hidle, hbefore⟩ := ih ((List.prefix_append before [e]).trans hstart)
    rw [performAll_concat, performAll_concat]
    exact ⟨hidle.perform e, hbefore.perform hidle (hkept before e hstart)⟩

/-- After every input of a run the page shows the same with the flag and without it, with the same
session, storage and uploads, if no refresh is dropped without the flag for a key that is forgotten
with it. -/
theorem debug_inert (accounts : Accounts Pubkey Address) (s : SessionManager) (b : Browser)
    {inputs : List (Input Pubkey Address)}
    (hkept : ∀ before e, before ++ [e] <+: inputs → ¬ Forgotten W D C
      ((Home.init accounts s b).performAll (W.withDebug false) D C before)
      ((Home.init accounts s b).performAll (W.withDebug true) D C before) e) :
    ∀ before, before <+: inputs →
      SameOutputs ((Home.init accounts s b).performAll (W.withDebug false) D C before)
        ((Home.init accounts s b).performAll (W.withDebug true) D C before) := by
  intro before hstart
  have hidle : (Home.init accounts s b).Idle := ⟨rfl, rfl, Tab.free_fresh b⟩
  exact ((Agree.refl _).performAll hidle hkept before hstart).2.sameOutputs

end Inputs

end Performs

/-! ### Samples -/

section Samples

variable (debug : Bool)

noncomputable def sampleDebug : Deployment Nat (Nat × Hash) :=
  (sampleDeployment symbolic).withDebug debug

/-- The session manager does something, and the page renders the session then. -/
def showInputs (c : SessionCall) : List (Input Nat (Nat × Hash)) :=
  [.session c, .refresh 0, .render, .runEffects sampleLoadEnv sampleLoadEnv]

/-- The session after a call and the `refresh` that follows. -/
noncomputable def sessionAfter (c : SessionCall) (h : Home Nat (Nat × Hash)) : SessionManager :=
  (getVerified symbolic 0 ((c.body symbolic sampleDates).run
    { h.sessionManager with localStorage := h.tab.data.localStorage }).1).1

/-- The page when it has rendered that session. -/
noncomputable def Home.showing (h : Home Nat (Nat × Hash)) (s : SessionManager) :
    Home Nat (Nat × Hash) :=
  { h.renders s with tab := h.tab.setData { h.tab.data with localStorage := s.localStorage } }

theorem performAll_showInputs (c : SessionCall) (h : Home Nat (Nat × Hash)) :
    h.performAll (sampleDebug debug) sampleDates sampleCodecs (showInputs c) =
      ((h.showing (sessionAfter c h)).runEffects (sampleDebug debug) sampleLoadEnv
        sampleLoadEnv).finishLoad := by
  rfl

/-- The page of the sample wallet, whose pointer is `cid`, between two things that happen. -/
structure Between (cid : String) (h : Home Nat (Nat × Hash)) : Prop where
  idle : h.Idle
  effects : h.effects = some h.view
  pointer : manifestCid symbolic sampleWallet h.tab.data = some cid
  wallet : h.sessionManager.walletPubKey = some sampleWallet.val
  writable : CanWrite h.sessionManager

/-- What a call and the `refresh` that follows leave of the session and its storage. -/
structure Leaves (h : Home Nat (Nat × Hash)) (s : SessionManager) : Prop where
  wallet : s.walletPubKey = some sampleWallet.val
  records : ∀ k, ¬ IsRecord k → s.localStorage k = h.tab.data.localStorage k
  writable : CanWrite s

variable {debug} {h : Home Nat (Nat × Hash)} {s : SessionManager} {cid : String}

theorem Leaves.pointer (hs : Leaves h s)
    (hcid : manifestCid symbolic sampleWallet h.tab.data = some cid) :
    manifestCid symbolic sampleWallet (h.showing s).tab.data = some cid :=
  (equalPointers_of_records hs.records sampleWallet).trans hcid

theorem Leaves.entered_pointer (debug : Bool) (hs : Leaves h s)
    (hcid : manifestCid symbolic sampleWallet h.tab.data = some cid) :
    manifestCid (sampleDebug debug).platform sampleWallet
      ((h.showing s).enterEffects (sampleDebug debug)).tab.data = some cid := by
  rw [(enterEffects_data (W := sampleDebug debug) (h.showing s)).1]
  exact hs.pointer hcid

theorem showing_idle (hh : h.Idle) : (h.showing s).Idle := ⟨hh.jobs, hh.refreshInFlight, hh.free⟩

/-- What the effects do while the gate is closed. -/
structure Gated (debug : Bool) (cid : String) (h h' : Home Nat (Nat × Hash)) : Prop where
  idle : h'.Idle
  effects : h'.effects = some h'.view
  view : h'.view = h.view
  sessionManager : h'.sessionManager = h.sessionManager
  pointer : manifestCid symbolic sampleWallet h'.tab.data = some cid
  files : h'.page.files = []
  lastRefreshKey : debug = false → h'.page.lastRefreshKey = h.page.lastRefreshKey

variable (debug) in
theorem gated_runEffects (hh : h.Idle) (hc : Connected h.view.hook.walletPubKey)
    (hpre : h.view.prerequisites = none)
    (hcid : manifestCid symbolic sampleWallet h.tab.data = some cid) :
    Gated debug cid h
      (h.runEffects (sampleDebug debug) sampleLoadEnv sampleLoadEnv).finishLoad := by
  obtain ⟨b, message, heq, hsame⟩ :=
    runEffects_gated (W := sampleDebug debug) symbolic_lawful hc hpre sampleLoadEnv sampleLoadEnv
  have hentered : (h.enterEffects (sampleDebug debug)).Idle := hh.enterEffects
  have hends := (hh.runEffects (W := sampleDebug debug) sampleLoadEnv sampleLoadEnv).finishLoad
  obtain ⟨hviews, hmanager⟩ := enterEffects_view (W := sampleDebug debug) h
  rw [heq, finishLoad_idle (by exact hentered.jobs)] at hends ⊢
  refine ⟨hends, congrArg some hviews.symm, hviews, hmanager, (hsame sampleWallet).trans hcid, rfl,
    fun hdebug => ?_⟩
  have hkey := congrArg Page.lastRefreshKey (enterEffects_page (W := sampleDebug debug) hdebug h)
  exact hkey

/-- The page shows a session whose vault is locked. -/
theorem showing_locked (hh : h.Idle) (hs : Leaves h s) (hlocked : s.vaultUnlocked = false)
    (hcid : manifestCid symbolic sampleWallet h.tab.data = some cid) {h' : Home Nat (Nat × Hash)}
    (heq : ((h.showing s).runEffects (sampleDebug debug) sampleLoadEnv
      sampleLoadEnv).finishLoad = h') :
    Between cid h' ∧ h'.page.files = [] ∧ h'.view.session.isVaultUnlocked = false ∧
      (debug = false → h'.page.lastRefreshKey = h.page.lastRefreshKey) := by
  have hview : (h.showing s).view.hook.walletPubKey = some sampleWallet.val := hs.wallet
  have hidle := showing_idle (s := s) hh
  have hgated := gated_runEffects debug hidle (hview ▸ connected_val sampleWallet)
    (Snapshot.prerequisites_of_locked (c := (h.showing s).view) hlocked) (hs.pointer hcid)
  rw [heq] at hgated
  refine ⟨⟨hgated.idle, hgated.effects, hgated.pointer, ?_, ?_⟩, hgated.files, ?_,
    hgated.lastRefreshKey⟩
  · exact (congrArg SessionManager.walletPubKey hgated.sessionManager).trans hs.wallet
  · exact hgated.sessionManager.symm ▸ hs.writable
  · exact (congrArg (fun v : Snapshot Nat => v.session.isVaultUnlocked) hgated.view).trans hlocked

theorem leaves_getVerified {s : SessionManager} (hwallet : s.walletPubKey = some sampleWallet.val)
    (hrecords : ∀ k, ¬ IsRecord k → s.localStorage k = h.tab.data.localStorage k) :
    Leaves h (getVerified symbolic 0 s).1 where
  wallet := hwallet
  records k hk := (loadVerified_records symbolic 0 s.localStorage k hk).trans (hrecords k hk)
  writable _ hv := writable_loaded symbolic_lawful hv

theorem leaves_connect (h : Home Nat (Nat × Hash)) :
    Leaves h (sessionAfter (.connectWallet (.text sampleWallet.val) none 0) h) ∧
      (sessionAfter (.connectWallet (.text sampleWallet.val) none 0) h).vaultUnlocked = false := by
  refine ⟨leaves_getVerified ?_ ?_, ?_⟩
  · exact (connectWallet_walletPubKey ..).trans (normalized_text sampleWallet.ne)
  · exact fun k hk => connectWallet_records symbolic 0 (.text sampleWallet.val) none
      { h.sessionManager with localStorage := h.tab.data.localStorage } k hk
  · obtain ⟨v, storage, heq⟩ := connectWallet_eq symbolic 0 (.text sampleWallet.val) none
      { h.sessionManager with localStorage := h.tab.data.localStorage }
    have hlocked : (connectWallet symbolic 0 (.text sampleWallet.val) none
        { h.sessionManager with localStorage := h.tab.data.localStorage }).vaultUnlocked = false := by
      rw [heq]
      split <;> rfl
    exact hlocked

theorem leaves_lock (hh : Between cid h) : Leaves h (sessionAfter .lockVault h) ∧
    (sessionAfter .lockVault h).vaultUnlocked = false :=
  ⟨leaves_getVerified hh.wallet fun _ _ => rfl, rfl⟩

/-- The wallet of the sample unlocks its vault, with a signature that is always the same. -/
def unlocks : SessionCall := .unlockVault (some sampleWallet.val) (sampleEnv fun _ => sampleSignature)

/-- The key of a refresh of the unlocked vault. -/
noncomputable def unlockedKey (cid : String) : RefreshKey where
  walletPubKey := sampleWallet.val
  manifestCid := cid
  messageToSign := match (sampleEnv fun _ => sampleSignature).buildVaultRoot symbolic
      (some sampleWallet.val) with
    | .ok vaultRoot => vaultRoot.messageToSign
    | .error _ => ""
  gateOk := true

theorem showing_wallet (hwallet : s.walletPubKey = some sampleWallet.val) :
    (h.showing s).view.wallet = some sampleWallet.val := by
  have hhook : (h.showing s).view.hook.walletPubKey = some sampleWallet.val := hwallet
  simp [Snapshot.wallet, hhook, Option.filter, sampleWallet.ne]

/-- What the rendering of an unlocked session is good for. -/
theorem showing_unlocked (hwallet : s.walletPubKey = some sampleWallet.val)
    (hunlocked : s.vaultUnlocked = true) {v : VerifiedState} (hverified : s.verified = some v)
    {sig : Bytes} (hsig : s.lastVaultRootSignatureBytes = some sig) {unlock : BuildUnlockResult}
    (hunlock : s.lastUnlock = some unlock) :
    (h.showing s).view.isSessionGateOk = true ∧
      (h.showing s).view.prerequisites = some ⟨sampleWallet.val, sig, unlock⟩ := by
  have hfilter := showing_wallet (h := h) hwallet
  have hgate : (h.showing s).view.isSessionGateOk = true := by
    have hsession : (h.showing s).view.session = .of s := rfl
    simp [Snapshot.isSessionGateOk, hfilter, hsession, SessionState.of, hunlocked, hverified]
  refine ⟨hgate, ?_⟩
  have hsig' : (h.showing s).view.session.lastVaultRootSignatureBytes = some sig := hsig
  have hunlock' : (h.showing s).view.session.lastUnlock = some unlock := hunlock
  simp [Snapshot.prerequisites, hfilter, hsig', hunlock', hgate]

/-- The session that has been unlocked, with its record read again. -/
structure Reread (unlock : BuildUnlockResult) (vaultRoot : BuildVaultRootResult) (sig : Bytes)
    (s : SessionManager) : Prop where
  vaultUnlocked : s.vaultUnlocked = true
  verified : ∃ v, s.verified = some v
  lastUnlock : s.lastUnlock = some unlock
  lastVaultRoot : s.lastVaultRoot = some vaultRoot
  lastVaultRootSignatureBytes : s.lastVaultRootSignatureBytes = some sig

theorem reread_unlocked {P : Platform} (hP : P.Lawful) (now : Int) (env : UnlockEnv)
    {s : SessionManager} (h : CanWrite s) (hwritable : env.storageWritable = true)
    (hlt : now < env.verifiedAt + 24 * 60 * 60 * 1000) (unlock : BuildUnlockResult) (b b' : Bytes)
    (vaultRoot : BuildVaultRootResult) :
    Reread unlock vaultRoot b' (getVerified P now (unlocked P env s unlock b vaultRoot b')).1 where
  vaultUnlocked := rfl
  verified := ⟨_, load_saved_self (s := { s with
    lastUnlock := some unlock
    lastUnlockSignatureBytes := some b
    lastVaultRoot := some vaultRoot
    lastVaultRootSignatureBytes := some b' }) hP h hwritable hlt s.localStorage⟩
  lastUnlock := rfl
  lastVaultRoot := rfl
  lastVaultRootSignatureBytes := rfl

theorem sessionAfter_unlocks (hh : Between cid h) : Leaves h (sessionAfter unlocks h) ∧
    ∃ unlock vaultRoot, hasUnlock (unlockValue unlock) = true ∧
      (sampleEnv fun _ => sampleSignature).buildVaultRoot symbolic (some sampleWallet.val) =
        .ok vaultRoot ∧
      Reread unlock vaultRoot sampleSignature (sessionAfter unlocks h) := by
  obtain ⟨unlock, vaultRoot, hhas, hbuilt, hrun⟩ := run_sampleUnlock_ok sampleWallet sampleSignature
    (s := { h.sessionManager with localStorage := h.tab.data.localStorage }) hh.wallet
  have hwritable : CanWrite { h.sessionManager with localStorage := h.tab.data.localStorage } :=
    hh.writable
  rw [sessionAfter, unlocks, SessionCall.body, hrun]
  exact ⟨leaves_getVerified hh.wallet (update_record isRecord_verified _ _), unlock, vaultRoot, hhas,
    hbuilt, reread_unlocked symbolic_lawful 0 _ hwritable rfl (by decide) ..⟩

theorem leaves_unlock (hh : Between cid h) : Leaves h (sessionAfter unlocks h) ∧
    (sessionAfter unlocks h).vaultUnlocked = true ∧ ∃ pre, pre.vaultRootSig = sampleSignature ∧
      hasUnlock (unlockValue pre.unlock) = true ∧
      (h.showing (sessionAfter unlocks h)).view.prerequisites = some pre ∧
      (h.showing (sessionAfter unlocks h)).view.refreshKey (some cid) = unlockedKey cid := by
  obtain ⟨hleaves, unlock, vaultRoot, hhas, hbuilt, hs⟩ := sessionAfter_unlocks hh
  generalize sessionAfter unlocks h = s at *
  obtain ⟨v, hverified⟩ := hs.verified
  obtain ⟨hgate, hpre⟩ := showing_unlocked (h := h) hleaves.wallet hs.vaultUnlocked hverified
    hs.lastVaultRootSignatureBytes hs.lastUnlock
  refine ⟨hleaves, hs.vaultUnlocked, ⟨sampleWallet.val, sampleSignature, unlock⟩, rfl, hhas, hpre, ?_⟩
  have hwallet : (h.showing s).view.hook.walletPubKey = some sampleWallet.val := hleaves.wallet
  have hroot : (h.showing s).view.session.lastVaultRoot = some vaultRoot := hs.lastVaultRoot
  simp only [Snapshot.refreshKey, unlockedKey, hbuilt, hgate, hwallet, hroot]
  rfl

theorem run_firstLoad {W : Deployment Nat (Nat × Hash)} (hP : W.platform.Lawful) {w : WalletPubKey}
    {c : Snapshot Nat} (hwallet : c.wallet = some w.val) {pre : Prerequisites}
    (hpre : c.prerequisites = some pre) (hhas : hasUnlock (unlockValue pre.unlock) = true)
    {g : Home Nat (Nat × Hash)} (hpointer : manifestCid W.platform w g.tab.data = some cid) {m : Json}
    (hopen : openManifest W.platform w.val pre.vaultRootSig (W.platform.content cid) = .ok m) :
    ∃ tab, (g.firstLoad W c w pre sampleLoadEnv).2.run (g.firstLoad W c w pre sampleLoadEnv).1 =
      (tab, .ok (.loaded m cid)) ∧ manifestCid W.platform w tab.data = some cid ∧
      (g.tab.Free → tab.Free) := by
  have hw : Js.trim (c.loadParams W pre sampleLoadEnv).walletPubKey = w.val :=
    trim_prerequisites hwallet hpre
  obtain ⟨key, hfetch⟩ := fetchManifest_of_open sampleLoadEnv.fault
    ("Impossible de charger le manifest : JSON invalide (CID=" ++ cid ++ ")") rfl rfl rfl hopen
  have hread : manifestCid W.platform w (g.tab.data.migrated W.platform w) = some cid := by
    rw [manifestCid_migrated, hpointer]
  have hout : loadOutcome W.platform w (c.loadParams W pre sampleLoadEnv)
      (g.tab.data.migrated W.platform w) =
        ((g.tab.data.migrated W.platform w).migrated W.platform w, .ok (.loaded m cid)) := by
    simp only [loadOutcome, hread]
    exact congrArg (fun r : Result (Bytes × Json) => (_, r.map fun r => LoadResult.loaded r.2 cid)) hfetch
  rw [Home.firstLoad, Task.run_seg, run_onData, Tab.setData_data, run_loadManifestOrInit hP hw hhas,
    hout]
  exact ⟨_, rfl, (manifestCid_migrated w w _).trans hread, fun hfree => hfree⟩

/-- The page shows the session of the unlocked vault, and loads the manifest unless its key is known. -/
theorem showing_loads (hh : Between cid h)
    (hopen : openManifest symbolic sampleWallet.val sampleSignature (symbolic.content cid) =
      .ok sampleManifest) {files : List FileItem} (hfiles : fileItems sampleManifest = .ok files)
    (hkey : ((h.showing (sessionAfter unlocks h)).enterEffects (sampleDebug debug)).page.lastRefreshKey ≠
      some (unlockedKey cid)) {h' : Home Nat (Nat × Hash)}
    (heq : ((h.showing (sessionAfter unlocks h)).runEffects (sampleDebug debug) sampleLoadEnv
      sampleLoadEnv).finishLoad = h') :
    Between cid h' ∧ h'.page.files = files ∧ h'.page.lastRefreshKey = some (unlockedKey cid) := by
  obtain ⟨hs, -, pre, hsig, hhas, hpre, hkeyOf⟩ := leaves_unlock hh
  generalize sessionAfter unlocks h = s at *
  have hidle := showing_idle (s := s) hh.idle
  have hentered : ((h.showing s).enterEffects (sampleDebug debug)).Idle := hidle.enterEffects
  have hpointer := hs.entered_pointer debug hh.pointer
  have hwallet := showing_wallet (h := h) hs.wallet
  have hstarts : ((h.showing s).enterEffects (sampleDebug debug)).Starts (sampleDebug debug)
      (h.showing s).view "effect" := by
    refine ⟨by rw [hpre]; rfl, hentered.refreshInFlight, fun hdup => hkey ?_⟩
    rw [hwallet, safeGetManifestCid_wallet, hpointer, hkeyOf] at hdup
    exact hdup.1
  obtain ⟨tab, hrun, hcid, hfree⟩ := run_firstLoad (W := sampleDebug debug) symbolic_lawful hwallet hpre
    hhas hpointer (hsig ▸ hopen)
  have hload := runEffects_starts hwallet hpre hstarts sampleLoadEnv sampleLoadEnv
  rw [(enterEffects_data (W := sampleDebug debug) (h.showing s)).1] at hpointer
  rw [hpointer, hkeyOf, show (h.showing s).jobs = [] from hidle.jobs] at hload
  obtain ⟨hviews, hmanager⟩ := enterEffects_view (W := sampleDebug debug) (h.showing s)
  have hend : h' = { (h.showing s).enterEffects (sampleDebug debug) with
      tab, page := ⟨files, none, false, some (unlockedKey cid), false⟩, jobs := [] } := by
    rw [← heq, hload, Home.finishLoad]
    dsimp only [List.nil_append]
    rw [hrun]
    simp [Page.settle, loadedManifest, hfiles]
  rw [hend]
  refine ⟨⟨⟨rfl, rfl, hfree hentered.free⟩, congrArg some hviews.symm, hcid, ?_, ?_⟩, rfl, rfl⟩
  · exact (congrArg SessionManager.walletPubKey hmanager).trans hs.wallet
  · exact hmanager.symm ▸ hs.writable

/-- The page shows the session of the unlocked vault, and drops the refresh for its key. -/
theorem showing_drops (debug : Bool) (hh : Between cid h)
    (hkey : ((h.showing (sessionAfter unlocks h)).enterEffects (sampleDebug debug)).page.lastRefreshKey =
      some (unlockedKey cid)) :
    ((h.showing (sessionAfter unlocks h)).runEffects (sampleDebug debug) sampleLoadEnv
      sampleLoadEnv).finishLoad.page =
        ((h.showing (sessionAfter unlocks h)).enterEffects (sampleDebug debug)).page := by
  obtain ⟨hs, -, pre, -, -, hpre, hkeyOf⟩ := leaves_unlock hh
  generalize sessionAfter unlocks h = s at *
  have hview : (h.showing s).view.hook.walletPubKey = some sampleWallet.val := hs.wallet
  have hpointer := hs.entered_pointer debug hh.pointer
  obtain ⟨tab, page, jobs, heq, hrefreshes⟩ := refreshes_runEffects (W := sampleDebug debug)
    symbolic_lawful (hview ▸ connected_val sampleWallet) sampleLoadEnv sampleLoadEnv
  cases hrefreshes with
  | gated hnone => cases hnone.symm.trans hpre
  | dropped hsome hstarts hsame =>
    rw [heq, finishLoad_idle]
    exact (enterEffects_data (W := sampleDebug debug) (h.showing s)).2.1.trans hh.idle.jobs
  | started hstarts hwallet hload =>
    refine absurd ⟨?_, by decide⟩ hstarts.2.2
    rw [showing_wallet hs.wallet, safeGetManifestCid_wallet, hpointer, hkeyOf]
    exact hkey

/-- The flag's effects forget the key when the vault has been unlocked. -/
theorem showing_forgets (heffects : h.effects = some h.view)
    (hlocked : h.view.session.isVaultUnlocked = false) (hunlocked : s.vaultUnlocked = true) :
    ((h.showing s).enterEffects (sampleDebug true)).page.lastRefreshKey = none := by
  have hview : (h.showing s).fetchRegistry.view = (h.showing s).view := by
    rw [Home.fetchRegistry]
    split <;> rfl
  have hbefore : (h.showing s).fetchRegistry.effects = some h.view := by
    rw [Home.fetchRegistry]
    split <;> exact heffects
  have hafter : (h.showing s).view.session.isVaultUnlocked = true := hunlocked
  have hdebug : (sampleDebug true).debug = true := rfl
  simp [Home.enterEffects, Home.dedupReset, hview, hbefore, hlocked, hafter, hdebug]

theorem showing_page : (h.showing s).page = h.page := rfl

theorem showing_keeps : ((h.showing s).enterEffects (sampleDebug false)).page.lastRefreshKey =
    h.page.lastRefreshKey := by
  rw [enterEffects_page (W := sampleDebug false) rfl]
  rfl

/-- The first unlock finds no key, with the flag or without. -/
theorem showing_first (hh : Between cid h) (hlocked : h.view.session.isVaultUnlocked = false)
    (hkey : debug = false → h.page.lastRefreshKey = none) :
    ((h.showing (sessionAfter unlocks h)).enterEffects (sampleDebug debug)).page.lastRefreshKey ≠
      some (unlockedKey cid) := by
  cases debug with
  | true =>
    rw [showing_forgets hh.effects hlocked (leaves_unlock hh).2.1]
    simp
  | false =>
    rw [showing_keeps, hkey rfl]
    simp

/-- The page is opened with the wallet disconnected. -/
def openInputs : List (Input Nat (Nat × Hash)) := [.runEffects sampleLoadEnv sampleLoadEnv]

/-- The wallet connects. -/
def connectInputs : List (Input Nat (Nat × Hash)) :=
  openInputs ++ showInputs (.connectWallet (.text sampleWallet.val) none 0)

/-- It unlocks its vault, and locks it. -/
def lockInputs : List (Input Nat (Nat × Hash)) :=
  connectInputs ++ showInputs unlocks ++ showInputs .lockVault

variable {b : Browser} {inputs : List (Input Nat (Nat × Hash))} {files : List FileItem}

/-- The page after these inputs, opened on the storage `b`. -/
noncomputable def sampleRun (debug : Bool) (b : Browser) (inputs : List (Input Nat (Nat × Hash))) :
    Home Nat (Nat × Hash) :=
  (Home.opened (fun _ => none) b).performAll (sampleDebug debug) sampleDates sampleCodecs inputs

theorem sampleRun_append (b : Browser) (inputs : List (Input Nat (Nat × Hash))) (c : SessionCall) :
    sampleRun debug b (inputs ++ showInputs c) =
      (((sampleRun debug b inputs).showing (sessionAfter c (sampleRun debug b inputs))).runEffects
        (sampleDebug debug) sampleLoadEnv sampleLoadEnv).finishLoad := by
  rw [sampleRun, Home.performAll, List.foldl_append]
  exact performAll_showInputs ..

theorem sampleRun_open (debug : Bool) (hcid : manifestCid symbolic sampleWallet b = some cid) :
    Gated debug cid (Home.opened (fun _ => none) b) (sampleRun debug b openInputs) := by
  exact gated_runEffects debug ⟨rfl, rfl, Tab.free_fresh b⟩ connected_none rfl hcid

theorem sampleRun_connect (debug : Bool) (hcid : manifestCid symbolic sampleWallet b = some cid) :
    Between cid (sampleRun debug b connectInputs) ∧
      (sampleRun debug b connectInputs).view.session.isVaultUnlocked = false ∧
      (debug = false → (sampleRun debug b connectInputs).page.lastRefreshKey = none) := by
  have hopened := sampleRun_open debug hcid
  unfold connectInputs
  obtain ⟨hs, hlocked⟩ := leaves_connect (sampleRun debug b openInputs)
  obtain ⟨hh, -, hview, hkey⟩ := showing_locked hopened.idle hs hlocked hopened.pointer
    (sampleRun_append b openInputs _).symm
  exact ⟨hh, hview, fun hdebug => (hkey hdebug).trans (hopened.lastRefreshKey hdebug)⟩

/-- The first unlock lists the manifest. -/
theorem sampleRun_unlock (debug : Bool) (hcid : manifestCid symbolic sampleWallet b = some cid)
    (hopen : openManifest symbolic sampleWallet.val sampleSignature (symbolic.content cid) =
      .ok sampleManifest) (hfiles : fileItems sampleManifest = .ok files) :
    Between cid (sampleRun debug b (connectInputs ++ showInputs unlocks)) ∧
      (sampleRun debug b (connectInputs ++ showInputs unlocks)).page.files = files ∧
      (sampleRun debug b (connectInputs ++ showInputs unlocks)).page.lastRefreshKey =
        some (unlockedKey cid) := by
  obtain ⟨hh, hlocked, hkey⟩ := sampleRun_connect debug hcid
  exact showing_loads hh hopen hfiles (showing_first hh hlocked hkey) (sampleRun_append ..).symm

theorem sampleRun_lock (debug : Bool) (hcid : manifestCid symbolic sampleWallet b = some cid)
    (hopen : openManifest symbolic sampleWallet.val sampleSignature (symbolic.content cid) =
      .ok sampleManifest) (hfiles : fileItems sampleManifest = .ok files) :
    Between cid (sampleRun debug b lockInputs) ∧
      (sampleRun debug b lockInputs).page.files = [] ∧
      (sampleRun debug b lockInputs).view.session.isVaultUnlocked = false ∧
      (debug = false → (sampleRun debug b lockInputs).page.lastRefreshKey = some (unlockedKey cid)) := by
  unfold lockInputs
  obtain ⟨hh, -, hkey⟩ := sampleRun_unlock debug hcid hopen hfiles
  obtain ⟨hs, hlocked⟩ := leaves_lock hh
  obtain ⟨hh', hempty, hview, hkept⟩ := showing_locked hh.idle hs hlocked hh.pointer
    (sampleRun_append b (connectInputs ++ showInputs unlocks) _).symm
  exact ⟨hh', hempty, hview, fun hdebug => (hkept hdebug).trans hkey⟩

/-- No refresh of these inputs is dropped for a key that is forgotten with the flag. -/
def Kept (b : Browser) (inputs : List (Input Nat (Nat × Hash))) : Prop :=
  ∀ before e, before ++ [e] <+: inputs → ¬ Forgotten (sampleDeployment symbolic) sampleDates sampleCodecs
    (sampleRun false b before) (sampleRun true b before) e

theorem Kept.concat (hkept : Kept b inputs) {e : Input Nat (Nat × Hash)}
    (he : ¬ Forgotten (sampleDeployment symbolic) sampleDates sampleCodecs (sampleRun false b inputs)
      (sampleRun true b inputs) e) : Kept b (inputs ++ [e]) := by
  intro before e' hstart
  rcases List.prefix_concat_iff.mp hstart with heq | hstart
  · obtain ⟨rfl, hlast⟩ := List.append_inj' heq rfl
    obtain rfl := List.singleton_inj.mp hlast
    exact he
  · exact hkept before e' hstart

/-- As long as no load has ended, no key is known. -/
theorem not_forgotten_of_keyless {h h' : Home Nat (Nat × Hash)} (hkey : h.page.lastRefreshKey = none)
    (env env' : LoadEnv) : ¬ Forgotten (sampleDeployment symbolic) sampleDates sampleCodecs h h'
      (.runEffects env env') := by
  rintro ⟨g, c, g', c', hasks, -, -, hlast, -⟩
  obtain ⟨rfl, rfl⟩ := Prod.mk.inj (Option.some.inj hasks)
  rw [enterEffects_page (W := (sampleDeployment symbolic).withDebug false) rfl, hkey] at hlast
  cases hlast

theorem Kept.showInputs (hkept : Kept b inputs)
    (hkey : (sampleRun false b inputs).page.lastRefreshKey = none) (c : SessionCall) :
    Kept b (inputs ++ Pages.showInputs c) := by
  have hquiet : ∀ {h h' : Home Nat (Nat × Hash)} {e : Input Nat (Nat × Hash)},
      h.asks (sampleDebug false) sampleDates sampleCodecs e = none →
      ¬ Forgotten (sampleDeployment symbolic) sampleDates sampleCodecs h h' e := by
    rintro h h' e hnone ⟨g, c, g', c', hasks, -⟩
    cases hnone.symm.trans hasks
  have hshown : inputs ++ Pages.showInputs c = inputs ++ [.session c] ++ [.refresh 0] ++ [.render] ++
      [.runEffects sampleLoadEnv sampleLoadEnv] := by
    simp [Pages.showInputs]
  rw [hshown]
  refine (((hkept.concat (hquiet rfl)).concat (hquiet rfl)).concat (hquiet rfl)).concat
    (not_forgotten_of_keyless ?_ _ _)
  have hpage : (sampleRun false b (inputs ++ [.session c] ++ [.refresh 0] ++ [.render])).page =
      (sampleRun false b inputs).page := by
    simp only [sampleRun, performAll_concat]
    rfl
  rw [hpage, hkey]

theorem kept_unlock (hcid : manifestCid symbolic sampleWallet b = some cid) :
    Kept b (connectInputs ++ showInputs unlocks) := by
  have hnil : Kept b [] := by
    intro before e hstart
    simp at hstart
  have hopened : Kept b openInputs := hnil.concat (not_forgotten_of_keyless rfl _ _)
  have hkey := (sampleRun_open false hcid).lastRefreshKey rfl
  exact (hopened.showInputs hkey _).showInputs ((sampleRun_connect false hcid).2.2 rfl) _

theorem debug_inert_sample : ∃ b, Persisted symbolic sampleWallet sampleSignature b sampleManifest ∧
    fileItems sampleManifest = .ok (sampleRun true b (connectInputs ++ showInputs unlocks)).page.files ∧
    SameOutputs (sampleRun false b (connectInputs ++ showInputs unlocks))
      (sampleRun true b (connectInputs ++ showInputs unlocks)) := by
  obtain ⟨b, -, hpersisted, -⟩ := load_persisted_sample
  obtain ⟨cid, hcid, hopen⟩ := hpersisted.designates symbolic_lawful
  obtain ⟨item, hfiles⟩ : ∃ item, fileItems sampleManifest = .ok [item] := ⟨_, rfl⟩
  obtain ⟨-, hlisted, -⟩ := sampleRun_unlock true hcid hopen hfiles
  exact ⟨b, hpersisted, hlisted ▸ hfiles,
    debug_inert (W := sampleDeployment symbolic) (D := sampleDates) (C := sampleCodecs) _ _ b
      (kept_unlock hcid) _ (List.prefix_refl _)⟩

/-- The vault is unlocked again with its pointer unchanged: the file is listed with the flag, and
nothing without it. -/
theorem relock_shows_differently : ∃ b,
    Persisted symbolic sampleWallet sampleSignature b sampleManifest ∧
    (sampleRun false b (lockInputs ++ showInputs unlocks)).page.files = [] ∧
    fileItems sampleManifest = .ok (sampleRun true b (lockInputs ++ showInputs unlocks)).page.files ∧
    ¬ SameOutputs (sampleRun false b (lockInputs ++ showInputs unlocks))
      (sampleRun true b (lockInputs ++ showInputs unlocks)) := by
  obtain ⟨b, -, hpersisted, -⟩ := load_persisted_sample
  obtain ⟨cid, hcid, hopen⟩ := hpersisted.designates symbolic_lawful
  obtain ⟨item, hfiles⟩ : ∃ item, fileItems sampleManifest = .ok [item] := ⟨_, rfl⟩
  obtain ⟨hh, hempty, -, hkey⟩ := sampleRun_lock false hcid hopen hfiles
  obtain ⟨hh', -, hlocked, -⟩ := sampleRun_lock true hcid hopen hfiles
  have hdrops := showing_drops false hh (showing_keeps.trans (hkey rfl))
  have hnothing : (sampleRun false b (lockInputs ++ showInputs unlocks)).page.files = [] := by
    rw [sampleRun_append, hdrops, enterEffects_page (W := sampleDebug false) rfl, showing_page, hempty]
  obtain ⟨-, hlisted, -⟩ := showing_loads hh' hopen hfiles
    (showing_first hh' hlocked fun h => by cases h) (sampleRun_append b lockInputs _).symm
  refine ⟨b, hpersisted, hnothing, hlisted ▸ hfiles, fun hsame => ?_⟩
  have hfalse := hsame.files
  rw [hnothing, hlisted] at hfalse
  cases hfalse

end Samples

end SovereignJedi.Pages
