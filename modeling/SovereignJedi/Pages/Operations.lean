import SovereignJedi.Files.Package
import SovereignJedi.Pages.Components
import SovereignJedi.Pages.Files

/-! The home page when each operation that it starts has ended before the next thing happens: what
becomes of it is then a function of what happens, and each operation is a run of its events. -/

namespace SovereignJedi.Pages

open SovereignJedi.Js SovereignJedi.Crypto SovereignJedi.Async SovereignJedi.Session
open SovereignJedi.Manifest SovereignJedi.Registry
open SovereignJedi.Files (File UploadEnv maxMvpFileBytes uploadEncryptedToIpfsOrThrow upload_object
  encryptFile_eq_ok envelopeObject_wf)

variable {Pubkey Address : Type}

/-! ### Uploads -/

section Uploads

variable {P : Platform} {D : Dates} {C : TextCodecs}

theorem upload_envelope_wf {env : UploadEnv} {file : File} {w : String} {r : Files.UploadResult}
    (h : uploadEncryptedToIpfsOrThrow P D C env file w = .ok r) :
    ∀ j, r.object.get "envelope" = some j → j.WF := by
  obtain ⟨draws, plaintext, options, encrypted, hencrypt, -, hobject, -⟩ := upload_object h
  obtain ⟨key, id, json, cipher, aad, wrapped, hs⟩ := encryptFile_eq_ok hencrypt
  intro j hj
  rw [hobject, hs.envelope] at hj
  cases hj
  exact envelopeObject_wf ..

variable (P D C)

/-- The upload of a file: what the page goes on with, and the bytes that were added to IPFS. -/
def uploadFile (env : UploadEnv) (file : File) (walletPubKey : String) : Result (Uploaded × Bytes) :=
  match h : uploadEncryptedToIpfsOrThrow P D C env file walletPubKey with
  | .error e => .error e
  | .ok r => .ok (⟨r.cid, r.object.get "envelope", upload_envelope_wf h⟩,
      P.encodeJsonToBytes r.object)

end Uploads

/-! ### One thing after the other -/

/-- What happens to the page, with what the operations that it starts get from outside. `storage` is
a write by anything else, `none` a removal. -/
inductive Input (Pubkey Address : Type) where
  | instruction (ix : Instruction Pubkey Address)
  | storage (key : String) (value : Option String)
  | session (c : SessionCall)
  | refresh (now : Int)
  | render
  | runEffects (env env' : LoadEnv)
  | fail (i : Nat) (message : Option String)
  | respond (i : Nat)
  | deliver (i : Nat)
  | handleFile (rendering : Nat) (file : File) (upload : UploadEnv) (append : AppendEnv)
      (load : LoadEnv)

/-- A change of the storage. -/
def Home.onStorage (h : Home Pubkey Address) (f : LocalStorage → LocalStorage) : Home Pubkey Address :=
  { h with tab := h.tab.setData { h.tab.data with localStorage := f h.tab.data.localStorage } }

/-- What the session manager does, on the storage of the browser. -/
def Home.onSession (h : Home Pubkey Address) (f : SessionManager → SessionManager) :
    Home Pubkey Address :=
  let s := f { h.sessionManager with localStorage := h.tab.data.localStorage }
  { h.onStorage fun _ => s.localStorage with sessionManager := s }

/-- The load that is in progress, if there is one, runs to its end. -/
def Home.finishLoad (h : Home Pubkey Address) : Home Pubkey Address :=
  match h.jobs with
  | [.refresh _ refreshKey load] => { h with
      tab := (load.run h.tab).1, page := h.page.settle refreshKey (load.run h.tab).2, jobs := [] }
  | _ => h

section Perform

variable [DecidableEq Pubkey] [DecidableEq Address] (W : Deployment Pubkey Address) (D : Dates)
  (C : TextCodecs)

/-- `handleFile` of a rendering `c` up to its refresh: whether it comes to that, and the tab. -/
def appendFile (c : Snapshot Pubkey) (vaultUnlocked : Bool) (file : File) (upload : UploadEnv)
    (append : AppendEnv) (tab : WalletTab) : WalletTab × Bool :=
  match c.prerequisites with
  | none => (tab, false)
  | some pre =>
    if file.bytes.length > maxMvpFileBytes then (tab, false)
    else
      match uploadFile W.platform D C
          { upload with localStorage := tab.data.localStorage, vaultUnlocked } file
          pre.walletPubKey with
      | .error _ => (tab, false)
      | .ok (u, bytes) =>
        let r := (appendEntryAndPersist W.platform (c.appendParams W pre file u append)).run
          (tab.setData { tab.data with uploads := tab.data.uploads ++ [bytes] })
        (r.1, r.2.isOk)

/-- The page then, and the rendering to refresh, if any. -/
def Home.appendFile (h : Home Pubkey Address) (rendering : Nat) (file : File) (upload : UploadEnv)
    (append : AppendEnv) : Home Pubkey Address × Option (Snapshot Pubkey) :=
  match h.renderings[rendering]? with
  | none => (h, none)
  | some c =>
    let r := Pages.appendFile W D C c h.sessionManager.vaultUnlocked file upload append h.tab
    ({ h with tab := r.1 }, if r.2 then some c else none)

def Home.perform (h : Home Pubkey Address) : Input Pubkey Address → Home Pubkey Address
  | .instruction ix => h.apply W (.instruction ix)
  | .storage key value => h.onStorage fun s => Function.update s key value
  | .session c => h.onSession fun s => ((c.body W.platform D).run s).1
  | .refresh now => (h.onSession fun s => (getVerified W.platform now s).1).apply W .refresh
  | .render => h.apply W .render
  | .runEffects env env' => (h.runEffects W env env').finishLoad
  | .fail i message => h.apply W (.fail i message)
  | .respond i => h.apply W (.respond i)
  | .deliver i => h.apply W (.deliver i)
  | .handleFile rendering file upload append load =>
    match h.appendFile W D C rendering file upload append with
    | (h, some c) => (h.refreshFromManifest W c "post-append" load).finishLoad
    | (h, none) => h

def Home.performAll (h : Home Pubkey Address) (inputs : List (Input Pubkey Address)) :
    Home Pubkey Address :=
  inputs.foldl (Home.perform W D C) h

end Perform

/-! ### Idle pages -/

/-- No operation is in progress. -/
structure Home.Idle (h : Home Pubkey Address) : Prop where
  jobs : h.jobs = []
  refreshInFlight : h.page.refreshInFlight = false
  free : h.tab.Free

/-- At most one load is in progress. -/
def Home.Loads (h : Home Pubkey Address) : Prop :=
  h.Idle ∨ (∃ c refreshKey load, h.jobs = [.refresh c refreshKey (onData load)]) ∧ h.tab.Free

theorem settle_refreshInFlight (refreshKey : RefreshKey) (r : Result LoadResult) (page : Page) :
    (page.settle refreshKey r).refreshInFlight = false := by
  unfold Page.settle
  split
  · rfl
  · split
    · rfl
    · split <;> rfl

theorem Home.Loads.finishLoad {h : Home Pubkey Address} (hh : h.Loads) : h.finishLoad.Idle := by
  rcases hh with hh | ⟨⟨c, refreshKey, load, hjobs⟩, hfree⟩
  · rw [Home.finishLoad, hh.jobs]
    exact hh
  · rw [Home.finishLoad, hjobs]
    refine ⟨rfl, settle_refreshInFlight .., ?_⟩
    dsimp only
    rw [run_onData]
    exact hfree

section Idle

variable {W : Deployment Pubkey Address} {D : Dates} {C : TextCodecs} {h : Home Pubkey Address}

/-- What `refreshFromManifest` does from an idle page: it ends at once, or starts a load. -/
theorem Home.Idle.refreshFromManifest (hh : h.Idle) (c : Snapshot Pubkey) (reason : String)
    (env : LoadEnv) : (h.refreshFromManifest W c reason env).Loads ∧
      ((h.refreshFromManifest W c reason env).page.refreshInFlight = false →
        (h.refreshFromManifest W c reason env).Idle) := by
  have hidle : ∀ {g : Home Pubkey Address}, g.Idle →
      g.Loads ∧ (g.page.refreshInFlight = false → g.Idle) := fun hg => ⟨.inl hg, fun _ => hg⟩
  simp only [Home.refreshFromManifest, Home.startRefresh]
  split
  · exact hidle ⟨hh.jobs, hh.refreshInFlight, hh.free⟩
  · rename_i pre hpre
    split
    · exact hidle ⟨hh.jobs, hh.refreshInFlight, hh.free⟩
    · split
      · exact hidle ⟨hh.jobs, hh.refreshInFlight, hh.free⟩
      · rw [seg_onData]
        refine ⟨.inr ⟨⟨c, _, _, congrArg (· ++ [_]) hh.jobs⟩, hh.free⟩, fun hflight => ?_⟩
        cases hflight

theorem Home.Idle.enterEffects (hh : h.Idle) : (h.enterEffects W).Idle := by
  rw [Home.enterEffects, Home.dedupReset, Home.fetchRegistry]
  refine ⟨?_, ?_, ?_⟩
  · split <;> exact hh.jobs
  · split <;> simp [hh.refreshInFlight]
  · split <;> exact hh.free

theorem Home.Idle.runEffects (hh : h.Idle) (env env' : LoadEnv) : (h.runEffects W env env').Loads := by
  have hentered : (h.enterEffects W).Idle := hh.enterEffects
  obtain ⟨hloads, hidle⟩ := hentered.refreshFromManifest (W := W) h.view "effect" env
  rw [Home.runEffects]
  split
  · rename_i hready
    have hends := hidle (by simpa using hready.2.2.2)
    exact (hends.refreshFromManifest h.view "post-unlock-auto" env').1
  · exact hloads

theorem free_run_append {tab : WalletTab} (hfree : tab.Free) (p : AppendParams) :
    ((appendEntryAndPersist W.platform p).run tab).1.Free := by
  unfold appendEntryAndPersist
  split
  · exact hfree
  · exact free_run_runExclusive hfree

/-- Nothing comes of a file, or it is added to IPFS and its entry is appended. -/
theorem appendFile_cases (c : Snapshot Pubkey) (vaultUnlocked : Bool) (file : File)
    (upload : UploadEnv) (append : AppendEnv) (tab : WalletTab) :
    Pages.appendFile W D C c vaultUnlocked file upload append tab = (tab, false) ∨
      ∃ pre u added, c.prerequisites = some pre ∧ ¬ file.bytes.length > maxMvpFileBytes ∧
        Pages.appendFile W D C c vaultUnlocked file upload append tab =
          let r := (appendEntryAndPersist W.platform (c.appendParams W pre file u append)).run
            (tab.setData { tab.data with uploads := tab.data.uploads ++ added })
          (r.1, r.2.isOk) := by
  unfold Pages.appendFile
  cases hpre : c.prerequisites with
  | none => exact .inl rfl
  | some pre =>
    by_cases hsize : file.bytes.length > maxMvpFileBytes
    · exact .inl (if_pos hsize)
    · simp only [if_neg hsize]
      split
      · exact .inl rfl
      · rename_i u bytes _
        exact .inr ⟨pre, u, [bytes], rfl, hsize, rfl⟩

/-- An append changes the tab only, and leaves its mutexes free. -/
theorem appendFile_frame (h : Home Pubkey Address) (rendering : Nat) (file : File) (upload : UploadEnv)
    (append : AppendEnv) :
    ∃ tab, (h.appendFile W D C rendering file upload append).1 = { h with tab } ∧
      (h.tab.Free → tab.Free) := by
  simp only [Home.appendFile]
  cases h.renderings[rendering]? with
  | none => exact ⟨h.tab, rfl, id⟩
  | some c =>
    refine ⟨_, rfl, fun hfree => ?_⟩
    rcases appendFile_cases (W := W) (D := D) (C := C) c h.sessionManager.vaultUnlocked file upload
      append h.tab with heq | ⟨pre, u, added, -, -, heq⟩
    · rw [heq]
      exact hfree
    · have hadded : (h.tab.setData { h.tab.data with
        uploads := h.tab.data.uploads ++ added }).Free := hfree
      rw [heq]
      exact free_run_append hadded _

variable [DecidableEq Pubkey] [DecidableEq Address]

theorem Home.Idle.perform (hh : h.Idle) (e : Input Pubkey Address) : (h.perform W D C e).Idle := by
  cases e with
  | instruction ix => exact ⟨hh.jobs, hh.refreshInFlight, hh.free⟩
  | storage key value => exact ⟨hh.jobs, hh.refreshInFlight, hh.free⟩
  | session c => exact ⟨hh.jobs, hh.refreshInFlight, hh.free⟩
  | refresh now => exact ⟨hh.jobs, hh.refreshInFlight, hh.free⟩
  | render => exact ⟨hh.jobs, hh.refreshInFlight, hh.free⟩
  | runEffects env env' => exact (hh.runEffects env env').finishLoad
  | fail i message => exact ⟨hh.jobs, hh.refreshInFlight, hh.free⟩
  | respond i => exact ⟨hh.jobs, hh.refreshInFlight, hh.free⟩
  | deliver i =>
    simp only [Home.perform, Home.apply]
    split
    · exact ⟨hh.jobs, hh.refreshInFlight, hh.free⟩
    · exact hh
  | handleFile rendering file upload append load =>
    obtain ⟨tab, hframe, hfree⟩ :=
      appendFile_frame (W := W) (D := D) (C := C) h rendering file upload append
    have happended : (h.appendFile W D C rendering file upload append).1.Idle := by
      rw [hframe]
      exact ⟨hh.jobs, hh.refreshInFlight, hfree hh.free⟩
    simp only [Home.perform]
    generalize h.appendFile W D C rendering file upload append = r at happended
    obtain ⟨g, c⟩ := r
    cases c with
    | none => exact happended
    | some c => exact (happended.refreshFromManifest c "post-append" load).1.finishLoad

theorem performAll_concat (h : Home Pubkey Address) (inputs : List (Input Pubkey Address))
    (e : Input Pubkey Address) :
    h.performAll W D C (inputs ++ [e]) = (h.performAll W D C inputs).perform W D C e := by
  simp [Home.performAll]

end Idle

/-! ### The operations of the page -/

section Operations

variable {W : Deployment Pubkey Address} {D : Dates} {C : TextCodecs} {h : Home Pubkey Address}
  {c : Snapshot Pubkey} {w : WalletPubKey}

theorem neverBlocks_load {pre : Prerequisites} (hwallet : c.wallet = some w.val)
    (hpre : c.prerequisites = some pre) (env : LoadEnv) :
    (onData (loadManifestOrInit W.platform (c.loadParams W pre env)) :
      Task AwaitPoint WalletTab JsError LoadResult).NeverBlocks := by
  have hw : Js.trim (c.loadParams W pre env).walletPubKey = w.val := trim_prerequisites hwallet hpre
  have hload := OnPointer.loadManifestOrInit (P := W.platform) hw
  exact hload.unblocked.zoom _ _

theorem runsAlone_append {pre : Prerequisites} (hwallet : c.wallet = some w.val)
    (hpre : c.prerequisites = some pre) (file : File) (u : Uploaded) (env : AppendEnv)
    {tab : WalletTab} (hfree : tab.Free) :
    (appendEntryAndPersist W.platform (c.appendParams W pre file u env)).RunsAlone tab := by
  have hw : Js.trim (c.appendParams W pre file u env).walletPubKey = w.val :=
    trim_prerequisites hwallet hpre
  exact runsAlone_appendEntryAndPersist hw hfree

theorem finishLoad_idle (hjobs : h.jobs = []) : h.finishLoad = h := by
  rw [Home.finishLoad, hjobs]

theorem Refreshes.jobs_of_not_starts {reason : String} {tab : WalletTab} {page : Page}
    {jobs : List (Job Pubkey)} (hr : Refreshes W h c reason tab page jobs)
    (hstarts : ¬ h.Starts W c reason) : jobs = h.jobs := by
  cases hr with
  | gated hpre hsame => rfl
  | dropped hpre hnot hsame => rfl
  | started hstarts' => exact absurd hstarts' hstarts

variable [DecidableEq Pubkey] [DecidableEq Address]

/-- The load of a refresh runs to its end by events of the page. -/
theorem run_finishLoad (hP : W.platform.Lawful) (hc : Connected c.hook.walletPubKey)
    (hjobs : h.jobs = []) (reason : String) (env : LoadEnv) :
    Home.Run W (fun _ _ => True) (h.refreshFromManifest W c reason env)
      (h.refreshFromManifest W c reason env).finishLoad := by
  by_cases hstarts : h.Starts W c reason
  · obtain ⟨pre, hpre⟩ := Option.isSome_iff_exists.mp hstarts.1
    obtain ⟨w, hwallet⟩ := hc.wallet hstarts.1
    rw [refreshFromManifest_starts hwallet hpre hstarts, hjobs, List.nil_append]
    have hrun := run_advance (W := W) (fun _ _ => True)
      (advances_refresh c (c.refreshKey (manifestCid W.platform w h.tab.data)))
      (fun _ _ _ => trivial) ((neverBlocks_load (W := W) hwallet hpre env).runsAlone
        (h.tab.setData (h.tab.data.migrated W.platform w)))
      { h with page := { h.page with refreshInFlight := true } }
    refine hrun.tail ⟨.settle 0 env, trivial, trivial, ?_⟩
    simp [Home.finishLoad, Home.apply, Home.firstLoad, Task.run_seg]
  · obtain ⟨tab, page, jobs, heq, hrefreshes⟩ :=
      refreshes_refreshFromManifest (W := W) hP hc h reason env
    rw [heq, finishLoad_idle]
    exact (hrefreshes.jobs_of_not_starts hstarts).trans hjobs

/-- The load that the effects start runs to its end by events of the page. -/
theorem run_runEffects (hP : W.platform.Lawful) (hc : Connected h.view.hook.walletPubKey)
    (hjobs : h.jobs = []) (env env' : LoadEnv) :
    Home.Run W (fun _ _ => True) h (h.runEffects W env env').finishLoad := by
  have hevent : Home.Run W (fun _ _ => True) h (h.runEffects W env env') :=
    .single ⟨.runEffects env env', trivial, trivial, rfl⟩
  have hentered : (h.enterEffects W).jobs = [] := (enterEffects_data h).2.1.trans hjobs
  by_cases hstarts : (h.enterEffects W).Starts W h.view "effect"
  · obtain ⟨pre, hpre⟩ := Option.isSome_iff_exists.mp hstarts.1
    obtain ⟨w, hwallet⟩ := hc.wallet hstarts.1
    have hfirst : h.runEffects W env env' =
        (h.enterEffects W).refreshFromManifest W h.view "effect" env := by
      rw [Home.runEffects, refreshFromManifest_starts hwallet hpre hstarts]
      exact if_neg fun hready => by simp at hready
    exact hevent.trans (hfirst ▸ run_finishLoad hP hc hentered "effect" env)
  · obtain ⟨tab, page, jobs, heq, hrefreshes⟩ := refreshes_runEffects (W := W) hP hc env env'
    rw [heq] at hevent ⊢
    rw [finishLoad_idle]
    · exact hevent
    · exact (hrefreshes.jobs_of_not_starts hstarts).trans hentered

/-- An upload whose file is added to IPFS comes to the end of its append by events of the page. -/
theorem run_appended (allowed : Home Pubkey Address → Event Pubkey Address → Prop)
    (hwallet : c.wallet = some w.val) (hjobs : h.jobs = []) (hfree : h.tab.Free) {rendering : Nat}
    (hc : h.renderings[rendering]? = some c) {pre : Prerequisites} (hpre : c.prerequisites = some pre)
    {file : File} (hsize : ¬ file.bytes.length > maxMvpFileBytes) (u : Uploaded) (append : AppendEnv)
    (hhandle : allowed h (.handleFile rendering file))
    (huploaded : ∀ h' : Home Pubkey Address, allowed h' (.uploaded 0 (.ok u) append))
    (hadvance : ∀ (h' : Home Pubkey Address) t,
      h'.jobs = [.append c (c.appendParams W pre file u append) t] → allowed h' (.advance 0)) :
    let r := (appendEntryAndPersist W.platform (c.appendParams W pre file u append)).run h.tab
    Home.Run W allowed h
      { h with tab := r.1, jobs := [.append c (c.appendParams W pre file u append) (.done r.2)] } := by
  have hhandled : Home.Run W allowed h { h with jobs := [.upload c pre file] } := by
    refine .single ⟨.handleFile rendering file, trivial, hhandle, ?_⟩
    simp [Home.apply, hc, hpre, hsize, hjobs]
  have hends := run_advance (W := W) allowed
    (advances_append c (c.appendParams W pre file u append)) hadvance
    (runsAlone_append (W := W) hwallet hpre file u append hfree) h
  exact (hhandled.tail ⟨.uploaded 0 (.ok u) append, trivial, huploaded _, rfl⟩).trans hends

/-- An upload whose file is added to IPFS comes to its refresh by events of the page, or ends. -/
theorem run_uploaded (hP : W.platform.Lawful) (hwf : h.WellFormed W) (hh : h.Idle) {rendering : Nat}
    {c : Snapshot Pubkey} (hc : h.renderings[rendering]? = some c) {pre : Prerequisites}
    (hpre : c.prerequisites = some pre) {file : File} (hsize : ¬ file.bytes.length > maxMvpFileBytes)
    (u : Uploaded) (append : AppendEnv) (load : LoadEnv) :
    let r := (appendEntryAndPersist W.platform (c.appendParams W pre file u append)).run h.tab
    Home.Run W (fun _ _ => True) h
      (if r.2.isOk then
        (Home.refreshFromManifest W { h with tab := r.1 } c "post-append" load).finishLoad
      else { h with tab := r.1 }) := by
  have hconnected : Connected c.hook.walletPubKey := hwf.renderings c (List.mem_of_getElem? hc)
  obtain ⟨w, hwallet⟩ := hconnected.wallet (by rw [hpre]; rfl)
  have happended := run_appended (W := W) (fun _ _ => True) hwallet hh.jobs hh.free hc hpre hsize u
    append trivial (fun _ => trivial) fun _ _ _ => trivial
  intro r
  change Home.Run W (fun _ _ => True) h
    { h with tab := r.1, jobs := [.append c (c.appendParams W pre file u append) (.done r.2)] }
    at happended
  obtain ⟨tab, result⟩ := r
  cases result with
  | error e =>
    refine happended.tail ⟨.settle 0 load, trivial, trivial, ?_⟩
    exact congrArg (fun jobs => { h with tab, jobs }) hh.jobs
  | ok r =>
    have hidle : ({ h with tab, jobs := [] } : Home Pubkey Address) = { h with tab } :=
      congrArg (fun jobs => { h with tab, jobs }) hh.jobs.symm
    have hrefresh := run_finishLoad hP hconnected (h := { h with tab }) hh.jobs "post-append" load
    refine (happended.tail ⟨.settle 0 load, trivial, trivial, ?_⟩).trans hrefresh
    exact congrArg (fun g => Home.refreshFromManifest W g c "post-append" load) hidle.symm

/-- Once its file is added to IPFS, an upload runs to its end by events of the page. -/
theorem run_handleFile (hP : W.platform.Lawful) (hwf : h.WellFormed W) (hh : h.Idle) (rendering : Nat)
    (file : File) (upload : UploadEnv) (append : AppendEnv) (load : LoadEnv) : ∃ added,
    Home.Run W (fun _ _ => True)
      { h with tab := h.tab.setData { h.tab.data with uploads := h.tab.data.uploads ++ added } }
      (h.perform W D C (.handleFile rendering file upload append load)) := by
  have hnothing : ∃ added, Home.Run W (fun _ _ => True)
      { h with tab := h.tab.setData { h.tab.data with uploads := h.tab.data.uploads ++ added } } h :=
    ⟨[], by simpa only [List.append_nil] using .refl⟩
  simp only [Home.perform, Home.appendFile]
  cases hc : h.renderings[rendering]? with
  | none => exact hnothing
  | some c =>
    rcases appendFile_cases (W := W) (D := D) (C := C) c h.sessionManager.vaultUnlocked file upload
      append h.tab with heq | ⟨pre, u, added, hpre, hsize, heq⟩
    · simp only [heq]
      exact hnothing
    · refine ⟨added, ?_⟩
      have hrun := run_uploaded (W := W) hP (h := { h with
        tab := h.tab.setData { h.tab.data with uploads := h.tab.data.uploads ++ added } })
        ⟨hwf.sessionManager, hwf.state, hwf.view, hwf.renderings, hwf.jobs⟩
        ⟨hh.jobs, hh.refreshInFlight, hh.free⟩ hc hpre hsize u append load
      simp only [heq]
      dsimp only at hrun
      split at hrun
      · rename_i hok
        simp only [hok, if_true]
        exact hrun
      · rename_i herror
        simp only [herror]
        exact hrun

omit [DecidableEq Pubkey] [DecidableEq Address] in
/-- An unlock leaves the wallet as it is. -/
theorem updates_unlockVault (env : UnlockEnv) : (unlockVault W.platform D env).Updates
    fun s s' => s.walletPubKey = s'.walletPubKey := by
  have hsign : ∀ r message missing, (env.sign W.platform r message missing).Updates
      fun s s' => s.walletPubKey = s'.walletPubKey := fun r message missing =>
    .bind (.op _ _) fun _ => .bind (.op _ _) fun signature => by
      cases signature <;> exact .done _
  unfold unlockVault
  refine .bind (.get fun _ => rfl) fun s => ?_
  cases s.walletPubKey.filter fun w => w != "" with
  | none => exact .done _
  | some wallet =>
    have hunlock : (unlockRound W.platform D env wallet).Updates
        fun s s' => s.walletPubKey = s'.walletPubKey :=
      .bind (.op _ _) fun _ => .bind (hsign _ _ _) fun _ =>
        .bind (.modify fun _ => rfl) fun _ => .bind (.op _ _) fun _ => .done _
    have hroot : (vaultRootRound W.platform env).Updates
        fun s s' => s.walletPubKey = s'.walletPubKey :=
      .bind (.get fun _ => rfl) fun _ => .bind (.op _ _) fun _ => .bind (hsign _ _ _) fun _ =>
        .modify fun _ => rfl
    exact .bind hunlock fun _ => .bind hroot fun _ => .modify fun _ => rfl

/-- An input that connects public keys only. -/
def Input.Connects : Input Pubkey Address → Prop
  | .session (.connectWallet pubKey _ _) => Connected pubKey.normalized
  | _ => True

omit [DecidableEq Pubkey] [DecidableEq Address] in
theorem connected_body {c : SessionCall} {s : SessionManager} (hs : Connected s.walletPubKey)
    (hc : (Input.session c : Input Pubkey Address).Connects) :
    Connected ((c.body W.platform D).run s).1.walletPubKey := by
  cases c with
  | connectWallet pubKey provider now =>
    have hwallet := connectWallet_walletPubKey W.platform now pubKey provider s
    exact hwallet ▸ hc
  | lockVault => exact hs
  | disconnectWallet => exact connected_none
  | unlockVault wallet env =>
    have hwallet : s.walletPubKey = ((unlockVault W.platform D env).run s).1.walletPubKey :=
      (updates_unlockVault env).run (U := fun s s' => s.walletPubKey = s'.walletPubKey)
        (fun _ => rfl) (fun a b c (h : a.walletPubKey = b.walletPubKey)
          (h' : b.walletPubKey = c.walletPubKey) => h.trans h') s
    exact hwallet ▸ hs

/-- An input is a change of what the browser stores, and then a run of the page's events. -/
theorem run_perform (hP : W.platform.Lawful) (hwf : h.WellFormed W) (hh : h.Idle)
    {e : Input Pubkey Address} (he : e.Connects) :
    ∃ b, Home.Run W (fun _ _ => True) { h with tab := h.tab.setData b } (h.perform W D C e) := by
  cases e with
  | instruction ix => exact ⟨h.tab.data, .single ⟨.instruction ix, trivial, trivial, rfl⟩⟩
  | storage key value => exact ⟨_, .refl⟩
  | session c =>
    have hs : Connected (h.perform W D C (.session c)).sessionManager.walletPubKey :=
      connected_body hwf.sessionManager he
    exact ⟨_, .single ⟨.sessionManager _, hs, trivial, rfl⟩⟩
  | refresh now =>
    have hs : Connected (h.perform W D C (.refresh now)).sessionManager.walletPubKey :=
      hwf.sessionManager
    exact ⟨_, .tail (.single ⟨.sessionManager _, hs, trivial, rfl⟩)
      ⟨.refresh, trivial, trivial, rfl⟩⟩
  | render => exact ⟨h.tab.data, .single ⟨.render, trivial, trivial, rfl⟩⟩
  | runEffects env env' => exact ⟨h.tab.data, run_runEffects hP hwf.view hh.jobs env env'⟩
  | fail i message => exact ⟨h.tab.data, .single ⟨.fail i message, trivial, trivial, rfl⟩⟩
  | respond i => exact ⟨h.tab.data, .single ⟨.respond i, trivial, trivial, rfl⟩⟩
  | deliver i => exact ⟨h.tab.data, .single ⟨.deliver i, trivial, trivial, rfl⟩⟩
  | handleFile rendering file upload append load =>
    obtain ⟨added, hrun⟩ := run_handleFile (D := D) (C := C) hP hwf hh rendering file upload append load
    exact ⟨_, hrun⟩

/-- All inputs are changes of what the browser stores, and runs of the page's events between them, as
long as the session manager connects public keys only. -/
theorem run_performAll (hP : W.platform.Lawful) (hwf : h.WellFormed W) (hh : h.Idle)
    {inputs : List (Input Pubkey Address)} (hinputs : ∀ e ∈ inputs, e.Connects) :
    (h.performAll W D C inputs).WellFormed W ∧ (h.performAll W D C inputs).Idle ∧
      Relation.ReflTransGen (fun g g' => ∃ b, Home.Run W (fun _ _ => True)
        { g with tab := g.tab.setData b } g') h (h.performAll W D C inputs) := by
  induction inputs using List.reverseRecOn with
  | nil => exact ⟨hwf, hh, .refl⟩
  | append_singleton inputs e ih =>
    obtain ⟨hwf', hidle, hbefore⟩ := ih fun e he => hinputs e (List.mem_append_left _ he)
    have hlast : e.Connects := hinputs e (List.mem_concat_self ..)
    rw [performAll_concat]
    obtain ⟨b, hrun⟩ := run_perform hP hwf' hidle hlast
    have hstored : Home.WellFormed W { h.performAll W D C inputs with
        tab := (h.performAll W D C inputs).tab.setData b } :=
      ⟨hwf'.sessionManager, hwf'.state, hwf'.view, hwf'.renderings, hwf'.jobs⟩
    exact ⟨hstored.run hP hrun, hidle.perform e, hbefore.tail ⟨b, hrun⟩⟩

end Operations

/-- A wallet connects, unlocks its vault and uploads a file. -/
def sampleInputs : List (Input Nat (Nat × Hash)) :=
  [.runEffects sampleLoadEnv sampleLoadEnv,
    .session (.connectWallet (.text sampleWallet.val) none 0), .refresh 0, .render,
    .session (.unlockVault (some sampleWallet.val) (sampleEnv fun _ => sampleSignature)), .refresh 0,
    .render, .runEffects sampleLoadEnv sampleLoadEnv,
    .handleFile 2 Files.sampleFile (Files.sampleUploadEnv fun _ => sampleSignature) sampleAppend.env
      sampleLoadEnv]

theorem run_performAll_sample :
    Relation.ReflTransGen (fun g g' => ∃ b, Home.Run (sampleDeployment symbolic) (fun _ _ => True)
        { g with tab := g.tab.setData b } g')
      (Home.opened (fun _ => none) emptyBrowser)
      ((Home.opened (fun _ => none) emptyBrowser).performAll (sampleDeployment symbolic) sampleDates
        sampleCodecs sampleInputs) := by
  have hinputs : ∀ e ∈ sampleInputs, e.Connects := by
    simp only [sampleInputs, List.forall_mem_cons, Input.Connects, true_and]
    rw [normalized_text sampleWallet.ne]
    exact ⟨connected_val sampleWallet, fun _ h => by cases h⟩
  exact (run_performAll symbolic_lawful (wellFormed_init _ connected_none emptyBrowser)
    ⟨rfl, rfl, Tab.free_fresh emptyBrowser⟩ hinputs).2.2

end SovereignJedi.Pages
