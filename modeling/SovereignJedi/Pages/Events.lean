import SovereignJedi.Pages.Jobs

/-! What an event does to the home page. `Next` says it once for every event; what holds over runs
is derived from it. -/

namespace SovereignJedi.Pages

open Relation
open SovereignJedi.Js SovereignJedi.Crypto SovereignJedi.Async SovereignJedi.Session
open SovereignJedi.Manifest
open SovereignJedi.Registry

variable {Pubkey Address : Type}

theorem runEffect_wallet (hook : Hook Pubkey) (walletPubKey : Option String) :
    (hook.runEffect walletPubKey).walletPubKey = hook.walletPubKey := by
  rw [Hook.runEffect]
  split <;> rfl

theorem settle_wallet (hook : Hook Pubkey) (requester : Requester)
    (answer : Except (Option String) (Option (RegistryAccount Pubkey))) :
    (hook.settle requester answer).walletPubKey = hook.walletPubKey := by
  cases answer with
  | ok registry => rfl
  | error message => cases requester <;> rfl

variable [DecidableEq Pubkey] [DecidableEq Address]
  {W : Deployment Pubkey Address} {h h' : Home Pubkey Address} {e : Event Pubkey Address}

/-- Every wallet is a public key, and every job does what its snapshot asked for. -/
structure Home.WellFormed (W : Deployment Pubkey Address) (h : Home Pubkey Address) : Prop where
  sessionManager : Connected h.sessionManager.walletPubKey
  state : Connected h.state.hook.walletPubKey
  view : Connected h.view.hook.walletPubKey
  renderings : ∀ c ∈ h.renderings, Connected c.hook.walletPubKey
  jobs : ∀ j ∈ h.jobs, j.WellFormed W.platform

/-- The page after an event. -/
inductive Next (W : Deployment Pubkey Address) (h : Home Pubkey Address) :
    Event Pubkey Address → Home Pubkey Address → Prop
  | instruction (ix : Instruction Pubkey Address) :
      Next W h (.instruction ix) { h with accounts := execute W.runtime h.accounts ix }
  | quiet {e : Event Pubkey Address} {s : SessionManager} {state view : Snapshot Pubkey}
      {renderings : List (Snapshot Pubkey)} (requests : List (Request Pubkey))
      (hs : Connected s.walletPubKey) (hstate : Connected state.hook.walletPubKey)
      (hview : Connected view.hook.walletPubKey)
      (hrenderings : ∀ c ∈ renderings, Connected c.hook.walletPubKey) :
      Next W h e { h with sessionManager := s, state, view, renderings, requests }
  | effects {env env' : LoadEnv} {tab : WalletTab} {page : Page} {jobs : List (Job Pubkey)}
      (hrefreshes : Refreshes W (h.enterEffects W) h.view "effect" tab page jobs) :
      Next W h (.runEffects env env') { h.enterEffects W with tab, page, jobs }
  | handled {k : Nat} {file : Files.File} {c : Snapshot Pubkey} {pre : Prerequisites} {w : WalletPubKey}
      (hwallet : c.wallet = some w.val) (hpre : c.prerequisites = some pre) :
      Next W h (.handleFile k file) { h with jobs := h.jobs ++ [.upload c pre file] }
  | uploaded {i : Nat} {u : Uploaded} {env : AppendEnv} {file : Files.File} {c : Snapshot Pubkey}
      {pre : Prerequisites} {w : WalletPubKey} {tab : WalletTab}
      {rest : Task AwaitPoint WalletTab JsError (Json × String)}
      (hjob : h.jobs[i]? = some (.upload c pre file)) (hwallet : c.wallet = some w.val)
      (hpre : c.prerequisites = some pre)
      (hcall : Appended W w c (c.appendParams W pre file u env) h.tab tab rest) :
      Next W h (.uploaded i (.ok u) env) { h with
        tab, jobs := h.jobs.set i (.append c (c.appendParams W pre file u env) rest) }
  | load {i : Nat} {c : Snapshot Pubkey} {refreshKey : RefreshKey} {pt : AwaitPoint}
      {ready : WalletTab → Bool} {next : Task AwaitPoint WalletTab JsError LoadResult}
      (hjob : h.jobs[i]? = some (.refresh c refreshKey (.await pt ready next)))
      (hready : ready h.tab = true) : Next W h (.advance i) { h with
        tab := (next.seg h.tab).1, jobs := h.jobs.set i (.refresh c refreshKey (next.seg h.tab).2) }
  | append {i : Nat} {c : Snapshot Pubkey} {p : AppendParams} {pt : AwaitPoint}
      {ready : WalletTab → Bool} {next : Task AwaitPoint WalletTab JsError (Json × String)}
      (hjob : h.jobs[i]? = some (.append c p (.await pt ready next)))
      (hready : ready h.tab = true) : Next W h (.advance i) { h with
        tab := (next.seg h.tab).1, jobs := h.jobs.set i (.append c p (next.seg h.tab).2) }
  | loaded {i : Nat} {env : LoadEnv} {c : Snapshot Pubkey} {refreshKey : RefreshKey}
      {r : Result LoadResult} (hjob : h.jobs[i]? = some (.refresh c refreshKey (.done r))) :
      Next W h (.settle i env) { h with
        page := h.page.settle refreshKey r, jobs := h.jobs.eraseIdx i }
  | appended {i : Nat} {env : LoadEnv} {c : Snapshot Pubkey} {p : AppendParams} {r : Json × String}
      {tab : WalletTab} {page : Page} {jobs : List (Job Pubkey)}
      (hjob : h.jobs[i]? = some (.append c p (.done (.ok r))))
      (hrefreshes : Refreshes W { h with jobs := h.jobs.eraseIdx i } c "post-append" tab page jobs) :
      Next W h (.settle i env) { h with tab, page, jobs }
  | notUploaded {i : Nat} {error : JsError} {env : AppendEnv} {file : Files.File} {c : Snapshot Pubkey}
      {pre : Prerequisites} (hjob : h.jobs[i]? = some (.upload c pre file)) :
      Next W h (.uploaded i (.error error) env) { h with jobs := h.jobs.eraseIdx i }
  | notAppended {i : Nat} {env : LoadEnv} {error : JsError} {c : Snapshot Pubkey} {p : AppendParams}
      (hjob : h.jobs[i]? = some (.append c p (.done (.error error)))) :
      Next W h (.settle i env) { h with jobs := h.jobs.eraseIdx i }

omit [DecidableEq Pubkey] [DecidableEq Address] in
theorem Home.WellFormed.job (hwf : h.WellFormed W) {i : Nat} {j : Job Pubkey}
    (hj : h.jobs[i]? = some j) : j.WellFormed W.platform :=
  hwf.jobs j (List.mem_of_getElem? hj)

theorem Next.same (hwf : h.WellFormed W) : Next W h e h :=
  .quiet h.requests hwf.sessionManager hwf.state hwf.view hwf.renderings

theorem next_uploaded (hP : W.platform.Lawful) (hwf : h.WellFormed W) (i : Nat)
    (outcome : Result Uploaded) (env : AppendEnv) :
    Next W h (.uploaded i outcome env) (h.apply W (.uploaded i outcome env)) := by
  unfold Home.apply
  dsimp only
  split
  · rename_i c pre file u hjob
    obtain ⟨⟨w, hwallet⟩, hpre⟩ := hwf.job hjob
    exact .uploaded hjob hwallet hpre (appended hP hwallet hpre file u env h.tab)
  · rename_i hjob
    exact .notUploaded hjob
  · exact .same hwf

theorem next_advance (hwf : h.WellFormed W) (i : Nat) :
    Next W h (.advance i) (h.apply W (.advance i)) := by
  unfold Home.apply
  dsimp only
  split
  · rename_i hjob
    split
    · rename_i hready
      exact .load hjob hready
    · exact .same hwf
  · rename_i hjob
    split
    · rename_i hready
      exact .append hjob hready
    · exact .same hwf
  · exact .same hwf

theorem next_settle (hP : W.platform.Lawful) (hwf : h.WellFormed W) (i : Nat) (env : LoadEnv) :
    Next W h (.settle i env) (h.apply W (.settle i env)) := by
  unfold Home.apply
  dsimp only
  split
  · rename_i hjob
    exact .loaded hjob
  · rename_i c p r hjob
    obtain ⟨⟨w, hwallet, -⟩, -⟩ := hwf.job hjob
    have hc : Connected c.hook.walletPubKey := fun v hv =>
      ⟨w, Option.some.inj (hwallet.symm.trans hv)⟩
    obtain ⟨tab, page, jobs, heq, hrefreshes⟩ :=
      refreshes_refreshFromManifest hP hc { h with jobs := h.jobs.eraseIdx i } "post-append" env
    rw [heq]
    exact .appended hjob hrefreshes
  · rename_i hjob
    exact .notAppended hjob
  · exact .same hwf

/-- Every event is one of `Next`. -/
theorem next_apply (hP : W.platform.Lawful) (hwf : h.WellFormed W) (he : e.Valid) :
    Next W h e (h.apply W e) := by
  cases e with
  | instruction ix => exact .instruction ix
  | sessionManager s => exact .quiet h.requests he hwf.state hwf.view hwf.renderings
  | refresh =>
    exact .quiet h.requests hwf.sessionManager hwf.sessionManager hwf.view hwf.renderings
  | render =>
    refine .quiet h.requests hwf.sessionManager hwf.state hwf.state fun c hc => ?_
    rcases List.mem_append.mp hc with hc | hc
    · exact hwf.renderings c hc
    · rw [List.mem_singleton.mp hc]
      exact hwf.state
  | runEffects env env' =>
    obtain ⟨tab, page, jobs, heq, hrefreshes⟩ := refreshes_runEffects hP hwf.view env env'
    rw [Home.apply, heq]
    exact .effects hrefreshes
  | fail i message => exact .quiet _ hwf.sessionManager hwf.state hwf.view hwf.renderings
  | respond i => exact .quiet _ hwf.sessionManager hwf.state hwf.view hwf.renderings
  | deliver i =>
    unfold Home.apply
    dsimp only
    split
    · refine .quiet _ hwf.sessionManager ?_ hwf.view hwf.renderings
      rw [settle_wallet]
      exact hwf.state
    · exact .same hwf
  | handleFile k file =>
    unfold Home.apply
    dsimp only
    split
    · exact .same hwf
    · rename_i c hk
      split
      · exact .same hwf
      · rename_i pre hpre
        split
        · exact .same hwf
        · have hconnected := hwf.renderings c (List.mem_of_getElem? hk)
          obtain ⟨w, hwallet⟩ := hconnected.wallet (by rw [hpre]; rfl)
          exact .handled hwallet hpre
  | uploaded i outcome env => exact next_uploaded hP hwf i outcome env
  | advance i => exact next_advance hwf i
  | settle i env => exact next_settle hP hwf i env

/-! ### What every event keeps -/

section Kept

variable {c : Snapshot Pubkey} {reason : String} {tab : WalletTab} {page : Page}
  {jobs : List (Job Pubkey)}

omit [DecidableEq Pubkey] [DecidableEq Address]

theorem Refreshes.kept (hr : Refreshes W h c reason tab page jobs) :
    PointersKept W.platform h.tab.data tab.data := by
  cases hr with
  | gated hpre hsame => exact PointersKept.of_eq hsame
  | dropped hpre hstarts hsame => exact PointersKept.of_eq hsame
  | started hstarts hwallet hload => exact hload.kept

theorem Refreshes.wellFormed (hr : Refreshes W h c reason tab page jobs)
    (hjobs : ∀ j ∈ h.jobs, j.WellFormed W.platform) : ∀ j ∈ jobs, j.WellFormed W.platform := by
  cases hr with
  | gated hpre hsame => exact hjobs
  | dropped hpre hstarts hsame => exact hjobs
  | started hstarts hwallet hload =>
    intro j hj
    rcases List.mem_append.mp hj with hj | hj
    · exact hjobs j hj
    · rw [List.mem_singleton.mp hj]
      exact ⟨_, hwallet, hload.job⟩

theorem jobs_set {Φ : Job Pubkey → Prop} (hjobs : ∀ j ∈ jobs, Φ j) (i : Nat) {j : Job Pubkey} (hj : Φ j) :
    ∀ j' ∈ jobs.set i j, Φ j' := by
  intro j' hj'
  rcases List.mem_or_eq_of_mem_set hj' with hj' | rfl
  · exact hjobs j' hj'
  · exact hj

theorem jobs_eraseIdx {Φ : Job Pubkey → Prop} (hjobs : ∀ j ∈ jobs, Φ j) (i : Nat) :
    ∀ j ∈ jobs.eraseIdx i, Φ j := fun j hj => hjobs j (List.mem_of_mem_eraseIdx hj)

/-- The segment of a load. -/
theorem Home.WellFormed.load (hwf : h.WellFormed W) {i : Nat} {refreshKey : RefreshKey} {pt : AwaitPoint}
    {ready : WalletTab → Bool} {next : Task AwaitPoint WalletTab JsError LoadResult}
    (hjob : h.jobs[i]? = some (.refresh c refreshKey (.await pt ready next))) :
    ∃ w : WalletPubKey, c.wallet = some w.val ∧ RefreshJob W.platform w refreshKey (next.seg h.tab).2 ∧
      OthersKept W.platform w h.tab.data (next.seg h.tab).1.data ∧
      PointersKept W.platform h.tab.data (next.seg h.tab).1.data := by
  obtain ⟨w, hwallet, hload⟩ := hwf.job hjob
  exact ⟨w, hwallet, hload.seg h.tab⟩

/-- The segment of an append. -/
theorem Home.WellFormed.append (hwf : h.WellFormed W) {i : Nat} {p : AppendParams} {pt : AwaitPoint}
    {ready : WalletTab → Bool} {next : Task AwaitPoint WalletTab JsError (Json × String)}
    (hjob : h.jobs[i]? = some (.append c p (.await pt ready next))) :
    c.prerequisites.isSome ∧ ∃ w : WalletPubKey, c.wallet = some w.val ∧
      AppendJob W.platform w p (next.seg h.tab).2 ∧
      (OthersKept W.platform w h.tab.data (next.seg h.tab).1.data ∧
        PointersKept W.platform h.tab.data (next.seg h.tab).1.data) ∧
      ((pointerBounds W.platform w (p.env.init.fault .addBytes)).tentative (some pt) h.tab.data
        (next.seg h.tab).1.data ∨ (next.seg h.tab).2.Succeeds) := by
  obtain ⟨⟨w, hwallet, happend⟩, hpre⟩ := hwf.job hjob
  exact ⟨hpre, w, hwallet, happend.seg h.tab⟩

end Kept

theorem Next.kept (hn : Next W h e h') (hwf : h.WellFormed W) :
    PointersKept W.platform h.tab.data h'.tab.data := by
  cases hn with
  | effects hrefreshes => exact (enterEffects_data (W := W) h).1 ▸ hrefreshes.kept
  | uploaded hjob hwallet hpre hcall => exact hcall.kept
  | load hjob hready =>
    obtain ⟨w, -, -, -, hkept⟩ := hwf.load hjob
    exact hkept
  | append hjob hready =>
    obtain ⟨-, w, -, -, ⟨-, hkept⟩, -⟩ := hwf.append hjob
    exact hkept
  | appended hjob hrefreshes => exact hrefreshes.kept
  | instruction | quiet | handled | loaded | notUploaded | notAppended => exact fun _ hw => hw

omit [DecidableEq Pubkey] [DecidableEq Address] in
theorem enterEffects_wellFormed (hwf : h.WellFormed W) : (h.enterEffects W).WellFormed W := by
  rw [Home.enterEffects, Home.dedupReset, Home.fetchRegistry]
  split
  · exact ⟨hwf.sessionManager, hwf.state, hwf.view, hwf.renderings, hwf.jobs⟩
  · refine ⟨hwf.sessionManager, ?_, hwf.view, hwf.renderings, hwf.jobs⟩
    dsimp only
    rw [runEffect_wallet]
    exact hwf.state

theorem Next.wellFormed (hn : Next W h e h') (hwf : h.WellFormed W) : h'.WellFormed W := by
  have hframe : ∀ {tab : WalletTab} {page : Page} {jobs : List (Job Pubkey)},
      (∀ j ∈ jobs, j.WellFormed W.platform) → Home.WellFormed W { h with tab, page, jobs } := fun hjobs =>
    ⟨hwf.sessionManager, hwf.state, hwf.view, hwf.renderings, hjobs⟩
  cases hn with
  | instruction ix => exact ⟨hwf.sessionManager, hwf.state, hwf.view, hwf.renderings, hwf.jobs⟩
  | quiet requests hs hstate hview hrenderings => exact ⟨hs, hstate, hview, hrenderings, hwf.jobs⟩
  | effects hrefreshes =>
    have hwf' := enterEffects_wellFormed hwf
    exact ⟨hwf'.sessionManager, hwf'.state, hwf'.view, hwf'.renderings, hrefreshes.wellFormed hwf'.jobs⟩
  | handled hwallet hpre =>
    refine hframe fun j hj => ?_
    rcases List.mem_append.mp hj with hj | hj
    · exact hwf.jobs j hj
    · rw [List.mem_singleton.mp hj]
      exact ⟨⟨_, hwallet⟩, hpre⟩
  | uploaded hjob hwallet hpre hcall =>
    exact hframe (jobs_set hwf.jobs _ ⟨⟨_, hwallet, hcall.job⟩, by rw [hpre]; rfl⟩)
  | load hjob hready =>
    obtain ⟨w, hwallet, hload, -⟩ := hwf.load hjob
    exact hframe (jobs_set hwf.jobs _ ⟨w, hwallet, hload⟩)
  | append hjob hready =>
    obtain ⟨hpre, w, hwallet, happend, -⟩ := hwf.append hjob
    exact hframe (jobs_set hwf.jobs _ ⟨⟨w, hwallet, happend⟩, hpre⟩)
  | appended hjob hrefreshes => exact hframe (hrefreshes.wellFormed (jobs_eraseIdx hwf.jobs _))
  | loaded hjob => exact hframe (jobs_eraseIdx hwf.jobs _)
  | notUploaded hjob => exact hframe (jobs_eraseIdx hwf.jobs _)
  | notAppended hjob => exact hframe (jobs_eraseIdx hwf.jobs _)

/-! ### Runs -/

/-- Any events in any order that satisfy the condition. -/
abbrev Home.Run (W : Deployment Pubkey Address)
    (allowed : Home Pubkey Address → Event Pubkey Address → Prop) :
    Home Pubkey Address → Home Pubkey Address → Prop :=
  ReflTransGen fun h h' => ∃ e : Event Pubkey Address, e.Valid ∧ allowed h e ∧ h' = h.apply W e

theorem Home.Run.mono {allowed allowed' : Home Pubkey Address → Event Pubkey Address → Prop}
    (hallowed : ∀ h e, allowed h e → allowed' h e) (hrun : Home.Run W allowed h h') :
    Home.Run W allowed' h h' := by
  refine ReflTransGen.mono ?_ _ _ hrun
  rintro _ _ ⟨e, he, ha, rfl⟩
  exact ⟨e, he, hallowed _ _ ha, rfl⟩

omit [DecidableEq Pubkey] [DecidableEq Address] in
theorem wellFormed_init (accounts : Accounts Pubkey Address) {s : SessionManager}
    (hs : Connected s.walletPubKey) (b : Browser) : (Home.init accounts s b).WellFormed W where
  sessionManager := hs
  state := hs
  view := hs
  renderings := by
    intro c hc
    rw [List.mem_singleton.mp hc]
    exact hs
  jobs j hj := by cases hj

/-- An invariant of the page, by one case of `Next` for each event. -/
theorem invariant_of_run (hP : W.platform.Lawful)
    {allowed : Home Pubkey Address → Event Pubkey Address → Prop}
    {Inv : Home Pubkey Address → Prop} (hwf : h.WellFormed W) (hinit : Inv h)
    (hnext : ∀ h e h', h.WellFormed W → Inv h → allowed h e → Next W h e h' → Inv h')
    (hrun : Home.Run W allowed h h') : h'.WellFormed W ∧ Inv h' := by
  induction hrun with
  | refl => exact ⟨hwf, hinit⟩
  | tail _ hstep ih =>
    obtain ⟨e, he, hallowed, rfl⟩ := hstep
    obtain ⟨hwf', hinv⟩ := ih
    have hn := next_apply hP hwf' he
    exact ⟨hn.wellFormed hwf', hnext _ e _ hwf' hinv hallowed hn⟩

theorem Home.WellFormed.run (hP : W.platform.Lawful) (hwf : h.WellFormed W)
    {allowed : Home Pubkey Address → Event Pubkey Address → Prop}
    (hrun : Home.Run W allowed h h') : h'.WellFormed W :=
  (invariant_of_run hP hwf hwf (fun _ _ _ h _ _ hn => hn.wellFormed h) hrun).1

/-! ### A session -/

/-- The page when the session has become `s` and is rendered. -/
def Home.renders (h : Home Pubkey Address) (s : SessionManager) : Home Pubkey Address :=
  { h with
    sessionManager := s
    state := h.state.refresh s
    view := h.state.refresh s
    renderings := h.renderings ++ [h.state.refresh s] }

theorem run_renders {allowed : Home Pubkey Address → Event Pubkey Address → Prop} {s : SessionManager}
    (hs : Connected s.walletPubKey) (hallowed : ∀ h, allowed h (.sessionManager s) ∧ allowed h .refresh ∧
      allowed h .render) (h : Home Pubkey Address) : Home.Run W allowed h (h.renders s) :=
  .tail (.tail (.single ⟨.sessionManager s, hs, (hallowed _).1, rfl⟩)
    ⟨.refresh, trivial, (hallowed _).2.1, rfl⟩) ⟨.render, trivial, (hallowed _).2.2, rfl⟩

theorem connected_none : Connected none := by
  intro v hv
  cases hv

theorem connected_val (w : WalletPubKey) : Connected (some w.val) := by
  intro v hv
  exact ⟨w, Option.some.inj (Option.filter_eq_some_iff.mp hv).1⟩

def sampleDeployment (P : Platform) : Deployment Nat (Nat × Hash) where
  platform := P
  unicode := UnicodeData.basicLatin
  runtime := latinRuntime
  publicKey := samplePublicKey
  localeCompare := sampleCompare
  decoding := .bn
  debug := false

/-- The session when the wallet is connected. -/
def connectedSession (w : WalletPubKey) : SessionManager :=
  { sampleSession with walletPubKey := some w.val }

/-- The page when the wallet has been connected on it and its registry was requested. -/
def Home.connected (accounts : Accounts Nat (Nat × Hash)) (w : WalletPubKey) (tab : WalletTab)
    (message : Option String) : Home Nat (Nat × Hash) where
  accounts
  sessionManager := connectedSession w
  state := ⟨⟨some w.val, none, none⟩, .of (connectedSession w)⟩
  view := ⟨⟨some w.val, none, none⟩, .of (connectedSession w)⟩
  renderings := [⟨⟨none, none, none⟩, .of { sampleSession with walletPubKey := none }⟩,
    ⟨⟨some w.val, none, none⟩, .of (connectedSession w)⟩]
  effects := some ⟨⟨some w.val, none, none⟩, .of (connectedSession w)⟩
  requests := [⟨.effect, w.val, none⟩]
  tab
  page := ⟨[], message, false, none, false⟩
  jobs := []

/-- The page when it is opened with the wallet disconnected. -/
abbrev Home.opened (accounts : Accounts Nat (Nat × Hash)) (b : Browser) : Home Nat (Nat × Hash) :=
  .init accounts { sampleSession with walletPubKey := none } b

theorem runEffects_connected {W : Deployment Nat (Nat × Hash)} (hP : W.platform.Lawful)
    (hdebug : W.debug = false) (accounts : Accounts Nat (Nat × Hash)) (w : WalletPubKey) (b : Browser)
    (env env' : LoadEnv) : ∃ b' message,
      ((Home.opened accounts b).renders (connectedSession w)).runEffects W env env' =
        Home.connected accounts w (Tab.fresh b') message ∧ SamePointers W.platform b b' := by
  obtain ⟨b', message, heq, hsame⟩ := runEffects_gated (W := W)
    (h := (Home.opened accounts b).renders (connectedSession w)) hP (connected_val w)
    (Snapshot.prerequisites_of_locked rfl) env env'
  refine ⟨b', message, ?_, hsame⟩
  have hwallet : Option.filter (fun v => v != "") (some w.val) = some w.val := by
    simp [Option.filter, w.ne]
  rw [heq, enterEffects_page hdebug]
  simp [Home.enterEffects, Home.dedupReset, Home.fetchRegistry, Home.renders, Home.init, Home.connected,
    Snapshot.mount, Snapshot.refresh, Hook.refresh, Hook.runEffect, Snapshot.wallet,
    connectedSession, hwallet]
  rfl

/-- A session of a wallet whose signatures are all `sig`, with its vault unlocked. -/
structure Unlocked (w : WalletPubKey) (sig : Bytes) (s : SessionManager) (pre : Prerequisites) :
    Prop where
  wallet : s.walletPubKey = some w.val
  sig : pre.vaultRootSig = sig
  hasUnlock : Manifest.hasUnlock (unlockValue pre.unlock) = true
  prerequisites : ∀ hook : Hook Nat, hook.walletPubKey = some w.val →
    (Snapshot.mk hook (.of s)).prerequisites = some pre

/-- It is rendered. -/
theorem Unlocked.view {w : WalletPubKey} {sig : Bytes} {s : SessionManager} {pre : Prerequisites}
    (hs : Unlocked w sig s pre) (h : Home Nat (Nat × Hash)) :
    (h.renders s).view.wallet = some w.val ∧ (h.renders s).view.prerequisites = some pre := by
  have hwallet : (h.renders s).view.hook.walletPubKey = some w.val := hs.wallet
  exact ⟨by simp [Snapshot.wallet, hwallet, Option.filter, w.ne], hs.prerequisites _ hwallet⟩

/-- The vault of `w` is unlocked in any session of that wallet. -/
theorem run_sampleUnlock_ok (w : WalletPubKey) (sig : Bytes) {s : SessionManager}
    (hw : s.walletPubKey = some w.val) : ∃ unlock vaultRoot,
      Manifest.hasUnlock (unlockValue unlock) = true ∧
      (sampleEnv fun _ => sig).buildVaultRoot symbolic (some w.val) = .ok vaultRoot ∧
      (unlockVault symbolic sampleDates (sampleEnv fun _ => sig)).run s =
        (unlocked symbolic (sampleEnv fun _ => sig) s unlock sig vaultRoot sig, .ok ()) := by
  obtain ⟨unlock, hunlock⟩ := sampleEnv_unlockSigned symbolic_lawful (fun _ => sig) w.val
  obtain ⟨vaultRoot, hroot⟩ :=
    sampleEnv_vaultRootSigned symbolic_lawful (fun _ => sig) (some w.val)
  rcases run_unlockVault (P := symbolic) (D := sampleDates) (sampleEnv fun _ => sig) hw w.ne with
    ⟨unlock', b, vaultRoot', b', hunlock', hroot', hrun⟩ | ⟨hnone, -⟩
  · have hb := hunlock'.answered.symm.trans (sampleEnv_answer ..)
    have hb' := hroot'.answered.symm.trans (sampleEnv_answer ..)
    simp only [Except.ok.injEq, Option.some.injEq] at hb hb'
    subst hb hb'
    have hbuilt := hunlock'.built
    simp only [UnlockEnv.buildUnlock, bind_eq_ok] at hbuilt
    obtain ⟨_, -, _, -, hbuilt⟩ := hbuilt
    obtain ⟨jcs, hmessage⟩ := buildUnlockMessageV1_message hbuilt
    have hne : unlock'.messageToSign ≠ "" := by
      rw [hmessage]
      intro h
      simpa using congrArg String.length h
    refine ⟨unlock', vaultRoot', ?_, hroot'.built, hrun⟩
    simp [Manifest.hasUnlock, unlockValue, optProp, truthy, hne, UnlockMessageV1.toJson]
  · exact absurd hroot (hnone _ _ _ _ hunlock)

theorem exists_unlocked (w : WalletPubKey) (sig : Bytes) : ∃ s pre, Unlocked w sig s pre := by
  obtain ⟨unlock, vaultRoot, hhas, -⟩ := run_sampleUnlock_ok w sig (s := connectedSession w) rfl
  refine ⟨unlocked symbolic (sampleEnv fun _ => sig) (connectedSession w) unlock sig vaultRoot sig,
    ⟨w.val, sig, unlock⟩, rfl, rfl, hhas, fun hook hhook => ?_⟩
  have hwallet : (Snapshot.mk hook (.of (unlocked symbolic (sampleEnv fun _ => sig)
      (connectedSession w) unlock sig vaultRoot sig))).wallet = some w.val := by
    simp [Snapshot.wallet, hhook, Option.filter, w.ne]
  simp only [Snapshot.prerequisites, Snapshot.isSessionGateOk, hwallet]
  rfl

end SovereignJedi.Pages
