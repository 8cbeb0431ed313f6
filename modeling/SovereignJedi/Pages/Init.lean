import SovereignJedi.Manifest.Concurrent
import SovereignJedi.Pages.Events

/-! Whether the INIT branch is entered for a wallet with a published manifest. The call gets the CID
of the registry that its rendering had, which is none while the registry is fetched and after an
error; so without a local pointer the branch is avoided as long as every call is made from a
rendering with the registry. -/

namespace SovereignJedi.Pages

open Relation
open SovereignJedi.Js SovereignJedi.Async SovereignJedi.Session SovereignJedi.Manifest
open SovereignJedi.Registry

variable {Pubkey Address : Type}

/-- The registry of the wallet has an entry. -/
def Deployment.Published (W : Deployment Pubkey Address) (accounts : Accounts Pubkey Address)
    (w : WalletPubKey) : Prop :=
  ∃ wallet a, W.publicKey w.val = some wallet ∧
    fetchRegistry W.unicode W.runtime accounts wallet "local-default" = some a ∧ a.entries ≠ []

/-- The task is suspended in the INIT branch, which begins with a suspension. -/
def SuspendedInInit {α : Type} (t : Task AwaitPoint WalletTab JsError α) : Prop :=
  ∃ pt ready next, t = .await pt ready next ∧ pt.InInit

/-- The job is a call of the service for `w`. -/
def Job.Serves (w : WalletPubKey) : Job Pubkey → Prop
  | .refresh c _ _ => c.wallet = some w.val
  | .upload _ _ _ => False
  | .append c _ _ => c.wallet = some w.val

/-- A call for `w` that is in the INIT branch. -/
def Job.InInit (w : WalletPubKey) : Job Pubkey → Prop
  | .refresh c _ rest => c.wallet = some w.val ∧ SuspendedInInit rest
  | .upload _ _ _ => False
  | .append c _ rest => c.wallet = some w.val ∧ SuspendedInInit rest

/-- The event calls the service with this snapshot. -/
inductive Event.Calls (W : Deployment Pubkey Address) (h : Home Pubkey Address) :
    Event Pubkey Address → Snapshot Pubkey → Prop
  | effects {env env' : LoadEnv} (hstarts : (h.enterEffects W).Starts W h.view "effect") :
      Calls W h (.runEffects env env') h.view
  | uploaded {i : Nat} {u : Uploaded} {env : AppendEnv} {file : Files.File} {c : Snapshot Pubkey}
      {pre : Prerequisites} (hjob : h.jobs[i]? = some (.upload c pre file)) :
      Calls W h (.uploaded i (.ok u) env) c
  | appended {i : Nat} {env : LoadEnv} {c : Snapshot Pubkey} {p : AppendParams} {r : Json × String}
      (hjob : h.jobs[i]? = some (.append c p (.done (.ok r)))) (hstarts : h.Starts W c "post-append") :
      Calls W h (.settle i env) c

section Informed

variable [DecidableEq Pubkey] [DecidableEq Address] {W : Deployment Pubkey Address}
  {h h' : Home Pubkey Address} {e : Event Pubkey Address} {w : WalletPubKey} {c : Snapshot Pubkey}

/-- Whoever calls the service for a published wallet has a CID of the registry or a local pointer;
and no call is in progress when the first entry is published. -/
structure Event.Informed (W : Deployment Pubkey Address) (h : Home Pubkey Address)
    (e : Event Pubkey Address) : Prop where
  calls : ∀ c w, e.Calls W h c → c.wallet = some w.val → W.Published h.accounts w →
    Covered W.platform w (c.head W) h.tab.data
  first : ∀ ix w, e = .instruction ix → W.Published (execute W.runtime h.accounts ix) w →
    W.Published h.accounts w ∨ ∀ j ∈ h.jobs, ¬ j.Serves w

/-- Whatever the others do, a call for `w` stays out of the INIT branch. -/
def Job.Avoids (W : Deployment Pubkey Address) (w : WalletPubKey) (b : Browser) : Job Pubkey → Prop
  | .refresh c _ rest => c.wallet = some w.val → Covered W.platform w (c.head W) b ∧
      ∀ q, rest.Within (onTab (coveredBounds W.platform w (c.head W))) q
  | .upload _ _ _ => True
  | .append c _ rest => c.wallet = some w.val → Covered W.platform w (c.head W) b ∧
      ∀ q, rest.Within (onTab (coveredBounds W.platform w (c.head W))) q

/-- The calls for a published wallet stay out of the INIT branch. -/
def Home.Avoids (W : Deployment Pubkey Address) (h : Home Pubkey Address) : Prop :=
  ∀ w, W.Published h.accounts w → ∀ j ∈ h.jobs, j.Avoids W w h.tab.data

omit [DecidableEq Pubkey] [DecidableEq Address]

theorem not_suspendedInInit {α : Type} {head : Option String}
    {t : Task AwaitPoint WalletTab JsError α}
    (ht : ∀ q, t.Within (onTab (coveredBounds W.platform w head)) q) : ¬ SuspendedInInit t := by
  rintro ⟨pt, ready, next, rfl, hpt⟩
  exact (Task.within_await.mp (ht none)).1 hpt

theorem Job.Avoids.not_inInit {j : Job Pubkey} {b : Browser} (hj : j.Avoids W w b) : ¬ j.InInit w := by
  cases j with
  | refresh c refreshKey rest => exact fun ⟨hwallet, hinit⟩ => not_suspendedInInit (hj hwallet).2 hinit
  | upload c pre file => exact id
  | append c p rest => exact fun ⟨hwallet, hinit⟩ => not_suspendedInInit (hj hwallet).2 hinit

theorem Job.Avoids.mono {j : Job Pubkey} {b b' : Browser} (hkept : PointersKept W.platform b b')
    (hj : j.Avoids W w b) : j.Avoids W w b' := by
  cases j with
  | refresh c refreshKey rest => exact fun hwallet => ⟨(hj hwallet).1.mono hkept, (hj hwallet).2⟩
  | upload c pre file => trivial
  | append c p rest => exact fun hwallet => ⟨(hj hwallet).1.mono hkept, (hj hwallet).2⟩

theorem Job.avoids_of_not_serves {j : Job Pubkey} {b : Browser} (hj : ¬ j.Serves w) : j.Avoids W w b := by
  cases j with
  | refresh c refreshKey rest => exact fun hwallet => absurd hwallet hj
  | upload c pre file => trivial
  | append c p rest => exact fun hwallet => absurd hwallet hj

theorem Refreshes.avoids {reason : String} {tab : WalletTab} {page : Page} {jobs : List (Job Pubkey)}
    (hr : Refreshes W h c reason tab page jobs)
    (hcalls : h.Starts W c reason → c.wallet = some w.val →
      Covered W.platform w (c.head W) h.tab.data)
    (hjobs : ∀ j ∈ h.jobs, j.Avoids W w h.tab.data) : ∀ j ∈ jobs, j.Avoids W w tab.data := by
  have hkept := hr.kept
  cases hr with
  | gated hpre hsame => exact fun j hj => (hjobs j hj).mono hkept
  | dropped hpre hstarts hsame => exact fun j hj => (hjobs j hj).mono hkept
  | started hstarts hwallet hload =>
    intro j hj
    rcases List.mem_append.mp hj with hj | hj
    · exact (hjobs j hj).mono hkept
    · rw [List.mem_singleton.mp hj]
      intro hw
      obtain rfl := c.wallet_unique hw hwallet
      have hcovered := hcalls hstarts hw
      exact ⟨hcovered.mono hkept, hload.covered hcovered⟩

variable [DecidableEq Pubkey] [DecidableEq Address]

/-- Every informed event keeps the calls for published wallets out of the INIT branch. -/
theorem Home.Avoids.next (hh : h.Avoids W) (hwf : h.WellFormed W) (he : e.Informed W h)
    (hn : Next W h e h') : h'.Avoids W := by
  have hkept := hn.kept hwf
  have hmono : ∀ w, W.Published h.accounts w → ∀ j ∈ h.jobs, j.Avoids W w h'.tab.data :=
    fun w hw j hj => (hh w hw j hj).mono hkept
  cases hn with
  | instruction ix =>
    intro w hw j hj
    rcases he.first ix w rfl hw with hw | hnone
    · exact hh w hw j hj
    · exact Job.avoids_of_not_serves (hnone j hj)
  | quiet requests hs hstate hview hrenderings => exact hh
  | effects hrefreshes =>
    obtain ⟨htab, hjobs, haccounts⟩ := enterEffects_data (W := W) h
    intro w hw
    rw [show _ = h.accounts from haccounts] at hw
    refine hrefreshes.avoids (fun hstarts hwallet => ?_) ?_
    · rw [htab]
      exact he.calls _ w (.effects hstarts) hwallet hw
    · rw [htab, hjobs]
      exact hh w hw
  | handled hwallet hpre =>
    intro w hw j hj
    rcases List.mem_append.mp hj with hj | hj
    · exact hh w hw j hj
    · rw [List.mem_singleton.mp hj]
      trivial
  | uploaded hjob hwallet hpre hcall =>
    refine fun w hw => jobs_set (hmono w hw) _ fun hwallet' => ?_
    obtain rfl := Snapshot.wallet_unique hwallet' hwallet
    have hcovered := he.calls _ w (.uploaded hjob) hwallet hw
    exact ⟨hcovered.mono hkept, hcall.covered hcovered⟩
  | load hjob hready =>
    exact fun w hw => jobs_set (hmono w hw) _ fun hwallet =>
      covered_seg (hh w hw _ (List.mem_of_getElem? hjob) hwallet)
  | append hjob hready =>
    exact fun w hw => jobs_set (hmono w hw) _ fun hwallet =>
      covered_seg (hh w hw _ (List.mem_of_getElem? hjob) hwallet)
  | appended hjob hrefreshes =>
    refine fun w hw => hrefreshes.avoids (fun hstarts hwallet => ?_) (jobs_eraseIdx (hh w hw) _)
    exact he.calls _ w (.appended hjob hstarts) hwallet hw
  | loaded hjob => exact fun w hw => jobs_eraseIdx (hh w hw) _
  | notUploaded hjob => exact fun w hw => jobs_eraseIdx (hh w hw) _
  | notAppended hjob => exact fun w hw => jobs_eraseIdx (hh w hw) _

/-- In every run in which the calls for published wallets are informed, none of them is ever in the
INIT branch. -/
theorem published_not_initialised (hP : W.platform.Lawful) (accounts : Accounts Pubkey Address)
    {s : SessionManager} (hs : Connected s.walletPubKey) (b : Browser)
    (hrun : Home.Run W (fun h e => e.Informed W h) (Home.init accounts s b) h)
    (hw : W.Published h.accounts w) : ∀ j ∈ h.jobs, ¬ j.InInit w := by
  have hinit : (Home.init accounts s b).Avoids W := by
    intro w hw j hj
    cases hj
  obtain ⟨-, hh⟩ := invariant_of_run hP (wellFormed_init accounts hs b) hinit
    (fun _ _ _ hwf hh he hn => hh.next hwf he hn) hrun
  exact fun j hj => (hh w hw j hj).not_inInit

/-! ### An uninformed call -/

omit [DecidableEq Pubkey] [DecidableEq Address]

theorem suspendedInInit_load {P : Platform} {p : LoadParams} (hw : Js.trim p.walletPubKey = w.val)
    (hunlock : hasUnlock p.unlock = true) (hchain : onChainHead p.onChainLatestManifestCid = false)
    (tab : WalletTab) (hcid : manifestCid P w tab.data = none) :
    SuspendedInInit ((onData (loadManifestOrInit P p)).seg tab).2 := by
  rw [seg_onData, seg_loadManifestOrInit_none hw hunlock hchain hcid]
  exact ⟨.load .deriveKek, _, _, rfl, .deriveKek, by decide, rfl⟩

/-- Without a pointer, the effects of a rendering without the registry enter the INIT branch. -/
theorem inInit_runEffects {pre : Prerequisites} (hwallet : h.view.wallet = some w.val)
    (hpre : h.view.prerequisites = some pre) (hunlock : hasUnlock (unlockValue pre.unlock) = true)
    (hstarts : (h.enterEffects W).Starts W h.view "effect")
    (hcid : manifestCid W.platform w h.tab.data = none)
    (hhead : onChainHead (h.view.head W) = false) (env env' : LoadEnv) :
    ∃ j ∈ (h.runEffects W env env').jobs, j.InInit w := by
  have hw : Js.trim (h.view.loadParams W pre env).walletPubKey = w.val := trim_prerequisites hwallet hpre
  have hcid' := (manifestCid_migrated w w h.tab.data).trans hcid
  have hinit := suspendedInInit_load (p := h.view.loadParams W pre env) hw hunlock hhead
    (h.tab.setData (h.tab.data.migrated W.platform w)) hcid'
  rw [runEffects_starts hwallet hpre hstarts, Home.firstLoad, (enterEffects_data (W := W) h).1]
  exact ⟨_, List.mem_append_right _ (List.mem_singleton_self _), hwallet, hinit⟩

end Informed

/-! ### Samples -/

section Samples

variable {W : Deployment Nat (Nat × Hash)} {w : WalletPubKey}

/-- An event that calls nothing. -/
theorem informed_of_quiet {h : Home Nat (Nat × Hash)} {e : Event Nat (Nat × Hash)}
    (hcalls : ∀ c, ¬ e.Calls W h c) (hix : ∀ ix, e ≠ .instruction ix) : e.Informed W h :=
  ⟨fun c _ hc => absurd hc (hcalls c), fun ix _ he => absurd he (hix ix)⟩

theorem informed_renders {s : SessionManager} (h : Home Nat (Nat × Hash)) :
    (Event.sessionManager s).Informed W h ∧ Event.refresh.Informed W h ∧ Event.render.Informed W h := by
  refine ⟨informed_of_quiet ?_ (by simp), informed_of_quiet ?_ (by simp), informed_of_quiet ?_ (by simp)⟩
  all_goals
    intro c hc
    cases hc

/-- The answer to the only request. -/
theorem deliver_single {h : Home Nat (Nat × Hash)} {w : String} {wallet : Nat}
    {a : RegistryAccount Nat} (hrequests : h.requests = [⟨.effect, w, none⟩])
    (hwallet : W.publicKey w = some wallet)
    (ha : fetchRegistry W.unicode W.runtime h.accounts wallet "local-default" = some a) :
    (h.apply W (.respond 0)).apply W (.deliver 0) = { h with
      state := { h.state with hook := { h.state.hook with onChainRegistry := some a } }
      requests := [] } := by
  simp [Home.apply, hrequests, Request.read, hwallet, ha, Hook.settle]

/-- Without a pointer, the wallet unlocks its vault while its registry is still being fetched. -/
theorem inInit_of_pending (hP : W.platform.Lawful) (hdebug : W.debug = false)
    (accounts : Accounts Nat (Nat × Hash)) {b : Browser} (hcid : manifestCid W.platform w b = none) :
    ∃ h, Home.Run W (fun _ _ => True) (Home.opened accounts b) h ∧ h.accounts = accounts ∧
      ∃ j ∈ h.jobs, j.InInit w := by
  obtain ⟨s, pre, hs⟩ := exists_unlocked w sampleSignature
  obtain ⟨b', message, heq, hsame⟩ :=
    runEffects_connected hP hdebug accounts w b sampleLoadEnv sampleLoadEnv
  have hc : Connected (some w.val) := connected_val w
  let h := (Home.connected accounts w (Tab.fresh b') message).renders s
  obtain ⟨hwallet, hpre⟩ := hs.view (Home.connected accounts w (Tab.fresh b') message)
  have hstarts : (h.enterEffects W).Starts W h.view "effect" :=
    starts_of_idle (by rw [hpre]; rfl) hdebug rfl rfl
  refine ⟨h.runEffects W sampleLoadEnv sampleLoadEnv, ?_, ?_, ?_⟩
  · have hconnected : Home.Run W (fun _ _ => True) (Home.opened accounts b)
        (Home.connected accounts w (Tab.fresh b') message) :=
      .tail (run_renders hc (fun _ => ⟨trivial, trivial, trivial⟩) _)
        ⟨.runEffects sampleLoadEnv sampleLoadEnv, trivial, trivial, heq.symm⟩
    exact .tail (hconnected.trans (run_renders (hs.wallet ▸ hc) (fun _ => ⟨trivial, trivial, trivial⟩) _))
      ⟨.runEffects sampleLoadEnv sampleLoadEnv, trivial, trivial, rfl⟩
  · rw [runEffects_starts hwallet hpre hstarts]
    exact (enterEffects_data (W := W) h).2.2
  · exact inInit_runEffects hwallet hpre hs.hasUnlock hstarts ((hsame w).trans hcid) rfl _ _

theorem pending_registry_initialises : ∃ h,
    Run latinRuntime (fun _ => none) (sampleRegistryOf samplePublished) ∧
    Home.Run (sampleDeployment symbolic) (fun _ _ => True)
      (Home.opened (sampleRegistryOf samplePublished) emptyBrowser) h ∧
    (sampleDeployment symbolic).Published h.accounts Files.sampleKey ∧
    manifestCid symbolic Files.sampleKey emptyBrowser = none ∧
    ∃ j ∈ h.jobs, j.InInit Files.sampleKey := by
  have hcid : manifestCid symbolic Files.sampleKey emptyBrowser = none := rfl
  obtain ⟨h, hrun, haccounts, hinit⟩ := inInit_of_pending (W := sampleDeployment symbolic)
    symbolic_lawful rfl (sampleRegistryOf samplePublished) hcid
  refine ⟨h, (run_of_process sample_initRegistry).trans (run_of_process sample_appendManifest), hrun,
    ?_, hcid, hinit⟩
  rw [haccounts]
  exact ⟨7, samplePublished, show samplePublicKey "Wa11et" = some 7 from rfl,
    fetchRegistry_sampleRegistryOf samplePublished, by simp [samplePublished]⟩

/-- The wallet unlocks its vault when its registry has arrived. -/
theorem exists_informed_run (hP : W.platform.Lawful) (hdebug : W.debug = false)
    (accounts : Accounts Nat (Nat × Hash)) (b : Browser) {wallet : Nat} {a : RegistryAccount Nat}
    (hwallet : W.publicKey w.val = some wallet)
    (ha : fetchRegistry W.unicode W.runtime accounts wallet "local-default" = some a)
    (hhead : onChainHead ((Hook.mk (some w.val) (some a) none).head W.localeCompare W.decoding) = true) :
    ∃ h, Home.Run W (Event.Informed W) (Home.opened accounts b) h ∧ h.accounts = accounts ∧
      ∃ j ∈ h.jobs, j.Serves w := by
  obtain ⟨s, pre, hs⟩ := exists_unlocked w sampleSignature
  obtain ⟨b', message, heq, -⟩ :=
    runEffects_connected hP hdebug accounts w b sampleLoadEnv sampleLoadEnv
  have hc : Connected (some w.val) := connected_val w
  have hdeliver := deliver_single (h := Home.connected accounts w (Tab.fresh b') message) rfl hwallet ha
  let h := (((Home.connected accounts w (Tab.fresh b') message).apply W (.respond 0)).apply W (.deliver 0)).renders s
  have hview : h.view = ⟨⟨some w.val, some a, none⟩, .of s⟩ := by
    simp only [h, Home.renders, hdeliver, Snapshot.refresh, Hook.refresh, hs.wallet]
    rfl
  obtain ⟨hviewWallet, hpre⟩ := hs.view
    (((Home.connected accounts w (Tab.fresh b') message).apply W (.respond 0)).apply W (.deliver 0))
  have hstarts : (h.enterEffects W).Starts W h.view "effect" := by
    refine starts_of_idle (by rw [hpre]; rfl) hdebug ?_ ?_
    all_goals
      simp only [h, Home.renders, hdeliver]
      rfl
  have hlocked : ∀ e e' c, ¬ (Event.runEffects e e').Calls W
      ((Home.opened accounts b).renders (connectedSession w)) c := by
    intro e e' c hcalls
    cases hcalls with
    | effects hstarts =>
      have hnone : Snapshot.prerequisites _ = none := Snapshot.prerequisites_of_locked
        (c := ((Home.opened accounts b).renders (connectedSession w)).view) rfl
      simp [Home.Starts, hnone] at hstarts
  refine ⟨h.runEffects W sampleLoadEnv sampleLoadEnv, ?_, ?_, ?_⟩
  · have hconnected : Home.Run W (Event.Informed W) (Home.opened accounts b)
        (Home.connected accounts w (Tab.fresh b') message) :=
      .tail (run_renders hc informed_renders _) ⟨.runEffects sampleLoadEnv sampleLoadEnv, trivial,
        informed_of_quiet (hlocked _ _) (by simp), heq.symm⟩
    have hfetched : Home.Run W (Event.Informed W) (Home.connected accounts w (Tab.fresh b') message)
        (((Home.connected accounts w (Tab.fresh b') message).apply W (.respond 0)).apply W (.deliver 0)) := by
      refine .tail (.single ⟨.respond 0, trivial, informed_of_quiet ?_ (by simp), rfl⟩)
        ⟨.deliver 0, trivial, informed_of_quiet ?_ (by simp), rfl⟩
      all_goals
        intro c hcalls
        cases hcalls
    refine .tail ((hconnected.trans hfetched).trans (run_renders (hs.wallet ▸ hc) informed_renders _))
      ⟨.runEffects sampleLoadEnv sampleLoadEnv, trivial, ⟨fun c w' hcalls _ _ => ?_, by simp⟩, rfl⟩
    cases hcalls with
    | effects => exact Or.inl (hview ▸ hhead)
  · rw [runEffects_starts hviewWallet hpre hstarts]
    refine (enterEffects_data (W := W) h).2.2.trans ?_
    simp only [h, Home.renders, hdeliver]
    rfl
  · rw [runEffects_starts hviewWallet hpre hstarts]
    exact ⟨_, List.mem_append_right _ (List.mem_singleton_self _), hviewWallet⟩

theorem published_not_initialised_sample : ∃ h : Home Nat (Nat × Hash),
    (∃ j ∈ h.jobs, j.Serves Files.sampleKey) ∧ ∀ j ∈ h.jobs, ¬ j.InInit Files.sampleKey := by
  have hwallet : samplePublicKey "Wa11et" = some 7 := rfl
  have hregistry := fetchRegistry_sampleRegistryOf samplePublished
  obtain ⟨h, hrun, haccounts, hserves⟩ := exists_informed_run (W := sampleDeployment symbolic)
    (w := Files.sampleKey) symbolic_lawful rfl (sampleRegistryOf samplePublished) emptyBrowser hwallet
    hregistry (congrArg onChainHead (head_samplePublished "Wa11et"))
  refine ⟨h, hserves, published_not_initialised symbolic_lawful _ ?_ _ hrun ?_⟩
  · exact connected_none
  · rw [haccounts]
    exact ⟨7, samplePublished, hwallet, hregistry, by simp [samplePublished]⟩

end Samples

end SovereignJedi.Pages
