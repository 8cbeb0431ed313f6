import SovereignJedi.Manifest.Concurrent
import SovereignJedi.Pages.Events

/-! The home page as a client of the manifest service. The loads and appends that it waits for are
calls of the service in one tab, whose pointers it also reads for itself; so the page keeps what any
such calls keep. -/

namespace SovereignJedi.Pages

open Relation
open SovereignJedi.Js SovereignJedi.Async SovereignJedi.Session SovereignJedi.Manifest
open SovereignJedi.Registry (Accounts)

variable {Pubkey Address : Type}

/-- A call of the service, with what is left of it. -/
abbrev ServiceThread := Manifest.Call × Task AwaitPoint WalletTab JsError Reply

/-- The call that a job waits for, if any. -/
inductive Job.Waits (W : Deployment Pubkey Address) : Job Pubkey → List ServiceThread → Prop
  | refresh {c : Snapshot Pubkey} {refreshKey : RefreshKey} {pre : Prerequisites} (env : LoadEnv)
      {load : Task AwaitPoint WalletTab JsError LoadResult} {w : WalletPubKey}
      (hwallet : c.wallet = some w.val) (hpre : c.prerequisites = some pre) :
      Job.Waits W (.refresh c refreshKey load) [(.load (c.loadParams W pre env), load.map .load)]
  | upload {c : Snapshot Pubkey} {pre : Prerequisites} {file : Files.File} :
      Job.Waits W (.upload c pre file) []
  | append {c : Snapshot Pubkey} {p : AppendParams} {w : WalletPubKey}
      {append : Task AwaitPoint WalletTab JsError (Json × String)} (hwallet : c.wallet = some w.val)
      (hw : Js.trim p.walletPubKey = w.val) :
      Job.Waits W (.append c p append) [(.append p, append.map fun r => .append r.1 r.2)]

/-- A job that waits for a suspended load is a refresh of that wallet. -/
theorem Job.Waits.of_load {W : Deployment Pubkey Address} {j : Job Pubkey} {p : LoadParams}
    {pt : AwaitPoint} {ready : WalletTab → Bool} {next : Task AwaitPoint WalletTab JsError Reply}
    (h : j.Waits W [(.load p, .await pt ready next)]) : ∃ c refreshKey load,
      j = .refresh c refreshKey (.await pt ready load) ∧ c.wallet = some (Js.trim p.walletPubKey) := by
  generalize hl : [(Manifest.Call.load p, Task.await pt ready next)] = l at h
  cases h with
  | upload => cases hl
  | append => cases hl
  | @refresh c refreshKey pre env load w hwallet hpre =>
    simp only [List.cons.injEq, Prod.mk.injEq, Manifest.Call.load.injEq, and_true] at hl
    obtain ⟨rfl, hawait⟩ := hl
    have hw : Js.trim (c.loadParams W pre env).walletPubKey = w.val :=
      trim_prerequisites hwallet hpre
    cases load with
    | done r => cases r <;> cases hawait
    | sync f n => cases hawait
    | await pt' ready' load =>
      cases hawait
      exact ⟨c, refreshKey, load, rfl, hw ▸ hwallet⟩

/-- The calls that jobs wait for, in their order. -/
inductive Waiting (W : Deployment Pubkey Address) : List (Job Pubkey) → List ServiceThread → Prop
  | nil : Waiting W [] []
  | cons {j : Job Pubkey} {jobs : List (Job Pubkey)} {l ls : List ServiceThread} (hj : j.Waits W l)
      (h : Waiting W jobs ls) : Waiting W (j :: jobs) (l ++ ls)

/-- The page is in the tab of these calls, and its jobs wait for some of them. -/
structure Home.Calls (W : Deployment Pubkey Address) (h : Home Pubkey Address) (p : CallPool) :
    Prop where
  tab : p.state = h.tab
  jobs : ∃ ls rest, Waiting W h.jobs ls ∧ p.threads.Perm (ls ++ rest)

/-- A load or append is resumed only as `resumable` allows. -/
def Event.Resumes (W : Deployment Pubkey Address)
    (resumable : Manifest.Call → AwaitPoint → Browser → Prop) (h : Home Pubkey Address)
    (e : Event Pubkey Address) : Prop :=
  ∀ i j c pt ready next, e = .advance i → h.jobs[i]? = some j →
    j.Waits W [(c, .await pt ready next)] → resumable c pt h.tab.data

section Waiting

variable {W : Deployment Pubkey Address} {jobs : List (Job Pubkey)} {ls l : List ServiceThread}
  {j : Job Pubkey} {i : Nat}

theorem Waiting.concat (h : Waiting W jobs ls) (hj : j.Waits W l) :
    Waiting W (jobs ++ [j]) (ls ++ l) := by
  induction h with
  | nil => simpa using Waiting.cons hj .nil
  | cons hj' _ ih =>
    rw [List.append_assoc]
    exact .cons hj' ih

/-- The call of one job among the others. -/
theorem Waiting.split (h : Waiting W jobs ls) (hj : jobs[i]? = some j) : ∃ l others, j.Waits W l ∧
    ls.Perm (l ++ others) ∧ Waiting W (jobs.eraseIdx i) others ∧ ∀ j' l', j'.Waits W l' →
      ∃ ls', Waiting W (jobs.set i j') ls' ∧ ls'.Perm (l' ++ others) := by
  induction h generalizing i with
  | nil => simp at hj
  | @cons j₀ jobs l₀ ls hj₀ h ih =>
    cases i with
    | zero =>
      obtain rfl := Option.some.inj hj
      exact ⟨l₀, ls, hj₀, .refl _, h, fun j' l' hj' => ⟨l' ++ ls, .cons hj' h, .refl _⟩⟩
    | succ i =>
      obtain ⟨l, others, hl, hperm, herase, hset⟩ := ih hj
      refine ⟨l, l₀ ++ others, hl, (hperm.append_left l₀).trans (List.perm_append_comm_assoc ..),
        .cons hj₀ herase, fun j' l' hj' => ?_⟩
      obtain ⟨ls', hwaiting, hperm'⟩ := hset j' l' hj'
      exact ⟨l₀ ++ ls', .cons hj₀ hwaiting,
        (hperm'.append_left l₀).trans (List.perm_append_comm_assoc ..)⟩

/-- A place of `x` in a list, where it may be replaced. -/
theorem exists_place {α : Type} {l : List α} {x : α} {others : List α} (h : l.Perm (x :: others)) :
    ∃ i, l[i]? = some x ∧ ∀ x', (l.set i x').Perm (x' :: others) := by
  obtain ⟨s, t, rfl⟩ := List.append_of_mem (h.symm.subset List.mem_cons_self)
  have hothers : (s ++ t).Perm others := (List.perm_middle.symm.trans h).cons_inv
  refine ⟨s.length, by simp, fun x' => ?_⟩
  rw [List.set_append_right _ _ (Nat.le_refl _), Nat.sub_self]
  exact List.perm_middle.trans (hothers.cons x')

end Waiting

/-! ### Steps -/

section Steps

variable {W : Deployment Pubkey Address} {h : Home Pubkey Address} {p : CallPool}
  {j : Job Pubkey} {i : Nat} {resumable : Manifest.Call → AwaitPoint → Browser → Prop}

/-- A call of the tab and its new thread. -/
theorem tabStep_call {c : Manifest.Call} {w : WalletPubKey} (hw : Js.trim c.walletPubKey = w.val)
    (p : CallPool) : TabStep W.platform resumable p (p.call (Call.body W.platform) c) :=
  .turn (.call c ⟨w, hw⟩)

theorem Home.Calls.same {h' : Home Pubkey Address} (hc : h.Calls W p) (htab : h'.tab = h.tab)
    (hjobs : h'.jobs = h.jobs) : h'.Calls W p := by
  obtain ⟨ls, rest, hwaiting, hperm⟩ := hc.jobs
  exact ⟨hc.tab.trans htab.symm, ls, rest, hjobs ▸ hwaiting, hperm⟩

/-- A job is done with. -/
theorem Home.Calls.erase (hc : h.Calls W p) (hj : h.jobs[i]? = some j) :
    Home.Calls W { h with jobs := h.jobs.eraseIdx i } p := by
  obtain ⟨ls, rest, hwaiting, hperm⟩ := hc.jobs
  obtain ⟨l, others, -, hls, herase, -⟩ := hwaiting.split hj
  refine ⟨hc.tab, others, l ++ rest, herase, hperm.trans ((hls.append_right rest).trans ?_)⟩
  rw [List.append_assoc]
  exact List.perm_append_comm_assoc ..

/-- A job is added, with the call that it waits for. -/
theorem Home.Calls.concat {l : List ServiceThread} (hc : h.Calls W p) (hj : j.Waits W l)
    (tab : WalletTab) : Home.Calls W { h with tab, jobs := h.jobs ++ [j] } ⟨tab, p.threads ++ l⟩ := by
  obtain ⟨ls, rest, hwaiting, hperm⟩ := hc.jobs
  refine ⟨rfl, ls ++ l, rest, hwaiting.concat hj, (hperm.append_right l).trans ?_⟩
  rw [List.append_assoc, List.append_assoc]
  exact List.perm_append_comm.append_left ls

/-- A job goes on to its first call. -/
theorem Home.Calls.begin {j' : Job Pubkey} {x : ServiceThread} (hc : h.Calls W p)
    (hj : h.jobs[i]? = some j) (hnone : ∀ l, j.Waits W l → l = []) (hj' : j'.Waits W [x])
    (tab : WalletTab) :
    Home.Calls W { h with tab, jobs := h.jobs.set i j' } ⟨tab, p.threads ++ [x]⟩ := by
  obtain ⟨ls, rest, hwaiting, hperm⟩ := hc.jobs
  obtain ⟨l, others, hl, hls, -, hset⟩ := hwaiting.split hj
  obtain rfl := hnone l hl
  obtain ⟨ls', hwaiting', hls'⟩ := hset j' [x] hj'
  refine ⟨rfl, ls', rest, hwaiting', ?_⟩
  have hadded : (p.threads ++ [x]).Perm ([x] ++ (ls ++ rest)) :=
    List.perm_append_comm.trans (hperm.append_left [x])
  refine hadded.trans (List.Perm.trans ?_ (hls'.symm.append_right rest))
  rw [List.append_assoc]
  exact (hls.append_right rest).append_left [x]

/-- The call that a job waits for is resumed. -/
theorem Home.Calls.resume {α : Type} {next : Task AwaitPoint WalletTab JsError α} {pt : AwaitPoint}
    {ready : WalletTab → Bool} (job : Task AwaitPoint WalletTab JsError α → Job Pubkey) (f : α → Reply)
    (hc : h.Calls W p) (hj : h.jobs[i]? = some j)
    (hwaits : ∀ l, j.Waits W l → ∃ c, l = [(c, .await pt ready (next.map f))] ∧
      ∀ t, (job t).Waits W [(c, t.map f)])
    (hready : ready h.tab = true)
    (hr : ∀ c, j.Waits W [(c, .await pt ready (next.map f))] → resumable c pt h.tab.data) :
    ∃ q, TabStep W.platform resumable p q ∧ Home.Calls W { h with
      tab := (next.seg h.tab).1, jobs := h.jobs.set i (job (next.seg h.tab).2) } q := by
  obtain ⟨ls, rest, hwaiting, hperm⟩ := hc.jobs
  obtain ⟨l, others, hl, hls, -, hset⟩ := hwaiting.split hj
  obtain ⟨c, rfl, hjob⟩ := hwaits l hl
  obtain ⟨k, hk, hplace⟩ := exists_place (hperm.trans (hls.append_right rest))
  obtain ⟨ls', hwaiting', hls'⟩ := hset _ _ (hjob (next.seg h.tab).2)
  refine ⟨p.resume k c (next.map f), .turn (.resume k c pt ready _ hk (hc.tab ▸ hready) ?_), ?_⟩
  · rw [hc.tab]
    exact hr c hl
  · rw [Pool.resume, Task.seg_map, hc.tab]
    exact ⟨rfl, ls', rest, hwaiting', (hplace _).trans (hls'.symm.append_right rest)⟩

/-- What a job waits for is a thread of the tab. -/
theorem Home.Calls.thread (hc : h.Calls W p) (hj : h.jobs[i]? = some j) :
    ∃ l, j.Waits W l ∧ ∀ x ∈ l, ∃ k : Nat, p.threads[k]? = some x := by
  obtain ⟨ls, rest, hwaiting, hperm⟩ := hc.jobs
  obtain ⟨l, others, hl, hls, -⟩ := hwaiting.split hj
  refine ⟨l, hl, fun x hx => List.mem_iff_getElem?.mp (hperm.symm.subset ?_)⟩
  exact List.mem_append_left rest (hls.symm.subset (List.mem_append_left others hx))

/-- A refresh reads the pointer, and may call the service. -/
theorem Home.Calls.refreshes {c : Snapshot Pubkey} {reason : String} {tab : WalletTab} {page : Page}
    {jobs : List (Job Pubkey)} (hc : h.Calls W p) (hr : Refreshes W h c reason tab page jobs) :
    ∃ q, ReflTransGen (TabStep W.platform resumable) p q ∧
      Home.Calls W { h with tab, page, jobs } q := by
  have hreads : ∀ {b : Browser}, SamePointers W.platform h.tab.data b →
      TabStep W.platform resumable p ⟨h.tab.setData b, p.threads⟩ := fun hsame => by
    rw [← hc.tab] at hsame ⊢
    exact .reads hsame
  cases hr with
  | gated hpre hsame => exact ⟨_, .single (hreads hsame), rfl, hc.jobs⟩
  | dropped hpre hstarts hsame => exact ⟨_, .single (hreads hsame), rfl, hc.jobs⟩
  | @started w tab rest hstarts hwallet hload =>
    obtain ⟨pre, env, b, hpre, hsame, hseg⟩ := hload.call
    have hw : Js.trim (Manifest.Call.load (c.loadParams W pre env)).walletPubKey = w.val :=
      trim_prerequisites hwallet hpre
    refine ⟨_, .tail (.single (hreads hsame)) (tabStep_call hw _), ?_⟩
    rw [Pool.call, Call.body, Task.seg_map, hseg]
    exact (hc.concat (.refresh env hwallet hpre) tab).same rfl rfl

end Steps

/-- The jobs of the page wait for calls that a run in the tab has made from `p` on. -/
def Home.InTab (W : Deployment Pubkey Address)
    (resumable : Manifest.Call → AwaitPoint → Browser → Prop) (p : CallPool)
    (h : Home Pubkey Address) : Prop :=
  ∃ q, ReflTransGen (TabStep W.platform resumable) p q ∧ h.Calls W q

/-- A turn of an append keeps what the pointer of its wallet holds. -/
theorem Home.InTab.append_keeps {W : Deployment Pubkey Address} {h : Home Pubkey Address} {b : Browser}
    (hP : W.platform.Lawful) (hA : W.platform.IdealAead)
    (hh : h.InTab W (fun _ _ _ => True) (.init (Tab.fresh b)))
    {i : Nat} {c : Snapshot Pubkey} {a : AppendParams} {pt : AwaitPoint} {ready : WalletTab → Bool}
    {next : Task AwaitPoint WalletTab JsError (Json × String)}
    (hjob : h.jobs[i]? = some (.append c a (.await pt ready next))) (hready : ready h.tab = true)
    {w : WalletPubKey} (hwallet : c.wallet = some w.val) :
    Keeps W.platform w h.tab.data (next.seg h.tab).1.data := by
  obtain ⟨p, hp, hc⟩ := hh
  obtain ⟨l, hl, hthread⟩ := hc.thread hjob
  cases hl with
  | append hwallet' hw =>
    obtain rfl := c.wallet_unique hwallet hwallet'
    obtain ⟨k, hk⟩ := hthread _ (List.mem_singleton_self _)
    have hkeeps : Keeps W.platform w p.state.data
        ((next.map fun r => Reply.append r.1 r.2).seg p.state).1.data :=
      Manifest.append_keeps hP hA hp hw hk (hc.tab ▸ hready)
    rwa [Task.seg_map, hc.tab] at hkeeps

variable [DecidableEq Pubkey] [DecidableEq Address] {W : Deployment Pubkey Address}
  {h h' : Home Pubkey Address} {e : Event Pubkey Address} {p : CallPool}
  {resumable : Manifest.Call → AwaitPoint → Browser → Prop}

/-- An event makes turns of the tab. -/
theorem Home.Calls.next (hc : h.Calls W p) (he : e.Resumes W resumable h) (hn : Next W h e h') :
    ∃ q, ReflTransGen (TabStep W.platform resumable) p q ∧ h'.Calls W q := by
  cases hn with
  | instruction ix => exact ⟨p, .refl, hc.same rfl rfl⟩
  | quiet requests hs hstate hview hrenderings => exact ⟨p, .refl, hc.same rfl rfl⟩
  | effects hrefreshes =>
    obtain ⟨htab, hjobs, -⟩ := enterEffects_data (W := W) h
    exact (hc.same htab hjobs).refreshes hrefreshes
  | @handled k file c pre w hwallet hpre =>
    refine ⟨p, .refl, ?_⟩
    have hadded := hc.concat (j := .upload c pre file) .upload h.tab
    rw [List.append_nil, ← hc.tab] at hadded
    exact hadded.same hc.tab.symm rfl
  | @uploaded i u env file c pre w tab rest hjob hwallet hpre hcall =>
    have hw : Js.trim (Manifest.Call.append (c.appendParams W pre file u env)).walletPubKey = w.val :=
      hcall.wallet
    refine ⟨_, .single (tabStep_call hw p), ?_⟩
    rw [Pool.call, Call.body, Task.seg_map, hc.tab, hcall.call]
    exact hc.begin hjob (fun l hl => by cases hl; rfl) (.append hwallet hcall.wallet) tab
  | @load i c refreshKey pt ready next hjob hready =>
    have hwaits : ∀ l, (Job.refresh c refreshKey (.await pt ready next)).Waits W l →
        ∃ call, l = [(call, .await pt ready (next.map .load))] ∧
          ∀ t, (Job.refresh c refreshKey t).Waits W [(call, t.map .load)] := fun l hl => by
      cases hl with
      | refresh env hwallet hpre => exact ⟨_, rfl, fun t => .refresh env hwallet hpre⟩
    obtain ⟨q, hstep, hq⟩ := hc.resume (.refresh c refreshKey) .load hjob hwaits hready
      fun call hcall => he i _ call pt ready _ rfl hjob hcall
    exact ⟨q, .single hstep, hq⟩
  | @append i c a pt ready next hjob hready =>
    have hwaits : ∀ l, (Job.append c a (.await pt ready next)).Waits W l →
        ∃ call, l = [(call, .await pt ready (next.map fun r => .append r.1 r.2))] ∧
          ∀ t, (Job.append c a t).Waits W [(call, t.map fun r => .append r.1 r.2)] := fun l hl => by
      cases hl with
      | append hwallet hw => exact ⟨_, rfl, fun t => .append hwallet hw⟩
    obtain ⟨q, hstep, hq⟩ := hc.resume (.append c a) (fun r => .append r.1 r.2) hjob hwaits hready
      fun call hcall => he i _ call pt ready _ rfl hjob hcall
    exact ⟨q, .single hstep, hq⟩
  | loaded hjob => exact ⟨p, .refl, (hc.erase hjob).same rfl rfl⟩
  | appended hjob hrefreshes => exact (hc.erase hjob).refreshes hrefreshes
  | notUploaded hjob => exact ⟨p, .refl, (hc.erase hjob).same rfl rfl⟩
  | notAppended hjob => exact ⟨p, .refl, (hc.erase hjob).same rfl rfl⟩

omit [DecidableEq Pubkey] [DecidableEq Address] in
theorem calls_init (accounts : Accounts Pubkey Address) (s : SessionManager) (b : Browser) :
    (Home.init accounts s b).Calls W (.init (Tab.fresh b)) :=
  ⟨rfl, [], [], .nil, .refl _⟩

theorem Home.InTab.next (hh : h.InTab W resumable p) (he : e.Resumes W resumable h)
    (hn : Next W h e h') : h'.InTab W resumable p := by
  obtain ⟨q, hq, hc⟩ := hh
  obtain ⟨q', hq', hc'⟩ := hc.next he hn
  exact ⟨q', hq.trans hq', hc'⟩

/-- The page is a client of the service: in every run its loads and appends are calls in one tab. -/
theorem Home.Calls.run (hP : W.platform.Lawful) (hwf : h.WellFormed W) (hc : h.Calls W p)
    (hrun : Home.Run W (fun h e => e.Resumes W resumable h) h h') : h'.InTab W resumable p :=
  (invariant_of_run hP hwf ⟨p, .refl, hc⟩ (fun _ _ _ _ hh he hn => hh.next he hn) hrun).2

end SovereignJedi.Pages
