import SovereignJedi.Manifest.Storage

/-! The pointers of several clusters in one storage. The key of a pointer and the RPC of the registry
are chosen by one environment variable, but by two rules: without it the key is that of `devnet` and
the RPC that of `localnet`. Besides, an item without cluster is copied to every cluster that asks for
it. -/

namespace SovereignJedi.Manifest

open SovereignJedi.Js

inductive SolanaCluster where
  | localnet | devnet | mainnetBeta
  deriving DecidableEq, Repr

/-- The cluster of the RPC; `cluster` is `NEXT_PUBLIC_SOLANA_CLUSTER`. -/
def getSolanaCluster (cluster : Option String) : SolanaCluster :=
  match cluster with
  | none => .localnet
  | some c =>
    if c = "devnet" then .devnet
    else if c = "mainnet-beta" then .mainnetBeta
    else .localnet

/-- `hasRemoveItem` tells whether the storage has a `removeItem`. -/
def removeManifestCid (hasRemoveItem : Bool) (cluster : Option String) (walletPubKey : String)
    (s : LocalStorage) : Result LocalStorage := do
  let pk ← canonicalizeWalletPubKey walletPubKey
  let key ← buildManifestStorageKey cluster pk
  return if hasRemoveItem then Function.update s key none else setItem s key ""

/-! ### Runs -/

/-- A call for the wallet `w`. -/
inductive PointerCall where
  | get (w : WalletPubKey)
  | set (w : WalletPubKey) (cid : String)
  | remove (w : WalletPubKey)

/-- A call under the value `cluster` of the variable, and the storage that it finds. -/
structure PointerEvent where
  cluster : Option String
  call : PointerCall
  before : LocalStorage

section Runs

variable (hasRemoveItem : Bool)

/-- The storage after a call, and the CID that a `getManifestCid` returns. A call that throws leaves
the storage as it was. -/
def PointerEvent.outcome (e : PointerEvent) : LocalStorage × Option String :=
  match e.call with
  | .get w =>
    match getManifestCid e.cluster w.val e.before with
    | .ok (s, cid) => (s, cid)
    | .error _ => (e.before, none)
  | .set w cid =>
    match setManifestCid e.cluster w.val cid e.before with
    | .ok s => (s, none)
    | .error _ => (e.before, none)
  | .remove w =>
    match removeManifestCid hasRemoveItem e.cluster w.val e.before with
    | .ok s => (s, none)
    | .error _ => (e.before, none)

/-- The calls of a run, each with the storage that it finds. -/
def pointerEvents : LocalStorage → List (Option String × PointerCall) → List PointerEvent
  | _, [] => []
  | s, (cluster, call) :: rest =>
    let e : PointerEvent := ⟨cluster, call, s⟩
    e :: pointerEvents (e.outcome hasRemoveItem).1 rest

def PointerEvent.returned (e : PointerEvent) : Option String := (e.outcome hasRemoveItem).2

end Runs

/-- The cluster whose RPC is used at the time of the call. -/
def PointerEvent.effective (e : PointerEvent) : SolanaCluster := getSolanaCluster e.cluster

/-- Without a value, the two rules differ. -/
def Missing (cluster : Option String) : Prop := cluster = none ∨ cluster = some ""

/-- The pointers of two clusters do not mix, where the variable has values in `used`. A CID that is
returned has been set under the same cluster, or was stored at the start under the key that names
it, or it comes from the item without cluster and no other cluster returns it. -/
structure ClustersApart (hasRemoveItem : Bool) (used : Option String → Prop) (s₀ : LocalStorage)
    (events : List PointerEvent) : Prop where
  provenance : ∀ earlier e later w v, events = earlier ++ e :: later → e.call = .get w →
    e.returned hasRemoveItem = some v →
      (∃ e' ∈ earlier, ∃ cid, e'.call = .set w cid ∧ e'.effective = e.effective ∧ trim cid = v) ∨
      (¬ Missing e.cluster ∧ cidFound (s₀ (scopedKey e.cluster w.val)) = some v) ∨
      (cidFound (s₀ (legacyKey w.val)) = some v ∧ ∀ e' ∈ events, e'.call = .get w →
        e'.effective ≠ e.effective → e'.returned hasRemoveItem ≠ some v)
  frame : ∀ e ∈ events, ∀ c w, used c → getSolanaCluster c ≠ e.effective →
    PointerEvent.returned hasRemoveItem ⟨c, .get w, (e.outcome hasRemoveItem).1⟩ =
      PointerEvent.returned hasRemoveItem ⟨c, .get w, e.before⟩

/-- A `getManifestCid` that finds no item of its cluster, and the item `legacy` without cluster. -/
structure Adopts (e : PointerEvent) (w : WalletPubKey) (legacy : String) : Prop where
  call : e.call = .get w
  missing : e.before (scopedKey e.cluster w.val) = none
  found : e.before (legacyKey w.val) = some legacy
  notBlank : trim legacy ≠ ""

/-- No cluster adopts a CID that another one returns: there a `getManifestCid` finds an item of its
cluster with another CID. -/
def LegacyApart (events : List PointerEvent) : Prop :=
  ∀ e ∈ events, ∀ e' ∈ events, ∀ w legacy, Adopts e w legacy → e'.call = .get w →
    e'.effective ≠ e.effective →
      ∃ raw, e'.before (scopedKey e'.cluster w.val) = some raw ∧ trim raw ≠ trim legacy

/-- Without the variable, no `getManifestCid` finds the CID that the key of `devnet` had at the
start. -/
def InitialApart (s₀ : LocalStorage) (events : List PointerEvent) : Prop :=
  ∀ e ∈ events, ∀ w v, Missing e.cluster → e.call = .get w →
    cidFound (e.before (scopedKey e.cluster w.val)) = some v →
      cidFound (s₀ (scopedKey e.cluster w.val)) ≠ some v

/-- The two rules for a missing variable do not meet. -/
def NoMissing (used : Option String → Prop) : Prop :=
  ¬ ((used none ∨ used (some "")) ∧ used (some "devnet"))

/-! ### Keys -/

/-- A key tells its cluster and its wallet. -/
theorem scopedKey_inj {c c' : Option String} {w w' : WalletPubKey}
    (h : scopedKey c w.val = scopedKey c' w'.val) :
    storageCluster c = storageCluster c' ∧ w = w' := by
  have hlist := congrArg (fun s => s.toList.reverse) h
  simp only [scopedKey, String.toList_append, List.reverse_append, String.reduceToList,
    List.reverse_cons, List.reverse_nil, List.nil_append, List.singleton_append] at hlist
  have hw : ':' ∉ w.val.toList.reverse := by simpa using w.no_colon
  have hw' : ':' ∉ w'.val.toList.reverse := by simpa using w'.no_colon
  obtain ⟨hval, hcluster⟩ := append_cons_injective hw hw' hlist
  refine ⟨String.toList_inj.mp (List.reverse_injective ?_), WalletPubKey.val_injective
    (String.toList_inj.mp (List.reverse_injective hval))⟩
  exact List.append_cancel_right hcluster

theorem cluster_cases (c : Option String) :
    ((c = none ∨ c = some "") ∧ storageCluster c = "devnet" ∧ getSolanaCluster c = .localnet) ∨
      ∃ n, c = some n ∧ storageCluster c = n := by
  cases c with
  | none => exact Or.inl ⟨Or.inl rfl, rfl, rfl⟩
  | some n =>
    by_cases hn : n = ""
    · subst hn
      exact Or.inl ⟨Or.inr rfl, rfl, rfl⟩
    · exact Or.inr ⟨n, rfl, by simp [storageCluster, hn]⟩

/-- Where the two rules for a missing variable do not meet, a key belongs to one cluster. -/
theorem effective_eq {used : Option String → Prop} (h : NoMissing used) {c c' : Option String}
    (hc : used c) (hc' : used c') (hkey : storageCluster c = storageCluster c') :
    getSolanaCluster c = getSolanaCluster c' := by
  have hmeet : ∀ {a b : Option String}, used a → used b → (a = none ∨ a = some "") →
      b ≠ some "devnet" := by
    rintro a b ha hb (rfl | rfl) rfl
    · exact h ⟨Or.inl ha, hb⟩
    · exact h ⟨Or.inr ha, hb⟩
  rcases cluster_cases c with ⟨hmissing, hname, hlocal⟩ | ⟨n, rfl, hname⟩ <;>
    rcases cluster_cases c' with ⟨hmissing', hname', hlocal'⟩ | ⟨n', rfl, hname'⟩
  · rw [hlocal, hlocal']
  · exact absurd (by rw [← hname', ← hkey, hname]) (hmeet hc hc' hmissing)
  · exact absurd (by rw [← hname, hkey, hname']) (hmeet hc' hc hmissing')
  · rw [← hname, hkey, hname']

/-! ### Calls -/

section Calls

variable {hasRemoveItem : Bool} {e : PointerEvent} {w : WalletPubKey}

def PointerCall.wallet : PointerCall → WalletPubKey
  | .get w => w
  | .set w _ => w
  | .remove w => w

theorem outcome_get (h : e.call = .get w) :
    e.outcome hasRemoveItem = (migrate e.cluster w.val e.before, pointer e.cluster w e.before) := by
  simp only [PointerEvent.outcome, h, getManifestCid_val]

theorem returned_get (c : Option String) (w : WalletPubKey) (s : LocalStorage) :
    PointerEvent.returned hasRemoveItem ⟨c, .get w, s⟩ = pointer c w s := by
  rw [PointerEvent.returned, outcome_get (w := w) rfl]

theorem outcome_set {cid : String} (h : e.call = .set w cid) : e.outcome hasRemoveItem =
    (if trim cid = "" then e.before
      else setItem e.before (scopedKey e.cluster w.val) (trim cid), none) := by
  by_cases hblank : trim cid = "" <;> simp [PointerEvent.outcome, h, setManifestCid, hblank]

theorem outcome_remove (h : e.call = .remove w) : e.outcome hasRemoveItem =
    (if hasRemoveItem then Function.update e.before (scopedKey e.cluster w.val) none
      else setItem e.before (scopedKey e.cluster w.val) "", none) := by
  simp only [PointerEvent.outcome, h, removeManifestCid]
  simp

theorem migrate_cases (c : Option String) (pk : String) (s : LocalStorage) :
    migrate c pk s = s ∨ ∃ legacy, s (scopedKey c pk) = none ∧ s (legacyKey pk) = some legacy ∧
      trim legacy ≠ "" ∧ migrate c pk s = setItem s (scopedKey c pk) legacy := by
  unfold migrate
  split
  · rename_i legacy hs hl
    split
    · exact Or.inl rfl
    · rename_i hblank
      exact Or.inr ⟨legacy, hs, hl, hblank, rfl⟩
  · exact Or.inl rfl

/-- The item that a call leaves for its cluster and wallet: the one that was there, none or a blank
one, the CID that it sets, or the adopted one. -/
theorem outcome_item (e : PointerEvent) {raw : String}
    (h : (e.outcome hasRemoveItem).1 (scopedKey e.cluster e.call.wallet.val) = some raw) :
    e.before (scopedKey e.cluster e.call.wallet.val) = some raw ∨ raw = "" ∨
      (∃ cid, e.call = .set e.call.wallet cid ∧ trim cid = raw) ∨
      Adopts e e.call.wallet raw := by
  cases hcall : e.call with
  | get w =>
    rw [outcome_get hcall, hcall] at h
    simp only [PointerCall.wallet] at h ⊢
    rcases migrate_cases e.cluster w.val e.before with hsame | ⟨legacy, hs, hl, hblank, hset⟩
    · rw [hsame] at h
      exact Or.inl h
    · rw [hset] at h
      obtain rfl : legacy = raw := by simpa [setItem] using h
      exact Or.inr (Or.inr (Or.inr ⟨hcall, hs, hl, hblank⟩))
  | set w cid =>
    rw [outcome_set hcall, hcall] at h
    simp only [PointerCall.wallet] at h ⊢
    split at h
    · exact Or.inl h
    · exact Or.inr (Or.inr (Or.inl ⟨cid, rfl, by simpa [setItem] using h⟩))
  | remove w =>
    rw [outcome_remove hcall, hcall] at h
    simp only [PointerCall.wallet] at h ⊢
    cases hasRemoveItem with
    | true => simp at h
    | false => exact Or.inr (Or.inl (by simpa [setItem] using h.symm))

/-- A call writes to the key of its cluster and wallet only. -/
theorem outcome_other (e : PointerEvent) {k : String}
    (hk : k ≠ scopedKey e.cluster e.call.wallet.val) : (e.outcome hasRemoveItem).1 k = e.before k := by
  cases hcall : e.call with
  | get w =>
    rw [hcall] at hk
    rw [outcome_get hcall]
    rcases migrate_cases e.cluster w.val e.before with hsame | ⟨legacy, -, -, -, hset⟩
    · rw [hsame]
    · rw [hset]
      exact Function.update_of_ne hk _ _
  | set w cid =>
    rw [hcall] at hk
    rw [outcome_set hcall]
    dsimp only
    split
    · rfl
    · exact Function.update_of_ne hk _ _
  | remove w =>
    rw [hcall] at hk
    rw [outcome_remove hcall]
    dsimp only
    split <;> exact Function.update_of_ne hk _ _

end Calls

/-! ### Where the items come from -/

section Origin

variable {hasRemoveItem : Bool} {s₀ : LocalStorage}

/-- How the CID `v` has come to the key of the cluster `c` and the wallet `w`, after `past`. -/
inductive Origin (s₀ : LocalStorage) (past : List PointerEvent) (c : Option String)
    (w : WalletPubKey) (v : String) : Prop
  | set (e : PointerEvent) (he : e ∈ past) (cid : String) (hcall : e.call = .set w cid)
      (hkey : storageCluster e.cluster = storageCluster c) (hv : trim cid = v)
  | initial (h : cidFound (s₀ (scopedKey c w.val)) = some v)
  | adopted (e : PointerEvent) (he : e ∈ past) (legacy : String) (h : Adopts e w legacy)
      (hkey : storageCluster e.cluster = storageCluster c) (hv : trim legacy = v)
      (hstart : cidFound (s₀ (legacyKey w.val)) = some v)

theorem Origin.mono {past later : List PointerEvent} {c : Option String} {w : WalletPubKey}
    {v : String} (h : Origin s₀ past c w v) : Origin s₀ (past ++ later) c w v := by
  cases h with
  | set e he cid hcall hkey hv => exact .set e (List.mem_append_left _ he) cid hcall hkey hv
  | initial h => exact .initial h
  | adopted e he legacy h hkey hv hstart =>
    exact .adopted e (List.mem_append_left _ he) legacy h hkey hv hstart

/-- The storage after `past`: items without cluster are never written, and all others have an
origin. -/
structure Recorded (s₀ : LocalStorage) (past : List PointerEvent) (s : LocalStorage) : Prop where
  legacy : ∀ w : WalletPubKey, s (legacyKey w.val) = s₀ (legacyKey w.val)
  origin : ∀ c (w : WalletPubKey) v, cidFound (s (scopedKey c w.val)) = some v →
    Origin s₀ past c w v

theorem Recorded.start (s₀ : LocalStorage) : Recorded s₀ [] s₀ :=
  ⟨fun _ => rfl, fun _ _ _ h => .initial h⟩

theorem cidFound_eq_some {raw : Option String} {v : String} (h : cidFound raw = some v) :
    ∃ r, raw = some r ∧ trim r = v ∧ v ≠ "" := by
  cases raw with
  | none => cases h
  | some r =>
    rw [cidFound, Option.bind_some] at h
    split at h
    · cases h
    · rename_i hne
      obtain rfl := Option.some.inj h
      exact ⟨r, rfl, rfl, hne⟩

theorem Recorded.step (hasRemoveItem : Bool) {past : List PointerEvent} {e : PointerEvent}
    (h : Recorded s₀ past e.before) : Recorded s₀ (past ++ [e]) (e.outcome hasRemoveItem).1 := by
  constructor
  · intro w
    rw [outcome_other e (scopedKey_ne_legacyKey _ _ _).symm, h.legacy w]
  · intro c w v hv
    by_cases hkey : scopedKey c w.val = scopedKey e.cluster e.call.wallet.val
    · obtain ⟨hcluster, hw⟩ := scopedKey_inj hkey
      obtain ⟨raw, hraw, htrim, hne⟩ := cidFound_eq_some hv
      rw [hkey] at hraw
      rcases outcome_item e hraw with hsame | rfl | ⟨cid, hset, hcid⟩ | hadopts
      · refine (h.origin c w v ?_).mono
        rw [hkey, hsame, ← hraw, ← hkey, hv]
      · exact absurd htrim.symm hne
      · rw [← hw] at hset
        refine .set e (by simp) cid hset hcluster.symm ?_
        rw [← htrim, ← hcid, trim_trim]
      · rw [← hw] at hadopts
        refine .adopted e (by simp) raw hadopts hcluster.symm htrim ?_
        rw [← h.legacy, hadopts.found, ← htrim]
        simp [cidFound, hadopts.notBlank]
    · rw [outcome_other e hkey] at hv
      exact (h.origin c w v hv).mono

/-- In a run every call finds a storage whose items have an origin. -/
theorem Recorded.run {past earlier later : List PointerEvent} {e : PointerEvent} {s : LocalStorage}
    {calls : List (Option String × PointerCall)}
    (hsplit : pointerEvents hasRemoveItem s calls = earlier ++ e :: later)
    (h : Recorded s₀ past s) : Recorded s₀ (past ++ earlier) e.before := by
  induction calls generalizing s past earlier with
  | nil => simp [pointerEvents] at hsplit
  | cons call calls ih =>
    obtain ⟨cluster, call⟩ := call
    rw [pointerEvents] at hsplit
    cases earlier with
    | nil =>
      obtain ⟨rfl, -⟩ := List.cons.inj hsplit
      simpa using h
    | cons e' earlier =>
      obtain ⟨rfl, hrest⟩ := List.cons.inj hsplit
      have hnext := ih hrest (h.step hasRemoveItem)
      simpa using hnext

theorem used_of_mem {used : Option String → Prop} {calls : List (Option String × PointerCall)}
    (hcalls : ∀ call ∈ calls, used call.1) {s : LocalStorage} {e : PointerEvent}
    (he : e ∈ pointerEvents hasRemoveItem s calls) : used e.cluster := by
  induction calls generalizing s with
  | nil => simp [pointerEvents] at he
  | cons call calls ih =>
    rw [List.forall_mem_cons] at hcalls
    rw [pointerEvents, List.mem_cons] at he
    rcases he with rfl | he
    · exact hcalls.1
    · exact ih hcalls.2 he

/-- A storage without items of the old form. -/
theorem LegacyApart.of_none (h : ∀ w : WalletPubKey, s₀ (legacyKey w.val) = none)
    (calls : List (Option String × PointerCall)) :
    LegacyApart (pointerEvents hasRemoveItem s₀ calls) := by
  intro e he _ _ w legacy hadopts
  obtain ⟨earlier, later, hsplit⟩ := List.append_of_mem he
  have hfound := hadopts.found
  rw [(Recorded.run hsplit (Recorded.start s₀)).legacy, h] at hfound
  cases hfound

/-- A CID that a `getManifestCid` returns is that of its cluster, or an adopted one. -/
theorem returned_cases {e : PointerEvent} {w : WalletPubKey} {v : String} (hcall : e.call = .get w)
    (h : e.returned hasRemoveItem = some v) :
    cidFound (e.before (scopedKey e.cluster w.val)) = some v ∨
      ∃ legacy, Adopts e w legacy ∧ trim legacy = v := by
  rw [PointerEvent.returned, outcome_get hcall, pointer] at h
  dsimp only at h
  cases hs : e.before (scopedKey e.cluster w.val) with
  | some raw =>
    rw [hs, Option.some_or] at h
    exact Or.inl h
  | none =>
    rw [hs, Option.none_or] at h
    obtain ⟨legacy, hlegacy, htrim, hne⟩ := cidFound_eq_some h
    rw [Option.filter_eq_some_iff] at hlegacy
    have hlegacyNe : trim legacy ≠ "" := fun hblank => hne (htrim.symm.trans hblank)
    exact Or.inr ⟨legacy, ⟨hcall, hs, hlegacy.1, hlegacyNe⟩, htrim⟩

/-- An adopted CID is returned by no other cluster. -/
theorem not_returned {events : List PointerEvent} (h : LegacyApart events) {e : PointerEvent}
    (he : e ∈ events) {w : WalletPubKey} {legacy : String} (hadopts : Adopts e w legacy) :
    ∀ e' ∈ events, e'.call = .get w → e'.effective ≠ e.effective →
      e'.returned hasRemoveItem ≠ some (trim legacy) := by
  intro e' he' hcall hne hreturned
  obtain ⟨raw, hraw, hother⟩ := h e he e' he' w legacy hadopts hcall hne
  rcases returned_cases hcall hreturned with hitem | ⟨_, hadopts', -⟩
  · obtain ⟨r, hr, htrim, -⟩ := cidFound_eq_some hitem
    obtain rfl := Option.some.inj (hraw.symm.trans hr)
    exact hother htrim
  · exact absurd (hraw.symm.trans hadopts'.missing) (by simp)

end Origin

/-- The pointers of the clusters stay apart when the calls do not run both without the variable and
for `devnet`, also not with what `devnet` has left in the storage, and no cluster adopts a CID that
another one returns. -/
theorem clusters_apart (hasRemoveItem : Bool) {used : Option String → Prop} (hused : NoMissing used)
    (s₀ : LocalStorage) (calls : List (Option String × PointerCall))
    (hcalls : ∀ call ∈ calls, used call.1)
    (hinitial : InitialApart s₀ (pointerEvents hasRemoveItem s₀ calls))
    (hlegacy : LegacyApart (pointerEvents hasRemoveItem s₀ calls)) :
    ClustersApart hasRemoveItem used s₀ (pointerEvents hasRemoveItem s₀ calls) := by
  have hmem : ∀ e ∈ pointerEvents hasRemoveItem s₀ calls, used e.cluster :=
    fun e he => used_of_mem hcalls he
  constructor
  · intro earlier e later w v hsplit hcall hreturned
    have he : e ∈ pointerEvents hasRemoveItem s₀ calls := by simp [hsplit]
    have hrecorded : Recorded s₀ earlier e.before := by
      simpa using Recorded.run hsplit (Recorded.start s₀)
    have hearlier : ∀ e' ∈ earlier, e' ∈ pointerEvents hasRemoveItem s₀ calls :=
      fun e' he' => by simp [hsplit, he']
    have heffective : ∀ e' ∈ earlier, storageCluster e'.cluster = storageCluster e.cluster →
        e'.effective = e.effective :=
      fun e' he' hkey => effective_eq hused (hmem e' (hearlier e' he')) (hmem e he) hkey
    rcases returned_cases hcall hreturned with hitem | ⟨legacy, hadopts, hv⟩
    · cases hrecorded.origin e.cluster w v hitem with
      | set e' he' cid hset hkey hv =>
        exact Or.inl ⟨e', he', cid, hset, heffective e' he' hkey, hv⟩
      | initial h =>
        exact Or.inr (Or.inl ⟨fun hmissing => hinitial e he w v hmissing hcall hitem h, h⟩)
      | adopted e' he' legacy hadopts hkey hv hstart =>
        refine Or.inr (Or.inr ⟨hstart, ?_⟩)
        rw [← heffective e' he' hkey, ← hv]
        exact not_returned hlegacy (hearlier e' he') hadopts
    · refine Or.inr (Or.inr ⟨?_, ?_⟩)
      · rw [← hrecorded.legacy, hadopts.found, ← hv]
        simp [cidFound, hadopts.notBlank]
      · rw [← hv]
        exact not_returned hlegacy he hadopts
  · intro e he c w hc hne
    have hkey : scopedKey c w.val ≠ scopedKey e.cluster e.call.wallet.val := by
      intro hkey
      exact hne (effective_eq hused hc (hmem e he) (scopedKey_inj hkey).1)
    rw [returned_get, returned_get, pointer, pointer, outcome_other e hkey,
      outcome_other e (scopedKey_ne_legacyKey _ _ _).symm]

/-- A wallet. -/
def clusterWallet : WalletPubKey where
  val := "Wa11etA"
  ne := by decide
  base58 := base58_of_all (by decide)

/-- A storage with a pointer for `mainnet-beta`. -/
def mainnetStorage : LocalStorage :=
  setItem (fun _ => none) (scopedKey (some "mainnet-beta") clusterWallet.val) "bafytwo"

theorem mainnetStorage_missing {c : Option String} (hc : Missing c) (w : WalletPubKey) :
    mainnetStorage (scopedKey c w.val) = none := by
  have hne : scopedKey c w.val ≠ scopedKey (some "mainnet-beta") clusterWallet.val := by
    intro hkey
    obtain ⟨hcluster, -⟩ := scopedKey_inj hkey
    rcases hc with rfl | rfl <;> exact absurd hcluster (by decide)
  rw [mainnetStorage, setItem, Function.update_of_ne hne]

/-- The pointer of `localnet`, which is set without the variable, and that of `mainnet-beta`. -/
theorem clusters_apart_sample :
    ClustersApart true (fun c => c = none ∨ c = some "mainnet-beta") mainnetStorage
      (pointerEvents true mainnetStorage [(none, .set clusterWallet "bafyone"),
        (some "mainnet-beta", .get clusterWallet), (none, .get clusterWallet)]) := by
  refine clusters_apart true (by simp [NoMissing]) _ _ (by simp) ?_ (.of_none (fun w => ?_) _)
  · intro e _ w v hmissing _ _ h
    rw [mainnetStorage_missing hmissing] at h
    cases h
  · rw [mainnetStorage, setItem, Function.update_of_ne (scopedKey_ne_legacyKey _ _ _).symm]

/-- A storage with an item of the old form. -/
def oldStorage : LocalStorage := setItem (fun _ => none) (legacyKey clusterWallet.val) "bafyone"

/-- A CID that is set without the variable, for `localnet`, is returned for `devnet`; and a CID
without cluster is returned for two clusters. -/
theorem clusters_mix :
    ¬ ClustersApart true (fun _ => True) (fun _ => none) (pointerEvents true (fun _ => none)
      [(none, .set clusterWallet "bafyone"), (some "devnet", .get clusterWallet)]) ∧
    ¬ ClustersApart true (fun _ => True) oldStorage (pointerEvents true oldStorage
      [(some "devnet", .get clusterWallet), (some "mainnet-beta", .get clusterWallet)]) := by
  constructor
  · intro h
    rcases h.provenance [_] _ [] clusterWallet "bafyone" rfl rfl (by decide) with
      ⟨e', he', cid, -, heffective, -⟩ | ⟨-, hfound⟩ | ⟨hfound, -⟩
    · rw [List.mem_singleton] at he'
      subst he'
      exact absurd heffective (by decide)
    · cases hfound
    · cases hfound
  · intro h
    rcases h.provenance [_] _ [] clusterWallet "bafyone" rfl rfl (by decide) with
      ⟨e', he', cid, hset, -, -⟩ | ⟨-, hfound⟩ | ⟨-, hother⟩
    · rw [List.mem_singleton] at he'
      subst he'
      cases hset
    · rw [oldStorage, setItem, Function.update_of_ne (scopedKey_ne_legacyKey _ _ _)] at hfound
      cases hfound
    · exact hother _ List.mem_cons_self rfl (by decide) (by decide)

end SovereignJedi.Manifest
