import SovereignJedi.Registry.Head
import SovereignJedi.Registry.Publish

/-! The registry that `useSession` keeps for the connected wallet. An effect requests it whenever
the rendered wallet has changed, and nothing cancels a request: its outcome is stored whatever the
wallet is by then, and until then the registry of the wallet before it stays. -/

namespace SovereignJedi.Registry

open Relation
open SovereignJedi.Js (UnicodeData)
open SovereignJedi.Js.UnicodeData
open SovereignJedi.Manifest (LocalStorage WalletPubKey base58_of_all pointer)

variable {Pubkey Address : Type}

/-- Who awaits a request: the effect, or `publishManifest`. -/
inductive Requester where
  | effect | publish

/-- A call of `getRegistry` in progress, with the outcome of its attempts so far. An error may come
without a message. -/
structure Request (Pubkey : Type) where
  requester : Requester
  walletPubKey : String
  answer : Option (Except (Option String) (Option (RegistryAccount Pubkey)))

/-- The state of the hook. -/
structure Hook (Pubkey : Type) where
  walletPubKey : Option String
  onChainRegistry : Option (RegistryAccount Pubkey)
  registryError : Option String

/-- A click on the restore button: the wallet and the CID of its closure. -/
structure Restore where
  walletPubKey : String
  cid : String

/-- One tab with one instance of the hook. `view` is what was rendered last, and `effectWallet` the
wallet for which the effect ran last, if it has run. -/
structure Client (Pubkey Address : Type) where
  accounts : Accounts Pubkey Address
  sessionWallet : Option String
  hook : Hook Pubkey
  view : Hook Pubkey
  effectWallet : Option (Option String)
  requests : List (Request Pubkey)
  restores : List Restore
  localStorage : LocalStorage

/-- What happens in the tab or to the accounts. `instruction` is one of any publisher; `session` is
a wallet that the session manager connects, or `none` when it disconnects. -/
inductive Event (Pubkey Address : Type) where
  | instruction (ix : Instruction Pubkey Address)
  | session (walletPubKey : Option String)
  | refresh
  | disconnectWallet
  | render
  | effect
  | publishManifest (walletPubKey : String)
  | fail (i : Nat) (message : Option String)
  | respond (i : Nat)
  | deliver (i : Nat)
  | clickRestore
  | finishRestore (i : Nat)

/-! ### The hook -/

/-- `refresh`, for the registry. -/
def Hook.refresh (h : Hook Pubkey) (sessionWallet : Option String) : Hook Pubkey :=
  { h with walletPubKey := sessionWallet }

/-- What becomes of the outcome of `getRegistry`. -/
def Hook.settle (h : Hook Pubkey) :
    Requester → Except (Option String) (Option (RegistryAccount Pubkey)) → Hook Pubkey
  | _, .ok registry => { h with onChainRegistry := registry }
  | .effect, .error message =>
    { h with registryError := some (message.getD "Network error"), onChainRegistry := none }
  | .publish, .error _ => h

/-- The effect up to its request. -/
def Hook.runEffect (h : Hook Pubkey) (walletPubKey : Option String) : Hook Pubkey :=
  match walletPubKey.filter fun w => w != "" with
  | some _ => { h with registryError := none }
  | none => { h with onChainRegistry := none, registryError := none }

section Apply

variable [DecidableEq Pubkey] [DecidableEq Address] (U : UnicodeData) (rt : Runtime Pubkey Address)
  (publicKey : String → Option Pubkey) (localeCompare : String → String → Int) (d : Decoding)
  (cluster : Option String)

/-- The CID that the widget would restore. -/
def Hook.head (h : Hook Pubkey) : Option String :=
  onChainLatestManifestCid localeCompare
    (h.onChainRegistry.map fun a => decodeEntries d a.entries)

/-- What the node finds for a request, when `new PublicKey` takes the wallet. -/
def Request.read (r : Request Pubkey) (s : Accounts Pubkey Address) : Request Pubkey :=
  match publicKey r.walletPubKey with
  | some wallet => { r with answer := some (.ok (fetchRegistry U rt s wallet "local-default")) }
  | none => { r with answer := some (.error (some "Invalid public key input")) }

def Client.apply (s : Client Pubkey Address) : Event Pubkey Address → Client Pubkey Address
  | .instruction ix => { s with accounts := execute rt s.accounts ix }
  | .session walletPubKey => { s with sessionWallet := walletPubKey }
  | .refresh => { s with hook := s.hook.refresh s.sessionWallet }
  | .disconnectWallet => { s with
      sessionWallet := none
      hook := { s.hook with walletPubKey := none, onChainRegistry := none } }
  | .render => { s with view := s.hook }
  | .effect =>
    -- React runs an effect again when a dependency of the rendered component has changed
    if s.effectWallet = some s.view.walletPubKey then s
    else { s with
      effectWallet := some s.view.walletPubKey
      hook := s.hook.runEffect s.view.walletPubKey
      requests := s.requests ++ (s.view.walletPubKey.filter fun w => w != "").toList.map fun w =>
        ⟨.effect, w, none⟩ }
  | .publishManifest walletPubKey =>
    { s with requests := s.requests ++ [⟨.publish, walletPubKey, none⟩] }
  | .fail i message => { s with
      requests := s.requests.modify i fun r => { r with answer := some (.error message) } }
  | .respond i => { s with
      requests := s.requests.modify i fun r => r.read U rt publicKey s.accounts }
  | .deliver i =>
    match s.requests[i]? with
    | some ⟨requester, _, some answer⟩ => { s with
        hook := s.hook.settle requester answer
        requests := s.requests.eraseIdx i }
    | _ => s
  | .clickRestore =>
    match s.view.walletPubKey, s.view.head localeCompare d with
    | some walletPubKey, some cid => { s with restores := s.restores ++ [⟨walletPubKey, cid⟩] }
    | _, _ => s
  | .finishRestore i =>
    match s.restores[i]? with
    | some r => { s with
        localStorage := handleRestore cluster (some r.walletPubKey) (some r.cid) s.localStorage }
    | none => s

/-- A tab whose session has this wallet when the hook is mounted. -/
def Client.init (accounts : Accounts Pubkey Address) (sessionWallet : Option String)
    (localStorage : LocalStorage) : Client Pubkey Address where
  accounts
  sessionWallet
  hook := ⟨sessionWallet, none, none⟩
  view := ⟨sessionWallet, none, none⟩
  effectWallet := none
  requests := []
  restores := []
  localStorage

/-- The registry of the wallet, as it is on the chain or was earlier. -/
def RegistryOf (s : Accounts Pubkey Address) (walletPubKey : String)
    (a : RegistryAccount Pubkey) : Prop :=
  ∃ wallet b, publicKey walletPubKey = some wallet ∧
    fetchRegistry U rt s wallet "local-default" = some b ∧ a.ExtendedBy b

/-- The hook has no registry, or the one of its wallet. -/
def Hook.Bound (s : Accounts Pubkey Address) (h : Hook Pubkey) : Prop :=
  ∀ a, h.onChainRegistry = some a →
    ∃ w, h.walletPubKey = some w ∧ RegistryOf U rt publicKey s w a

/-- The CID is in the registry of the wallet. -/
def Restore.Own (s : Accounts Pubkey Address) (r : Restore) : Prop :=
  ∃ wallet a, publicKey r.walletPubKey = some wallet ∧
    fetchRegistry U rt s wallet "local-default" = some a ∧ ∃ e ∈ a.entries, e.manifestCid = r.cid

/-- The registry belongs to the wallet, as stored and as rendered, and so do the CIDs of all
restores. -/
structure Client.Bound (s : Client Pubkey Address) : Prop where
  hook : s.hook.Bound U rt publicKey s.accounts
  view : s.view.Bound U rt publicKey s.accounts
  restores : ∀ r ∈ s.restores, r.Own U rt publicKey s.accounts

/-- When an event keeps the registry with its wallet: the wallet changes only while there is no
registry, and a registry arrives only while its wallet is connected. -/
def Event.Orderly (s : Client Pubkey Address) : Event Pubkey Address → Prop
  | .refresh => s.sessionWallet = s.hook.walletPubKey ∨ s.hook.onChainRegistry = none
  | .deliver i => ∀ r a, s.requests[i]? = some r → r.answer = some (.ok (some a)) →
    s.hook.walletPubKey = some r.walletPubKey
  | _ => True

/-- Any events in any order. -/
abbrev Client.Run : Client Pubkey Address → Client Pubkey Address → Prop :=
  ReflTransGen fun s s' => ∃ e, s' = s.apply U rt publicKey localeCompare d cluster e

abbrev Client.OrderlyRun : Client Pubkey Address → Client Pubkey Address → Prop :=
  ReflTransGen fun s s' => ∃ e : Event Pubkey Address, e.Orderly s ∧
    s' = s.apply U rt publicKey localeCompare d cluster e

end Apply

/-! ### What belongs to the wallet -/

variable {U : UnicodeData} {rt : Runtime Pubkey Address} {publicKey : String → Option Pubkey}
  {localeCompare : String → String → Int} {d : Decoding} {cluster : Option String}

/-- The CID that is offered for restoring is one of the registry. -/
theorem mem_of_head {h : Hook Pubkey} {cid : String} (hhead : h.head localeCompare d = some cid) :
    ∃ a, h.onChainRegistry = some a ∧ ∃ e ∈ a.entries, e.manifestCid = cid := by
  cases hregistry : h.onChainRegistry with
  | none => simp [Hook.head, hregistry, onChainLatestManifestCid] at hhead
  | some a =>
    refine ⟨a, rfl, ?_⟩
    rw [Hook.head, hregistry, Option.map_some, onChainLatestManifestCid] at hhead
    split at hhead
    · cases hhead
    · obtain ⟨head, hselect, rfl⟩ := Option.map_eq_some_iff.mp hhead
      rw [selectHead] at hselect
      split at hselect
      · cases hselect
      · have hmem := List.mergeSort_perm _ _ |>.subset (List.mem_of_getElem? hselect)
        obtain ⟨i, e, he, rfl⟩ := mem_decodeEntries.mp hmem
        exact ⟨e, List.mem_of_getElem? he, rfl⟩

/-- What holds over every orderly run: the state is bound, and every registry found is the one of
the wallet that it was requested for. -/
structure Client.Invariant (U : UnicodeData) (rt : Runtime Pubkey Address)
    (publicKey : String → Option Pubkey) (s : Client Pubkey Address) : Prop where
  bound : s.Bound U rt publicKey
  found : ∀ r ∈ s.requests, ∀ a, r.answer = some (.ok (some a)) →
    RegistryOf U rt publicKey s.accounts r.walletPubKey a

variable {s s' : Client Pubkey Address} {t t' : Accounts Pubkey Address}

theorem Hook.bound_of_none {h : Hook Pubkey} (hnone : h.onChainRegistry = none) :
    h.Bound U rt publicKey t := by
  intro a ha
  cases hnone.symm.trans ha

/-- The registry of a wallet stays its registry when the accounts go on. -/
theorem RegistryOf.mono (hextends : Extends t t') {w : String} {a : RegistryAccount Pubkey}
    (h : RegistryOf U rt publicKey t w a) : RegistryOf U rt publicKey t' w a := by
  obtain ⟨wallet, b, hw, hb, hab⟩ := h
  obtain ⟨c, hc, hbc⟩ := hextends _ b hb
  exact ⟨wallet, c, hw, hc, hab.trans hbc⟩

theorem Hook.Bound.mono (hextends : Extends t t') {h : Hook Pubkey} (hbound : h.Bound U rt publicKey t) :
    h.Bound U rt publicKey t' := by
  intro a ha
  obtain ⟨w, hw, hof⟩ := hbound a ha
  exact ⟨w, hw, hof.mono hextends⟩

theorem Restore.Own.mono (hextends : Extends t t') {r : Restore} (h : r.Own U rt publicKey t) :
    r.Own U rt publicKey t' := by
  obtain ⟨wallet, a, hw, ha, e, he, hcid⟩ := h
  obtain ⟨b, hb, hab⟩ := hextends _ a ha
  exact ⟨wallet, b, hw, hb, e, hab.entries.subset he, hcid⟩

/-- A CID of the rendered registry is one of the rendered wallet. -/
theorem Hook.Bound.own {h : Hook Pubkey} (hbound : h.Bound U rt publicKey t) {w cid : String}
    (hw : h.walletPubKey = some w) (hhead : h.head localeCompare d = some cid) :
    (Restore.mk w cid).Own U rt publicKey t := by
  obtain ⟨a, ha, e, he, hcid⟩ := mem_of_head hhead
  obtain ⟨w', hw', wallet, b, hwallet, hb, hab⟩ := hbound a ha
  obtain rfl := Option.some.inj (hw.symm.trans hw')
  exact ⟨wallet, b, hwallet, hb, e, hab.entries.subset he, hcid⟩

theorem mem_modify {α : Type} {xs : List α} {i : Nat} {f : α → α} {x : α} (h : x ∈ xs.modify i f) :
    x ∈ xs ∨ ∃ y ∈ xs, x = f y := by
  obtain ⟨j, hj⟩ := List.mem_iff_getElem?.mp h
  rw [List.getElem?_modify] at hj
  obtain ⟨y, hy, rfl⟩ := Option.map_eq_some_iff.mp hj
  have hmem := List.mem_of_getElem? hy
  split
  · exact Or.inr ⟨y, hmem, rfl⟩
  · exact Or.inl hmem

/-! ### One event -/

section Invariant

variable [DecidableEq Pubkey] [DecidableEq Address]

theorem Client.Invariant.instruction (h : s.Invariant U rt publicKey)
    (ix : Instruction Pubkey Address) :
    (s.apply U rt publicKey localeCompare d cluster (.instruction ix)).Invariant U rt publicKey := by
  have hextends : Extends s.accounts (execute rt s.accounts ix) := extends_execute _ ix
  exact ⟨⟨h.bound.hook.mono hextends, h.bound.view.mono hextends,
    fun r hr => (h.bound.restores r hr).mono hextends⟩,
    fun r hr a ha => (h.found r hr a ha).mono hextends⟩

/-- The effect of a wallet asks for its registry, and clears the one of no wallet. -/
theorem Client.Invariant.effect (h : s.Invariant U rt publicKey) :
    (s.apply U rt publicKey localeCompare d cluster .effect).Invariant U rt publicKey := by
  rw [apply]
  split
  · exact h
  · refine ⟨⟨?_, h.bound.view, h.bound.restores⟩, ?_⟩
    · change (s.hook.runEffect s.view.walletPubKey).Bound U rt publicKey s.accounts
      unfold Hook.runEffect
      split
      · exact h.bound.hook
      · exact Hook.bound_of_none rfl
    · intro r hr a ha
      rcases List.mem_append.mp hr with hr | hr
      · exact h.found r hr a ha
      · obtain ⟨w, -, rfl⟩ := List.mem_map.mp hr
        cases ha

/-- The node finds the registry of the wallet that it is asked for. -/
theorem Client.Invariant.respond (h : s.Invariant U rt publicKey) (i : Nat) :
    (s.apply U rt publicKey localeCompare d cluster (.respond i)).Invariant U rt publicKey := by
  refine ⟨⟨h.bound.hook, h.bound.view, h.bound.restores⟩, fun r hr a ha => ?_⟩
  rcases mem_modify hr with hr | ⟨r, -, rfl⟩
  · exact h.found r hr a ha
  · unfold Request.read at ha ⊢
    cases hw : publicKey r.walletPubKey with
    | none =>
      rw [hw] at ha
      cases ha
    | some wallet =>
      rw [hw] at ha
      simp only [Option.some.injEq, Except.ok.injEq] at ha
      exact ⟨wallet, a, hw, ha, .refl a⟩

/-- An outcome is stored while its wallet is connected, or clears the registry. -/
theorem Client.Invariant.deliver (h : s.Invariant U rt publicKey) {i : Nat}
    (horderly : (Event.deliver i).Orderly s) :
    (s.apply U rt publicKey localeCompare d cluster (.deliver i)).Invariant U rt publicKey := by
  rw [apply]
  split
  · rename_i requester w answer hi
    have hmem := List.mem_of_getElem? hi
    refine ⟨⟨?_, h.bound.view, h.bound.restores⟩,
      fun r hr a ha => h.found r (List.mem_of_mem_eraseIdx hr) a ha⟩
    intro a ha
    cases answer with
    | ok registry =>
      obtain rfl : registry = some a := ha
      exact ⟨w, horderly _ a hi rfl, h.found _ hmem a rfl⟩
    | error message =>
      cases requester with
      | effect => cases ha
      | publish => exact h.bound.hook a ha
  · exact h

/-- Every orderly event preserves the invariant. -/
theorem Client.Invariant.apply (h : s.Invariant U rt publicKey) {e : Event Pubkey Address}
    (horderly : e.Orderly s) :
    (s.apply U rt publicKey localeCompare d cluster e).Invariant U rt publicKey := by
  cases e with
  | instruction ix => exact h.instruction ix
  | session w => exact ⟨⟨h.bound.hook, h.bound.view, h.bound.restores⟩, h.found⟩
  | refresh =>
    refine ⟨⟨?_, h.bound.view, h.bound.restores⟩, h.found⟩
    change (s.hook.refresh s.sessionWallet).Bound U rt publicKey s.accounts
    rcases horderly with hsame | hnone
    · rw [Hook.refresh, hsame]
      exact h.bound.hook
    · exact Hook.bound_of_none hnone
  | disconnectWallet =>
    exact ⟨⟨Hook.bound_of_none rfl, h.bound.view, h.bound.restores⟩, h.found⟩
  | render => exact ⟨⟨h.bound.hook, h.bound.hook, h.bound.restores⟩, h.found⟩
  | effect => exact h.effect
  | publishManifest w =>
    refine ⟨⟨h.bound.hook, h.bound.view, h.bound.restores⟩, fun r hr a ha => ?_⟩
    rcases List.mem_append.mp hr with hr | hr
    · exact h.found r hr a ha
    · obtain rfl := List.mem_singleton.mp hr
      cases ha
  | fail i message =>
    refine ⟨⟨h.bound.hook, h.bound.view, h.bound.restores⟩, fun r hr a ha => ?_⟩
    rcases mem_modify hr with hr | ⟨r, -, rfl⟩
    · exact h.found r hr a ha
    · cases ha
  | respond i => exact h.respond i
  | deliver i => exact h.deliver horderly
  | clickRestore =>
    rw [Client.apply]
    split
    · rename_i w cid hw hhead
      refine ⟨⟨h.bound.hook, h.bound.view, fun r hr => ?_⟩, h.found⟩
      rcases List.mem_append.mp hr with hr | hr
      · exact h.bound.restores r hr
      · obtain rfl := List.mem_singleton.mp hr
        exact h.bound.view.own hw hhead
    · exact h
  | finishRestore i =>
    rw [Client.apply]
    split
    · exact ⟨⟨h.bound.hook, h.bound.view, h.bound.restores⟩, h.found⟩
    · exact h

/-- In every orderly run the registry of the hook is the one of its wallet, and only CIDs of the
wallet are restored. -/
theorem registry_of_wallet {accounts : Accounts Pubkey Address} {sessionWallet : Option String}
    {localStorage : LocalStorage} (hrun : Client.OrderlyRun U rt publicKey localeCompare d cluster
      (Client.init accounts sessionWallet localStorage) s) : s.Bound U rt publicKey := by
  have hinvariant : s.Invariant U rt publicKey := by
    induction hrun with
    | refl =>
      exact ⟨⟨Hook.bound_of_none rfl, Hook.bound_of_none rfl, by simp [Client.init]⟩,
        by simp [Client.init]⟩
    | tail _ hstep ih =>
      obtain ⟨e, horderly, rfl⟩ := hstep
      exact ih.apply horderly
  exact hinvariant.bound

theorem Client.OrderlyRun.run (h : Client.OrderlyRun U rt publicKey localeCompare d cluster s s') :
    Client.Run U rt publicKey localeCompare d cluster s s' := by
  refine ReflTransGen.mono ?_ _ _ h
  rintro t t' ⟨e, -, he⟩
  exact ⟨e, he⟩

/-! ### A switch of wallets -/

/-- The tab after its first fetch. -/
def Client.fetched (accounts : Accounts Pubkey Address) (w : String) (a : RegistryAccount Pubkey)
    (localStorage : LocalStorage) : Client Pubkey Address where
  accounts
  sessionWallet := some w
  hook := ⟨some w, some a, none⟩
  view := ⟨some w, some a, none⟩
  effectWallet := some (some w)
  requests := []
  restores := []
  localStorage

/-- The registry of the first wallet is fetched and rendered. -/
theorem run_fetched {accounts : Accounts Pubkey Address} {w : String} {wallet : Pubkey}
    {a : RegistryAccount Pubkey} {localStorage : LocalStorage} (hw : w ≠ "")
    (hwallet : publicKey w = some wallet)
    (ha : fetchRegistry U rt accounts wallet "local-default" = some a) :
    Client.OrderlyRun U rt publicKey localeCompare d cluster
      (Client.init accounts (some w) localStorage) (Client.fetched accounts w a localStorage) := by
  refine .tail (.tail (.tail (.single ⟨.effect, trivial, rfl⟩) ⟨.respond 0, trivial, rfl⟩)
    ⟨.deliver 0, ?_, rfl⟩) ⟨.render, trivial, ?_⟩
  · intro r b hr _
    simp [Client.apply, Client.init, Hook.runEffect, Option.filter, hw, Request.read] at hr
    rw [← hr]
    simp [Client.apply, Client.init, Hook.runEffect, Option.filter, hw, hwallet]
  · simp [Client.apply, Client.init, Client.fetched, Hook.runEffect, Hook.settle, Option.filter, hw,
      Request.read, hwallet, ha]

end Invariant

def samplePublicKey (walletPubKey : String) : Option Nat :=
  if walletPubKey = "Wa11et" then some 7
  else if walletPubKey = "other" then some 8
  else none

theorem run_sample_fetched : Client.OrderlyRun basicLatin latinRuntime samplePublicKey sampleCompare
    .bn none (Client.init (sampleRegistryOf samplePublished) (some "Wa11et") fun _ => none)
      (Client.fetched (sampleRegistryOf samplePublished) "Wa11et" samplePublished fun _ => none) :=
  run_fetched (by decide) rfl (fetchRegistry_sampleRegistryOf samplePublished)

theorem registry_of_wallet_sample :
    (Client.fetched (sampleRegistryOf samplePublished) "Wa11et" samplePublished fun _ => none).Bound
      basicLatin latinRuntime samplePublicKey :=
  registry_of_wallet run_sample_fetched

theorem head_samplePublished (w : String) :
    (Hook.mk (some w) (some samplePublished) none).head sampleCompare .bn = some "bafy2" := by
  have hsort : ∀ e : ClientEntry Nat, sort (compareHead sampleCompare) [e] = [e] := by
    simp [sort]
  simp [Hook.head, onChainLatestManifestCid, selectHead, samplePublished, initialAccount, decodeEntries,
    hsort, newEntry, decodeEntry]

def sampleOther : WalletPubKey := ⟨"other", by decide, base58_of_all (by decide)⟩

/-- Another wallet connects before the registry of the first one is replaced, and gets its CID. -/
theorem switched_wallet_restores : ∃ s,
    Run latinRuntime (fun _ => none) (sampleRegistryOf samplePublished) ∧
    Client.Run basicLatin latinRuntime samplePublicKey sampleCompare .bn none
      (Client.init (sampleRegistryOf samplePublished) (some "Wa11et") fun _ => none) s ∧
    ¬ s.Bound basicLatin latinRuntime samplePublicKey ∧
    samplePublicKey sampleOther.val = some 8 ∧
    fetchRegistry basicLatin latinRuntime s.accounts 8 "local-default" = none ∧
    pointer none sampleOther s.localStorage = some "bafy2" := by
  have hfetched := run_sample_fetched.run
  have hclick : ∀ s : Client Nat (Nat × Hash),
      s.view = ⟨some "other", some samplePublished, none⟩ →
      s.apply basicLatin latinRuntime samplePublicKey sampleCompare .bn none .clickRestore =
        { s with restores := s.restores ++ [⟨"other", "bafy2"⟩] } := by
    intro s hview
    rw [Client.apply, hview, head_samplePublished]
  refine ⟨_, (run_of_process sample_initRegistry).trans (run_of_process sample_appendManifest),
    .tail (.tail (.tail (.tail (.tail hfetched ⟨.session (some "other"), rfl⟩) ⟨.refresh, rfl⟩)
      ⟨.render, rfl⟩) ⟨.clickRestore, (hclick _ rfl).symm⟩) ⟨.finishRestore 0, rfl⟩,
    fun hbound => ?_, rfl, rfl, ?_⟩
  · obtain ⟨w, hw, wallet, b, hwallet, hb, -⟩ := hbound.hook samplePublished rfl
    cases hw
    cases hwallet
    cases hb
  · have hcid : validateCidStrict "bafy2" = .ok () := by decide
    exact pointer_handleRestore none sampleOther hcid _

end SovereignJedi.Registry
