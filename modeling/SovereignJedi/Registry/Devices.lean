import SovereignJedi.Manifest.SharedTabs
import SovereignJedi.Registry.Head
import SovereignJedi.Registry.Publish

/-! The devices of a vault. Each device has a browser with tabs of its own; what they share is IPFS
and the registry on the chain, through which a manifest comes from one to another: it is published
there, and restored from there. Whatever runs at the same time, every pointer of every device and
every entry of the registry designates a manifest that was made by appends of the users. -/

namespace SovereignJedi.Registry

open SovereignJedi.Js SovereignJedi.Crypto SovereignJedi.Async SovereignJedi.Manifest

variable {Pubkey Address : Type}

/-! ### The world -/

/-- What the devices share, and what they run on. -/
structure Deployment (Pubkey Address : Type) where
  platform : Platform
  unicode : UnicodeData
  runtime : Runtime Pubkey Address
  publicKey : WalletPubKey → Pubkey
  vaultId : String
  localeCompare : String → String → Int
  decoding : Decoding

/-- The accounts on the chain, and the tabs of each device. -/
structure World (Pubkey Address : Type) where
  accounts : Accounts Pubkey Address
  devices : Nat → Tabs

/-- What is done on a device: a load or an append in one of its tabs, a publication of the wallet's
manifest, which the chain executes at `now`, or a restoration of it. Anyone may send an instruction
to the program. -/
inductive Operation (Pubkey Address : Type) where
  | manifest (tab : Nat) (c : Call)
  | publish (w : WalletPubKey) (now : Int64)
  | restore (w : WalletPubKey)
  | instruction (ix : Instruction Pubkey Address)

/-- Where an operation is suspended. -/
inductive DevicePoint where
  | service (p : AwaitPoint) | getRegistry | sendTransaction | importManifest

inductive Outcome where
  | manifest (r : Reply) | published | restored | executed | nothing

abbrev DeviceTask (Pubkey Address : Type) := Task DevicePoint (World Pubkey Address) JsError

namespace World

def browser (n : Nat) (s : World Pubkey Address) : Browser := (s.devices n).data

def setTabs (n : Nat) (t : Tabs) (s : World Pubkey Address) : World Pubkey Address :=
  { s with devices := Function.update s.devices n t }

def setBrowser (n : Nat) (b : Browser) (s : World Pubkey Address) : World Pubkey Address :=
  s.setTabs n { s.devices n with data := b }

/-- The accounts are the same, and so is every device but `n`. -/
def SameBut (n : Nat) (s s' : World Pubkey Address) : Prop :=
  s'.accounts = s.accounts ∧ ∀ n', n' ≠ n → s'.devices n' = s.devices n'

theorem devices_setTabs (n : Nat) (t : Tabs) (s : World Pubkey Address) :
    (s.setTabs n t).devices n = t := Function.update_self ..

theorem browser_setBrowser (n : Nat) (b : Browser) (s : World Pubkey Address) :
    (s.setBrowser n b).browser n = b := by
  simp [browser, setBrowser, setTabs]

theorem SameBut.refl (n : Nat) (s : World Pubkey Address) : SameBut n s s := ⟨rfl, fun _ _ => rfl⟩

theorem SameBut.setTabs {n : Nat} {s₀ s : World Pubkey Address} (t : Tabs) (h : SameBut n s₀ s) :
    SameBut n s₀ (s.setTabs n t) :=
  ⟨h.1, fun n' hn => (Function.update_of_ne hn ..).trans (h.2 n' hn)⟩

end World

section Model

variable [DecidableEq Pubkey] [DecidableEq Address] (D : Deployment Pubkey Address)

/-- The registry that `getRegistry` finds for a wallet. -/
def Deployment.registry (w : WalletPubKey) (s : Accounts Pubkey Address) :
    Option (RegistryAccount Pubkey) :=
  fetchRegistry D.unicode D.runtime s (D.publicKey w) D.vaultId

/-- `localStorage` after `handleRestore` with the head of the registry `registry`. -/
def Deployment.restored (w : WalletPubKey) (registry : Option (RegistryAccount Pubkey))
    (b : Browser) : Browser :=
  { b with
    localStorage := handleRestore D.platform.cluster (some w.val)
      (onChainLatestManifestCid D.localeCompare
        (registry.map fun a => decodeEntries D.decoding a.entries)) b.localStorage }

/-- `publishManifest` with the CID that the widget has read. -/
def publishOn (w : WalletPubKey) (now : Int64) (manifestCid : String) :
    DeviceTask Pubkey Address Outcome :=
  .await .getRegistry (fun _ => true) <| .sync id fun s =>
    let tx := publishManifest D.unicode D.runtime (D.publicKey w) D.vaultId manifestCid 1
      (D.registry w s.accounts) now
    .await .sendTransaction (fun _ => true) <|
      .sync (fun s => { s with accounts := executeTransaction D.runtime s.accounts tx })
        fun _ => .done (.ok .published)

/-- `handleRestore` with the head of the registry that the hook has fetched. -/
def restoreOn (n : Nat) (w : WalletPubKey) : DeviceTask Pubkey Address Outcome :=
  .await .getRegistry (fun _ => true) <| .sync id fun s =>
    let registry := D.registry w s.accounts
    .await .importManifest (fun _ => true) <|
      .sync (fun s => s.setBrowser n (D.restored w registry (s.browser n)))
        fun _ => .done (.ok .restored)

/-- An operation on device `c.1`. -/
def deviceBody (c : Nat × Operation Pubkey Address) : DeviceTask Pubkey Address Outcome :=
  match c.2 with
  | .manifest tab call =>
    (((tabBody D.platform (tab, call)).zoom (fun s => s.devices c.1) (World.setTabs c.1)).relabel
      .service).map .manifest
  | .publish w now =>
    (((readManifestCid D.platform w.val).zoom (World.browser c.1) (World.setBrowser c.1)).relabel
      .service).bind fun cid => match cid with
        | none => .done (.ok .nothing)
        | some cid => publishOn D w now cid
  | .restore w => restoreOn D c.1 w
  | .instruction ix =>
    .sync (fun s => { s with accounts := execute D.runtime s.accounts ix })
      fun _ => .done (.ok .executed)

/-- The users restore their own manifests, and sign no instructions but those of the app. -/
def Operation.AllowedFor (users : WalletPubKey → Prop) : Operation Pubkey Address → Prop
  | .manifest _ c => c.ForWallet
  | .publish _ _ => True
  | .restore w => users w
  | .instruction ix => ∀ w, users w → ix.ctx.wallet ≠ D.publicKey w

abbrev DevicePool (Pubkey Address : Type) :=
  Pool (Nat × Operation Pubkey Address) DevicePoint (World Pubkey Address) JsError Outcome

/-- Any operations on any devices, at any interleaving. -/
abbrev DevicesRun (users : WalletPubKey → Prop) (s : World Pubkey Address)
    (q : DevicePool Pubkey Address) : Prop :=
  Pool.Run (deviceBody D) (fun c _ => c.2.AllowedFor D users) (fun _ _ _ => True) (.init s) q

/-- The manifest call has been made, in some tab of some device. -/
def IssuedOn (q : DevicePool Pubkey Address) (c : Call) : Prop :=
  ∃ n tab, (n, Operation.manifest tab c) ∈ q.calls

/-- What is relied on: the crypto and IPFS of the platform, that keys and addresses are apart, and
that `localeCompare` is an order. -/
structure Deployment.Lawful : Prop where
  platform : D.platform.Lawful
  idealAead : D.platform.IdealAead
  publicKey : Function.Injective D.publicKey
  registryAddress : ∀ wallet wallet' hash hash',
    D.runtime.registryAddress wallet hash = D.runtime.registryAddress wallet' hash' →
      wallet = wallet' ∧ hash = hash'
  localeCompare : TotalOrder D.localeCompare

end Model

variable [DecidableEq Pubkey] [DecidableEq Address] {D : Deployment Pubkey Address}
  {users : WalletPubKey → Prop} {base : WalletPubKey → Bytes → Json → Prop} {issued : Call → Prop}

/-! ### Registries -/

/-- There is an explained manifest of `w` at `cid`. -/
def HasManifest (P : Platform) (base : WalletPubKey → Bytes → Json → Prop)
    (issued : Call → Prop) (w : WalletPubKey) (cid : String) : Prop :=
  ∃ sig m, ExplainedAt P base issued w cid sig m

/-- Every entry of a user's registry designates an explained manifest. -/
def RegistriesExplained (D : Deployment Pubkey Address) (users : WalletPubKey → Prop)
    (base : WalletPubKey → Bytes → Json → Prop) (issued : Call → Prop)
    (s : Accounts Pubkey Address) : Prop :=
  ∀ w, users w → ∀ e ∈ entriesOf (D.registry w s),
    validateCidStrict e.manifestCid = .ok () ∧ HasManifest D.platform base issued w e.manifestCid

/-- What the instruction appends for a user designates an explained manifest of that user. -/
def Instruction.Sound (D : Deployment Pubkey Address) (users : WalletPubKey → Prop)
    (base : WalletPubKey → Bytes → Json → Prop) (issued : Call → Prop)
    (ix : Instruction Pubkey Address) : Prop :=
  ∀ ctx hash cid version, ix = .appendManifest ctx hash cid version →
    ∀ w, users w → ctx.wallet = D.publicKey w → HasManifest D.platform base issued w cid

omit [DecidableEq Pubkey] in
/-- An update at an address of another registry leaves the registry of `w`. -/
theorem registry_update {w : WalletPubKey} {s : Accounts Pubkey Address} {address : Address}
    (h : address ≠ getRegistryAddress D.unicode D.runtime (D.publicKey w) D.vaultId)
    (a : Option (RegistryAccount Pubkey)) :
    D.registry w (Function.update s address a) = D.registry w s :=
  Function.update_of_ne (Ne.symm h) ..

theorem RegistriesExplained.process (hD : D.Lawful) {s s' : Accounts Pubkey Address}
    (hs : RegistriesExplained D users base issued s) {ix : Instruction Pubkey Address}
    (hix : ix.Sound D users base issued) (h : process D.runtime s ix = .ok s') :
    RegistriesExplained D users base issued s' := by
  intro w hw e he
  by_cases hat : ix.ctx.registry = getRegistryAddress D.unicode D.runtime (D.publicKey w) D.vaultId
  · cases ix with
    | initRegistry ctx vaultId hash version =>
      obtain ⟨a, ha⟩ := process_initRegistry h
      have hregistry : D.registry w s' = some a := by
        rw [Deployment.registry, fetchRegistry, ← hat, ha.accounts]
        exact Function.update_self ..
      rw [hregistry, entriesOf, ha.entries] at he
      exact absurd he List.not_mem_nil
    | appendManifest ctx hash cid version =>
      obtain ⟨-, a, ha⟩ := process_appendManifest h
      have hold : D.registry w s = some a := by
        rw [Deployment.registry, fetchRegistry, ← hat]
        exact ha.found
      have hnew : D.registry w s' = some { a with
          entries := a.entries ++ [newEntry D.runtime ctx cid 1]
          updatedAt := ctx.unixTimestamp } := by
        rw [Deployment.registry, fetchRegistry, ← hat, ha.accounts]
        exact Function.update_self ..
      rw [hnew] at he
      rcases List.mem_append.mp he with he | he
      · exact hs w hw e (by rwa [hold])
      · obtain rfl := List.mem_singleton.mp he
        have hkey : D.publicKey w = a.wallet := (hD.registryAddress _ _ _ _
          (hat.symm.trans ha.address)).1
        exact ⟨ha.valid, hix _ _ _ _ rfl w hw (ha.wallet.symm.trans hkey.symm)⟩
  · have hsame : D.registry w s' = D.registry w s := by
      rcases process_cases h with ⟨a, ha⟩ | ⟨a, cid, ha⟩
      · rw [ha.accounts, registry_update hat]
      · rw [ha.accounts, registry_update hat]
    exact hs w hw e (hsame ▸ he)

theorem RegistriesExplained.execute (hD : D.Lawful) {s : Accounts Pubkey Address}
    (hs : RegistriesExplained D users base issued s) {ix : Instruction Pubkey Address}
    (hix : ix.Sound D users base issued) :
    RegistriesExplained D users base issued (execute D.runtime s ix) := by
  unfold Registry.execute
  cases h : Registry.process D.runtime s ix with
  | ok s' => exact hs.process hD hix h
  | error e => exact hs

theorem RegistriesExplained.executeTransaction (hD : D.Lawful) {s : Accounts Pubkey Address}
    (hs : RegistriesExplained D users base issued s) {tx : List (Instruction Pubkey Address)}
    (htx : ∀ ix ∈ tx, ix.Sound D users base issued) :
    RegistriesExplained D users base issued (executeTransaction D.runtime s tx) := by
  have hprocess : ∀ s', processTransaction D.runtime s tx = .ok s' →
      RegistriesExplained D users base issued s' := by
    induction tx generalizing s with
    | nil =>
      intro s' h
      obtain rfl := Except.ok.inj h
      exact hs
    | cons ix tx ih =>
      intro s' h
      rw [processTransaction, List.foldlM_cons, except_bind_eq_ok] at h
      obtain ⟨s₁, hix, h⟩ := h
      rw [List.forall_mem_cons] at htx
      exact ih (hs.process hD htx.1 hix) htx.2 s' h
  unfold Registry.executeTransaction
  cases h : processTransaction D.runtime s tx with
  | ok s' => exact hprocess s' h
  | error e => exact hs

omit [DecidableEq Pubkey] [DecidableEq Address] in
/-- The transaction of `publishManifest` appends what it is given, for its own wallet. -/
theorem sound_publishManifest (hD : D.Lawful) {w : WalletPubKey} {cid : String}
    (hcid : HasManifest D.platform base issued w cid) (registry : Option (RegistryAccount Pubkey))
    (now : Int64) : ∀ ix ∈ publishManifest D.unicode D.runtime (D.publicKey w) D.vaultId cid 1
      registry now, ix.Sound D users base issued := by
  have happend : (createAppendManifestInstruction D.unicode D.runtime (D.publicKey w) D.vaultId cid 1
      now).Sound D users base issued := by
    rintro ctx hash cid' version h w' - hkey
    obtain ⟨rfl, -, rfl, -⟩ := Instruction.appendManifest.inj h
    obtain rfl : w = w' := hD.publicKey hkey
    exact hcid
  have hinit : (createInitRegistryInstruction D.unicode D.runtime (D.publicKey w) D.vaultId 1
      now).Sound D users base issued := by
    rintro ctx hash cid' version h
    cases h
  intro ix hix
  unfold publishManifest at hix
  split at hix
  · rcases List.mem_cons.mp hix with rfl | hix
    · exact hinit
    · obtain rfl := List.mem_singleton.mp hix
      exact happend
  · obtain rfl := List.mem_singleton.mp hix
    exact happend

/-! ### Contracts -/

section Worlds

variable (D users base issued)

/-- What a segment of any operation promises. -/
structure WorldAdvances (s s' : World Pubkey Address) : Prop where
  browsers : ∀ n, Advances D.platform base issued (s.browser n) (s'.browser n)
  registries : RegistriesExplained D users base issued s.accounts →
    RegistriesExplained D users base issued s'.accounts

/-- Every pointer on every device and every entry of a user's registry designates an explained
manifest. -/
structure World.Holds (s : World Pubkey Address) : Prop where
  pointers : ∀ n, PointersExplained D.platform base issued (s.browser n)
  registries : RegistriesExplained D users base issued s.accounts

/-- The contract of every operation. -/
def worldContract : Contract DevicePoint (World Pubkey Address) where
  rely := WorldAdvances D users base issued
  guar := WorldAdvances D users base issued
  resumed _ _ := True
  suspends _ := True

end Worlds

namespace WorldAdvances

omit [DecidableEq Pubkey] [DecidableEq Address]

theorem refl (s : World Pubkey Address) : WorldAdvances D users base issued s s :=
  ⟨fun _ => Advances.refl _, id⟩

theorem holds {s s' : World Pubkey Address} (h : WorldAdvances D users base issued s s')
    (hs : s.Holds D users base issued) : s'.Holds D users base issued :=
  ⟨fun n => (h.browsers n).explained (hs.pointers n), h.registries hs.registries⟩

/-- What happens on one device only. -/
theorem of_sameBut {n : Nat} {s s' : World Pubkey Address} (hsame : World.SameBut n s s')
    (h : Advances D.platform base issued (s.browser n) (s'.browser n)) :
    WorldAdvances D users base issued s s' := by
  refine ⟨fun n' => ?_, fun hs => by rwa [hsame.1]⟩
  by_cases hn : n' = n
  · rw [hn]
    exact h
  · have hdevice : s'.browser n' = s.browser n' := congrArg Tabs.data (hsame.2 n' hn)
    rw [hdevice]
    exact Advances.refl _

theorem of_setBrowser {n : Nat} {s : World Pubkey Address} {b : Browser}
    (h : Advances D.platform base issued (s.browser n) b) :
    WorldAdvances D users base issued s (s.setBrowser n b) := by
  refine of_sameBut ((World.SameBut.refl n s).setTabs _) ?_
  rwa [World.browser_setBrowser]

end WorldAdvances

omit [DecidableEq Pubkey] [DecidableEq Address] in
theorem World.Holds.rely {s s' : World Pubkey Address} (hs : s.Holds D users base issued)
    (h : Relation.ReflTransGen (WorldAdvances D users base issued) s s') :
    s'.Holds D users base issued := by
  induction h with
  | refl => exact hs
  | tail _ hstep ih => exact hstep.holds ih

omit [DecidableEq Pubkey] [DecidableEq Address] in
/-- A call in a tab of device `n` keeps the contract of the world. -/
theorem lifts_tabs (n : Nat) :
    ((sharedContract D.platform base issued).onPart Tabs.data).Lifts
      (fun s : World Pubkey Address => s.devices n) (World.SameBut n)
      ((worldContract D users base issued).comap DevicePoint.service) where
  rely _ _ h := h.browsers n
  guar _ _ h hsame := WorldAdvances.of_sameBut hsame h
  resumed _ _ _ := trivial
  suspends _ _ := trivial

/-! ### Operations -/

/-- A pointer that is set to an explained manifest of its wallet. -/
theorem advances_pointed {P : Platform} {w : WalletPubKey} {cid : String} (htrim : Js.trim cid = cid)
    (hne : cid ≠ "") (hcid : HasManifest P base issued w cid) (b : Browser) :
    Advances P base issued b { b with
      localStorage := setItem b.localStorage (scopedKey P.cluster w.val) cid } := by
  refine ⟨fun h w' cid' hcid' => ?_, fun w' hw' => ?_, List.prefix_refl _⟩
  · by_cases hw : w' = w
    · subst hw
      have hsame := pointer_set_same P.cluster w' htrim hne b.localStorage
      obtain rfl := Option.some.inj (hsame.symm.trans hcid')
      exact hcid
    · exact h w' cid' ((pointer_set_ne P.cluster hw cid b.localStorage).symm.trans hcid')
  · by_cases hw : w' = w
    · subst hw
      have hsame := pointer_set_same P.cluster w' htrim hne b.localStorage
      rw [manifestCid, hsame]
      rfl
    · rwa [manifestCid, pointer_set_ne P.cluster hw cid b.localStorage]

omit [DecidableEq Pubkey] [DecidableEq Address] in
/-- The head of a registry is the CID of one of its entries. -/
theorem exists_head (hD : D.Lawful) (registry : Option (RegistryAccount Pubkey)) :
    onChainLatestManifestCid D.localeCompare
        (registry.map fun a => decodeEntries D.decoding a.entries) = none ∨
      ∃ e ∈ entriesOf registry, onChainLatestManifestCid D.localeCompare
        (registry.map fun a => decodeEntries D.decoding a.entries) = some e.manifestCid := by
  cases registry with
  | none => exact Or.inl rfl
  | some a =>
    by_cases hempty : a.entries = []
    · exact Or.inl (by simp [onChainLatestManifestCid, decodeEntries, hempty])
    · obtain ⟨i, e, he, hhead, -⟩ := selectHead_eq_some hD.localeCompare D.decoding hempty
      have hne : (decodeEntries D.decoding a.entries).isEmpty = false := by
        simpa [decodeEntries] using hempty
      refine Or.inr ⟨e, List.mem_of_getElem? he, ?_⟩
      simp only [Option.map_some, onChainLatestManifestCid, hne, hhead]
      rfl

omit [DecidableEq Pubkey] [DecidableEq Address] in
/-- Restoring from an explained registry leaves the pointers explained. -/
theorem advances_restored (hD : D.Lawful) {w : WalletPubKey}
    {registry : Option (RegistryAccount Pubkey)}
    (h : ∀ e ∈ entriesOf registry, validateCidStrict e.manifestCid = .ok () ∧
      HasManifest D.platform base issued w e.manifestCid) (b : Browser) :
    Advances D.platform base issued b (D.restored w registry b) := by
  rcases exists_head hD registry with hhead | ⟨e, he, hhead⟩
  · rw [Deployment.restored, hhead]
    exact Advances.refl b
  · obtain ⟨hvalid, hcid⟩ := h e he
    obtain ⟨hne, hchars⟩ := validateCidStrict_chars hvalid
    have htrim := trim_of_no_space hchars
    rw [Deployment.restored, hhead]
    simp only [handleRestore, hne, w.ne, or_self, if_false,
      setManifestCid_val D.platform.cluster w htrim hne]
    exact advances_pointed htrim hne hcid b

omit [DecidableEq Pubkey] [DecidableEq Address] in
/-- The pointer of device `n` is read, and at most migrated. -/
theorem wp_readOn {P : Platform} {K : Contract DevicePoint (World Pubkey Address)} (n : Nat)
    (w : WalletPubKey)
    {Q : Result (Option String) → World Pubkey Address → World Pubkey Address → Prop}
    {s₀ s : World Pubkey Address} (h : Q (.ok (manifestCid P w (s.browser n))) s₀
      (s.setBrowser n ((s.browser n).migrated P w))) :
    (((readManifestCid P w.val).zoom (World.browser n) (World.setBrowser n)).relabel
      DevicePoint.service).wp K Q s₀ s := by
  have hread : getManifestCid P.cluster w.val (s.browser n).localStorage =
      .ok (migrate P.cluster w.val (s.browser n).localStorage, manifestCid P w (s.browser n)) :=
    getManifestCid_val ..
  simp only [readManifestCid, Task.atomically, Task.zoom, Task.relabel, Task.wp_sync, Task.wp_done,
    hread]
  exact h

section Operations

variable (hD : D.Lawful)

include hD

/-- `publishManifest` of an explained manifest. -/
theorem wp_publishOn {w : WalletPubKey} {now : Int64} {cid : String}
    (hcid : HasManifest D.platform base issued w cid) {s₀ s : World Pubkey Address}
    (h₀ : WorldAdvances D users base issued s₀ s) (hs : s.Holds D users base issued) :
    (publishOn D w now cid).wp (worldContract D users base issued)
      (fun _ s₀ s => WorldAdvances D users base issued s₀ s ∧ True) s₀ s := by
  rw [publishOn, Task.wp_await]
  refine ⟨⟨trivial, h₀⟩, fun s₁ h₁ _ _ => ?_⟩
  rw [Task.wp_sync, Task.wp_await]
  refine ⟨⟨trivial, WorldAdvances.refl s₁⟩, fun s₂ h₂ _ _ => ?_⟩
  rw [Task.wp_sync, Task.wp_done]
  have hs₂ : s₂.Holds D users base issued := (hs.rely h₁).rely h₂
  refine ⟨⟨fun n => Advances.refl _, fun hregistries => ?_⟩, trivial⟩
  exact hregistries.executeTransaction hD (sound_publishManifest hD hcid _ _)

omit [DecidableEq Pubkey] [DecidableEq Address] in
theorem wp_restoreOn {n : Nat} {w : WalletPubKey} (hw : users w) {s : World Pubkey Address}
    (hs : s.Holds D users base issued) :
    (restoreOn D n w).wp (worldContract D users base issued)
      (fun _ s₀ s => WorldAdvances D users base issued s₀ s ∧ True) s s := by
  rw [restoreOn, Task.wp_await]
  refine ⟨⟨trivial, WorldAdvances.refl s⟩, fun s₁ h₁ _ _ => ?_⟩
  rw [Task.wp_sync, Task.wp_await]
  have hregistry := (hs.rely h₁).registries w hw
  refine ⟨⟨trivial, WorldAdvances.refl s₁⟩, fun s₂ h₂ _ _ => ?_⟩
  rw [Task.wp_sync, Task.wp_done]
  exact ⟨WorldAdvances.of_setBrowser (advances_restored hD hregistry _), trivial⟩

/-- Every operation keeps the contract. -/
theorem parallel_devices : Parallel (deviceBody D)
    (fun c _ => c.2.AllowedFor D users ∧ ∀ tab call, c.2 = .manifest tab call → issued call)
    (fun _ _ _ => True) (fun _ => worldContract D users base issued)
    (fun s => s.Holds D users base issued) (fun _ _ _ => True) where
  keeps := by
    rintro ⟨n, op⟩ s ⟨hallowed, hissued⟩ hs
    cases op with
    | manifest tab call =>
      have htabs := (parallel_tabs hD.platform hD.idealAead base issued (s.browser n)).keeps
        (tab, call) (s.devices n) ⟨hallowed, hissued tab call rfl⟩ ⟨hs.pointers n, fun _ h => h⟩
      refine Task.wp_map.mpr (Task.wp_relabel.mpr ?_)
      refine Task.wp_mono (fun r s₀ s h => ?_) (Task.wp_zoom_lift (lifts_tabs n)
        (World.devices_setTabs n) (World.SameBut.refl n) (fun _ _ t h => h.setTabs t) htabs
        (World.SameBut.refl n s))
      exact ⟨WorldAdvances.of_sameBut h.2 h.1.1, trivial⟩
    | publish w now =>
      have hmigrated : WorldAdvances D users base issued s (s.setBrowser n
          ((s.browser n).migrated D.platform w)) := .of_setBrowser (advances_migrated w _)
      refine Task.wp_bind.mpr (wp_readOn n w ?_)
      cases hcid : manifestCid D.platform w (s.browser n) with
      | none => exact (Task.wp_done ..).mpr ⟨hmigrated, trivial⟩
      | some cid => exact wp_publishOn hD (hs.pointers n w cid hcid) hmigrated (hmigrated.holds hs)
    | restore w => exact wp_restoreOn hD hallowed hs
    | instruction ix =>
      refine (Task.wp_sync ..).mpr ((Task.wp_done ..).mpr
        ⟨⟨fun n => Advances.refl _, fun h => ?_⟩, trivial⟩)
      exact h.execute hD fun ctx hash cid version hix w hw hwallet =>
        absurd (by rw [hix]; exact hwallet) (hallowed w hw)
  rely_guar _ _ _ _ h := h
  inv_guar _ _ _ h hs := h.holds hs
  post_guar _ _ _ _ _ _ _ := trivial
  resumed _ _ _ _ _ := trivial

end Operations

/-! ### Restorable vaults -/

section Restorable

variable (D users)

/-- A pointer of `w` on some device, or an entry of the registry of a user `w`, is `cid`. -/
def World.Names (s : World Pubkey Address) (w : WalletPubKey) (cid : String) : Prop :=
  (∃ n, manifestCid D.platform w (s.browser n) = some cid) ∨
    (users w ∧ ∃ e ∈ entriesOf (D.registry w s.accounts), e.manifestCid = cid)

/-- The manifests that are there, with the signatures that open them. -/
def World.Has (s : World Pubkey Address) (w : WalletPubKey) (sig : Bytes) (m : Json) : Prop :=
  ∃ cid, s.Names D users w cid ∧ openManifest D.platform w.val sig (D.platform.content cid) = .ok m

/-- Whatever is named is a manifest. -/
structure World.Whole (s : World Pubkey Address) : Prop where
  opens : ∀ w cid, s.Names D users w cid →
    ∃ sig m, openManifest D.platform w.val sig (D.platform.content cid) = .ok m
  valid : ∀ w, users w → ∀ e ∈ entriesOf (D.registry w s.accounts),
    validateCidStrict e.manifestCid = .ok ()

end Restorable

omit [DecidableEq Pubkey] [DecidableEq Address] in
theorem World.Whole.holds {s : World Pubkey Address} (h : s.Whole D users) (issued : Call → Prop) :
    s.Holds D users (s.Has D users) issued := by
  have hnamed : ∀ w cid, s.Names D users w cid →
      HasManifest D.platform (s.Has D users) issued w cid := by
    intro w cid hcid
    obtain ⟨sig, m, hopen⟩ := h.opens w cid hcid
    have hm : s.Has D users w sig m := ⟨cid, hcid, hopen⟩
    exact ⟨sig, m, hopen, Or.inl ⟨m, hm⟩, m, [], Or.inl ⟨sig, hm⟩, by simp, rfl⟩
  refine ⟨fun n w cid hcid => hnamed w cid (Or.inl ⟨n, hcid⟩), fun w hw e he => ?_⟩
  exact ⟨h.valid w hw e he, hnamed w _ (Or.inr ⟨hw, e, he, rfl⟩)⟩

omit [DecidableEq Pubkey] [DecidableEq Address] in
/-- Restoring from a registry whose last entry is later than the others sets the pointer to it. -/
theorem manifestCid_restored (hD : D.Lawful) {w : WalletPubKey}
    {registry : Option (RegistryAccount Pubkey)} {earlier : List (RegistryEntry Pubkey)}
    {e : RegistryEntry Pubkey} (hentries : entriesOf registry = earlier ++ [e])
    (hlast : ∀ e' ∈ earlier, e'.time < e.time) (hvalid : validateCidStrict e.manifestCid = .ok ())
    (b : Browser) : manifestCid D.platform w (D.restored w registry b) = some e.manifestCid := by
  cases registry with
  | none => exact absurd hentries (by simp [entriesOf])
  | some a =>
    have hentries : a.entries = earlier ++ [e] := hentries
    have hne : a.entries ≠ [] := by simp [hentries]
    obtain ⟨i, e', he', hhead, hlatest⟩ := selectHead_eq_some hD.localeCompare D.decoding hne
    obtain rfl : e' = e := by
      have htime := hlatest e (by simp [hentries])
      have hmem := List.mem_of_getElem? he'
      rw [hentries, List.mem_append, List.mem_singleton] at hmem
      rcases hmem with hmem | rfl
      · have := hlast e' hmem
        omega
      · rfl
    have hempty : (decodeEntries D.decoding a.entries).isEmpty = false := by
      simpa [decodeEntries] using hne
    have hcid : onChainLatestManifestCid D.localeCompare
        ((some a).map fun a => decodeEntries D.decoding a.entries) = some e'.manifestCid := by
      simp only [Option.map_some, onChainLatestManifestCid, hempty, hhead]
      rfl
    rw [Deployment.restored, hcid]
    exact pointer_handleRestore D.platform.cluster w hvalid b.localStorage

/-- What is at the pointer is loaded with its signature, if no step of the read fails. -/
theorem load_of_open {P : Platform} (hP : P.Lawful) {w : WalletPubKey} {p : LoadParams}
    (hw : Js.trim p.walletPubKey = w.val) (hunlock : hasUnlock p.unlock = true)
    (hfault : p.env.fault.NoneOf readSteps) {b : Browser} {cid : String} {m : Json}
    (hcid : manifestCid P w b = some cid)
    (hopen : openManifest P w.val p.signatureBytes (P.content cid) = .ok m) :
    ((loadManifestOrInit P p).run b).2 = .ok (.loaded m cid) := by
  obtain ⟨key, hfetch⟩ := fetchManifest_of_open p.env.fault
    ("Impossible de charger le manifest : JSON invalide (CID=" ++ cid ++ ")")
    (hfault .catBytes (by decide)) (hfault .unwrap (by decide)) (hfault .decrypt (by decide)) hopen
  rw [run_loadManifestOrInit hP hw hunlock, loadOutcome, hcid]
  simp only [hfetch]
  rfl

/-- In every run, everything stays explained. -/
theorem DevicesRun.holds (hD : D.Lawful) {s : World Pubkey Address} (hstart : s.Whole D users)
    {q : DevicePool Pubkey Address} (hrun : DevicesRun D users s q) :
    q.state.Holds D users (s.Has D users) (IssuedOn q) := by
  have hissued : Pool.Run (deviceBody D) (fun c _ => c.2.AllowedFor D users ∧
      ∀ tab call, c.2 = .manifest tab call → IssuedOn q call) (fun _ _ _ => True) (.init s) q := by
    refine hrun.among_calls.imp_allowed ?_
    rintro ⟨n, op⟩ s ⟨hallowed, hmem⟩
    refine ⟨hallowed, fun tab call hop => ⟨n, tab, ?_⟩⟩
    rwa [show op = .manifest tab call from hop] at hmem
  exact ((parallel_devices hD).run_inv hissued (Parallel.inv_init (hstart.holds _))).state

/-- What the users publish can be restored. In every run, every pointer on every device and every
entry of a user's registry designates a manifest that some of the issued appends for that wallet
have made one after the other; and where the last entry is later than the others, any browser that
restores and loads with the signature that sealed it gets exactly that manifest. -/
theorem devices_restorable (hD : D.Lawful) {s : World Pubkey Address} (hstart : s.Whole D users)
    {q : DevicePool Pubkey Address} (hrun : DevicesRun D users s q) (w : WalletPubKey) :
    (∀ n cid, manifestCid D.platform w (q.state.browser n) = some cid →
      HasManifest D.platform (s.Has D users) (IssuedOn q) w cid) ∧
    (users w → ∀ e ∈ entriesOf (D.registry w q.state.accounts),
      HasManifest D.platform (s.Has D users) (IssuedOn q) w e.manifestCid) ∧
    (users w → ∀ earlier e, entriesOf (D.registry w q.state.accounts) = earlier ++ [e] →
      (∀ e' ∈ earlier, e'.time < e.time) →
        ∃ sig m, ExplainedAt D.platform (s.Has D users) (IssuedOn q) w e.manifestCid sig m ∧
          ∀ (b : Browser) (p : LoadParams), Js.trim p.walletPubKey = w.val → p.signatureBytes = sig →
            hasUnlock p.unlock = true → p.env.fault.NoneOf readSteps →
              ((loadManifestOrInit D.platform p).run
                (D.restored w (D.registry w q.state.accounts) b)).2 =
                  .ok (.loaded m e.manifestCid)) := by
  have hq := DevicesRun.holds hD hstart hrun
  refine ⟨fun n cid hcid => hq.pointers n w cid hcid, fun hw e he => (hq.registries w hw e he).2, ?_⟩
  intro hw earlier e hentries hlast
  obtain ⟨hvalid, sig, m, hat⟩ := hq.registries w hw e (by simp [hentries])
  refine ⟨sig, m, hat, fun b p hp hsig hunlock hfault => ?_⟩
  refine load_of_open hD.platform hp hunlock hfault
    (manifestCid_restored hD hentries hlast hvalid b) ?_
  rw [hsig]
  exact hat.opens

/-! ### Operations that run alone -/

omit [DecidableEq Pubkey] [DecidableEq Address] in
theorem World.setTabs_setTabs (n : Nat) (t t' : Tabs) (s : World Pubkey Address) :
    (s.setTabs n t').setTabs n t = s.setTabs n t := by
  simp [World.setTabs]

omit [DecidableEq Pubkey] [DecidableEq Address] in
theorem World.setTabs_devices (n : Nat) (s : World Pubkey Address) :
    s.setTabs n (s.devices n) = s := by
  simp [World.setTabs]

omit [DecidableEq Pubkey] [DecidableEq Address] in
theorem World.setBrowser_setBrowser (n : Nat) (b b' : Browser) (s : World Pubkey Address) :
    (s.setBrowser n b').setBrowser n b = s.setBrowser n b := by
  simp [World.setBrowser, World.setTabs]

omit [DecidableEq Pubkey] [DecidableEq Address] in
theorem World.setBrowser_browser (n : Nat) (s : World Pubkey Address) :
    s.setBrowser n (s.browser n) = s := by
  simp [World.setBrowser, World.setTabs, World.browser]

theorem run_manifest (n tab : Nat) (c : Call) (s : World Pubkey Address) :
    (deviceBody D (n, .manifest tab c)).run s =
      (s.setTabs n ((tabBody D.platform (tab, c)).run (s.devices n)).1,
        ((tabBody D.platform (tab, c)).run (s.devices n)).2.map .manifest) := by
  rw [deviceBody, Task.run_map, Task.run_relabel, Task.run_zoom _ _ (World.devices_setTabs n)
    (World.setTabs_setTabs n) (World.setTabs_devices n)]

/-- A publication of what the pointer names. -/
theorem run_publish {n : Nat} {w : WalletPubKey} (now : Int64) {s : World Pubkey Address}
    {cid : String} (hcid : manifestCid D.platform w (s.browser n) = some cid) :
    ∃ s', (deviceBody D (n, .publish w now)).run s = (s', .ok .published) ∧
      s'.accounts = executeTransaction D.runtime s.accounts (publishManifest D.unicode D.runtime
        (D.publicKey w) D.vaultId cid 1 (D.registry w s.accounts) now) := by
  have hread : (((readManifestCid D.platform w.val).zoom (World.browser n)
      (World.setBrowser n)).relabel DevicePoint.service).run s =
        (s.setBrowser n ((s.browser n).migrated D.platform w), .ok (some cid)) := by
    rw [Task.run_relabel, Task.run_zoom _ _ (World.browser_setBrowser n)
      (World.setBrowser_setBrowser n) (World.setBrowser_browser n), run_readManifestCid, hcid]
  exact ⟨_, Task.run_bind_ok hread _, rfl⟩

theorem run_restore (n : Nat) (w : WalletPubKey) (s : World Pubkey Address) :
    (deviceBody D (n, .restore w)).run s =
      (s.setBrowser n (D.restored w (D.registry w s.accounts) (s.browser n)), .ok .restored) := rfl

/-- An append that seals what its pointer designates. -/
theorem run_append {n tab : Nat} {w : WalletPubKey} {p : AppendParams} {s : World Pubkey Address}
    {cid : String} {m : Json} {bytes : Bytes} (hP : D.platform.Lawful)
    (hcheck : appendChecks p = .ok ()) (hw : Js.trim p.walletPubKey = w.val)
    (hcid : manifestCid D.platform w (s.browser n) = some cid)
    (hseal : sealAppended D.platform p w.val cid = .ok (m, bytes)) :
    ∃ s', (deviceBody D (n, .manifest tab (.append p))).run s =
        (s', .ok (.manifest (.append m (D.platform.cidOf bytes)))) ∧
      s'.accounts = s.accounts ∧
        manifestCid D.platform w (s'.browser n) = some (D.platform.cidOf bytes) := by
  obtain ⟨hdata, hresult⟩ :=
    run_append_sealed (s := (s.devices n).tab tab) hP hcheck hw hcid hseal
  refine ⟨s.setTabs n ((s.devices n).setTab tab
    ((appendEntryAndPersist D.platform p).run ((s.devices n).tab tab)).1), ?_, rfl, ?_⟩
  · rw [run_manifest, run_tabBody_append, hresult]
    rfl
  · rw [World.browser, World.devices_setTabs, Tabs.setTab, hdata]
    exact manifestCid_stored_same hP ..

theorem runsAlone_append {n tab : Nat} {w : WalletPubKey} {p : AppendParams}
    {s : World Pubkey Address} (hw : Js.trim p.walletPubKey = w.val)
    (hfree : ((s.devices n).tab tab).Free) :
    (deviceBody D (n, .manifest tab (.append p))).RunsAlone s := by
  have hzoom : ((tabBody D.platform (tab, .append p)).zoom (fun s : World Pubkey Address => s.devices n)
      (World.setTabs n)).RunsAlone s :=
    .zoom (World.devices_setTabs n) (runsAlone_tabBody_append hw hfree)
  exact (hzoom.relabel _).map _

theorem runsAlone_publish (n : Nat) (w : WalletPubKey) (now : Int64) (s : World Pubkey Address) :
    (deviceBody D (n, .publish w now)).RunsAlone s := by
  have hread : (readManifestCid D.platform w.val).NeverBlocks := .atomically _
  refine (((hread.zoom _ _).runsAlone s).relabel _).bind fun cid => ?_
  cases cid with
  | none => trivial
  | some cid => exact ⟨rfl, rfl, trivial⟩

theorem runsAlone_restore (n : Nat) (w : WalletPubKey) (s : World Pubkey Address) :
    (deviceBody D (n, .restore w)).RunsAlone s := ⟨rfl, rfl, trivial⟩

/-! ### A sample -/

/-- Wallets as public keys. -/
def sampleWalletRuntime : Runtime String (String × Hash) where
  hash := sampleRuntime.hash
  registryAddress := Prod.mk
  toLowercase := UnicodeData.basicLatin.toLowercase

/-- Devices on the platform on which `bytes` have a CID that the program takes. -/
noncomputable def sampleDeployment (bytes : Bytes) : Deployment String (String × Hash) where
  platform := pinned bytes
  unicode := .basicLatin
  runtime := sampleWalletRuntime
  publicKey w := w.val
  vaultId := "local-default"
  localeCompare := sampleCompare
  decoding := .bn

theorem sampleDeployment_lawful (bytes : Bytes) : (sampleDeployment bytes).Lawful where
  platform := pinned_lawful bytes
  idealAead := pinned_idealAead bytes
  publicKey _ _ h := WalletPubKey.val_injective h
  registryAddress _ _ _ _ h := Prod.mk.inj h
  localeCompare := sampleCompare_order

/-- Device 0 has stored a manifest, and nothing is published. -/
noncomputable def storedWorld (bytes : Bytes) : World String (String × Hash) where
  accounts _ := none
  devices n := Tabs.fresh (if n = 0 then emptyBrowser.stored symbolic sampleWallet bytes
    else emptyBrowser)

theorem names_storedWorld {bytes₀ bytes : Bytes} {w : WalletPubKey} {cid : String}
    (h : (storedWorld bytes₀).Names (sampleDeployment bytes) (fun _ => True) w cid) :
    w = sampleWallet ∧ (pinned bytes).content cid = bytes₀ := by
  rcases h with ⟨n, hcid⟩ | ⟨-, e, he, -⟩
  · have hcid : manifestCid symbolic w (if n = 0 then emptyBrowser.stored symbolic sampleWallet bytes₀
      else emptyBrowser) = some cid := hcid
    split at hcid
    · by_cases hw : w = sampleWallet
      · subst hw
        rw [manifestCid_stored_same symbolic_lawful] at hcid
        obtain rfl := Option.some.inj hcid
        exact ⟨rfl, pinned_content_cidOf bytes bytes₀⟩
      · have hother : manifestCid symbolic w (emptyBrowser.stored symbolic sampleWallet bytes₀) =
            manifestCid symbolic w emptyBrowser := pointer_set_ne _ hw _ _
        rw [hother] at hcid
        cases hcid
    · cases hcid
  · cases he

theorem openManifest_withIpfs (P : Platform) (cidOf : Bytes → String) (content : String → Bytes)
    (w : String) (sig bytes : Bytes) :
    openManifest (P.withIpfs cidOf content) w sig bytes = openManifest P w sig bytes := rfl

theorem openManifest_pinned (w : String) (sig bytes b : Bytes) :
    openManifest (pinned bytes) w sig b = openManifest symbolic w sig b :=
  openManifest_withIpfs ..

theorem storedWorld_whole {bytes₀ : Bytes} (bytes : Bytes)
    (hseal : sealEmpty symbolic sampleWallet.val sampleLoad = .ok bytes₀) :
    (storedWorld bytes₀).Whole (sampleDeployment bytes) fun _ => True where
  opens w cid h := by
    obtain ⟨rfl, hcontent⟩ := names_storedWorld h
    have hopen : openManifest (pinned bytes) sampleWallet.val sampleLoad.signatureBytes
        ((pinned bytes).content cid) = .ok (emptyManifest sampleWallet.val sampleLoad.env.nowIso) := by
      rw [hcontent, openManifest_pinned]
      exact openManifest_sealEmpty symbolic_lawful hseal
    exact ⟨_, _, hopen⟩
  valid w _ e he := by cases he

/-- An append reads the object of the pointer only. -/
theorem sealAppended_withIpfs (P : Platform) (cidOf : Bytes → String) {content : String → Bytes}
    {p : AppendParams} {w cid : String} (h : content cid = P.content cid) :
    sealAppended (P.withIpfs cidOf content) p w cid = sealAppended P p w cid := by
  have hcontent : (P.withIpfs cidOf content).content cid = P.content cid := h
  simp only [sealAppended, fetchManifest, hcontent]
  rfl

theorem sealAppended_pinned (p : AppendParams) (w : String) (bytes₀ bytes : Bytes) :
    sealAppended (pinned bytes) p w (symbolic.cidOf bytes₀) =
      sealAppended symbolic p w (symbolic.cidOf bytes₀) :=
  sealAppended_withIpfs symbolic _
    ((pinned_content_cidOf bytes bytes₀).trans (symbolic_lawful.content_cidOf bytes₀).symm)

/-- Device 0 appends to the manifest that it has stored and publishes the result, which device 2
restores. A restoration on device 1 is still in flight. -/
structure SharedAppend (p : AppendParams) (m : Json) (bytes₀ bytes : Bytes)
    (q : DevicePool String (String × Hash)) : Prop where
  stored : sealEmpty symbolic sampleWallet.val sampleLoad = .ok bytes₀
  opens : openManifest symbolic sampleWallet.val p.signatureBytes bytes = .ok m
  run : DevicesRun (sampleDeployment bytes) (fun _ => True) (storedWorld bytes₀) q
  calls : q.calls = [(1, .restore sampleWallet), (0, .manifest 0 (.append p)),
    (0, .publish sampleWallet 1700000000), (2, .restore sampleWallet)]
  appended : q.threads[1]? = some ((0, .manifest 0 (.append p)),
    .done (.ok (.manifest (.append m "bb"))))
  published : ∃ e, entriesOf ((sampleDeployment bytes).registry sampleWallet q.state.accounts) = [e] ∧
    e.manifestCid = "bb"
  restored : manifestCid symbolic sampleWallet (q.state.browser 2) = some "bb"

/-- The entry that the first publication of the sample wallet makes. -/
def publishedEntry : RegistryEntry String :=
  newEntry sampleWalletRuntime (clientContext .basicLatin sampleWalletRuntime sampleWallet.val
    "local-default" 1700000000) "bb" 1

theorem registry_published (bytes : Bytes) :
    entriesOf ((sampleDeployment bytes).registry sampleWallet (executeTransaction sampleWalletRuntime
      (fun _ => none) (publishManifest .basicLatin sampleWalletRuntime sampleWallet.val "local-default"
        "bb" 1 none 1700000000))) = [publishedEntry] := by
  have hhash : sampleWalletRuntime.hash (asBytes "local-default") =
      vaultIdHash .basicLatin sampleWalletRuntime "local-default" := by
    rw [vaultIdHash, isVaultId_sample.vaultIdCanonical UnicodeData.basicLatin_standard]
  have hfresh : fetchRegistry .basicLatin sampleWalletRuntime (fun _ => none) sampleWallet.val
      "local-default" = none := rfl
  have houtcome : PublishOutcome .basicLatin sampleWalletRuntime (fun _ => none) sampleWallet.val
      "local-default" "bb" 1700000000 none (Publishable (entriesOf (fetchRegistry .basicLatin
        sampleWalletRuntime (fun _ => none) sampleWallet.val "local-default")) "bb") :=
    publish_fresh (isVaultId_sample.validate UnicodeData.basicLatin_standard) hhash hfresh
  rw [hfresh] at houtcome
  have hpublish := houtcome.published ⟨by decide, fun e he => absurd he List.not_mem_nil, by decide⟩
  obtain ⟨a, ha, -, hentries⟩ := hpublish.registry
  have hregistry : (sampleDeployment bytes).registry sampleWallet _ = some a := ha
  rw [hregistry, entriesOf, hentries]
  rfl

/-- The run, for an append that the empty manifest takes. -/
theorem exists_sharedAppend {p : AppendParams} (hw : Js.trim p.walletPubKey = sampleWallet.val)
    (hcheck : appendChecks p = .ok ()) (hfault : p.env.fault.NoneOf appendSteps)
    (hsig : p.signatureBytes = sampleLoad.signatureBytes) {m : Json}
    (hmerge : mergeEntry p (emptyManifest sampleWallet.val sampleLoad.env.nowIso) = .ok m) :
    ∃ bytes₀ bytes q, SharedAppend p m bytes₀ bytes q := by
  obtain ⟨bytes₀, hseal⟩ := (exists_sealEmpty_iff symbolic_lawful sampleWallet (p := sampleLoad)).mpr
    fun _ _ => rfl
  have hopen₀ : openManifest symbolic sampleWallet.val p.signatureBytes
      (symbolic.content (symbolic.cidOf bytes₀)) =
        .ok (emptyManifest sampleWallet.val sampleLoad.env.nowIso) := by
    rw [symbolic_lawful.content_cidOf, hsig]
    exact openManifest_sealEmpty symbolic_lawful hseal
  obtain ⟨⟨m', bytes⟩, happend⟩ :=
    (exists_sealAppended_iff symbolic_lawful hopen₀).mpr ⟨⟨m, hmerge⟩, hfault⟩
  obtain ⟨m₀, hopen₀', hmerge', hopen⟩ := sealAppended_eq_ok symbolic_lawful happend
  obtain rfl := Except.ok.inj (hopen₀.symm.trans hopen₀')
  obtain rfl := Except.ok.inj (hmerge.symm.trans hmerge')
  have hpinned : sealAppended (pinned bytes) p sampleWallet.val (symbolic.cidOf bytes₀) =
      .ok (m, bytes) := by rw [sealAppended_pinned, happend]
  have hpointer : manifestCid (pinned bytes) sampleWallet ((storedWorld bytes₀).browser 0) =
      some (symbolic.cidOf bytes₀) := manifestCid_stored_same symbolic_lawful ..
  have hstart : DevicesRun (sampleDeployment bytes) (fun _ => True) (storedWorld bytes₀)
      ⟨storedWorld bytes₀, [((1, Operation.restore sampleWallet), restoreOn (sampleDeployment bytes) 1
        sampleWallet)]⟩ := .single (Pool.Step.call (1, Operation.restore sampleWallet) trivial)
  obtain ⟨s₁, hrun₁, haccounts, hpointer₁⟩ := run_append (D := sampleDeployment bytes) (n := 0)
    (pinned_lawful bytes) hcheck hw hpointer hpinned
  have hbb : (sampleDeployment bytes).platform.cidOf bytes = "bb" := pinned_cidOf bytes
  rw [hbb] at hrun₁ hpointer₁
  have h₁ := hstart.trans (Pool.Run.call_alone (fun _ _ _ => trivial)
    (c := (0, Operation.manifest 0 (.append p))) ⟨sampleWallet, hw⟩
      (runsAlone_append hw (Tab.free_fresh _)))
  rw [hrun₁] at h₁
  have haccounts : s₁.accounts = fun _ => none := haccounts
  have hregistry : (sampleDeployment bytes).registry sampleWallet s₁.accounts = none := by
    rw [haccounts]
    rfl
  obtain ⟨s₂, hrun₂, haccounts₂⟩ := run_publish 1700000000 hpointer₁
  have hpublished : entriesOf ((sampleDeployment bytes).registry sampleWallet s₂.accounts) =
      [publishedEntry] := by
    rw [haccounts₂, hregistry, haccounts]
    exact registry_published bytes
  have h₂ := h₁.trans (Pool.Run.call_alone (fun _ _ _ => trivial)
    (c := (0, Operation.publish sampleWallet 1700000000)) trivial (runsAlone_publish ..))
  rw [hrun₂] at h₂
  have h₃ := h₂.trans (Pool.Run.call_alone (fun _ _ _ => trivial)
    (c := (2, Operation.restore sampleWallet)) trivial (runsAlone_restore ..))
  rw [run_restore] at h₃
  have hentries : entriesOf ((sampleDeployment bytes).registry sampleWallet s₂.accounts) =
      [] ++ [publishedEntry] := hpublished
  refine ⟨bytes₀, bytes, _, hseal, hopen, h₃, rfl, rfl, ⟨publishedEntry, hpublished, rfl⟩, ?_⟩
  rw [World.browser_setBrowser]
  exact manifestCid_restored (w := sampleWallet) (sampleDeployment_lawful bytes) hentries (by simp)
    (show validateCidStrict "bb" = .ok () by decide) (s₂.browser 2)

theorem SharedAppend.content {p : AppendParams} {m : Json} {bytes₀ bytes : Bytes}
    {q : DevicePool String (String × Hash)} (h : SharedAppend p m bytes₀ bytes q) :
    openManifest (pinned bytes) sampleWallet.val p.signatureBytes ((pinned bytes).content "bb") =
      .ok m := by
  rw [pinned_content, openManifest_pinned, h.opens]

/-- An append resolves on one device and is published, and another device restores it. -/
theorem devices_restorable_sample : ∃ (bytes₀ bytes : Bytes) (q : DevicePool String (String × Hash))
    (sig : Bytes), SharedAppend sampleAppend sampleManifest bytes₀ bytes q ∧
    HasManifest (pinned bytes) ((storedWorld bytes₀).Has (sampleDeployment bytes) fun _ => True)
      (IssuedOn q) sampleWallet "bb" ∧
    ∀ (b : Browser) (p : LoadParams), Js.trim p.walletPubKey = sampleWallet.val →
      p.signatureBytes = sig → hasUnlock p.unlock = true → p.env.fault.NoneOf readSteps →
        ((loadManifestOrInit (pinned bytes) p).run ((sampleDeployment bytes).restored sampleWallet
          ((sampleDeployment bytes).registry sampleWallet q.state.accounts) b)).2 =
            .ok (.loaded sampleManifest "bb") := by
  have hw : Js.trim sampleAppend.walletPubKey = sampleWallet.val := sampleWallet.trim_val
  obtain ⟨bytes₀, bytes, q, hq⟩ := exists_sharedAppend hw (appendChecks_ok hw rfl) (fun _ _ => rfl)
    rfl (show mergeEntry sampleAppend _ = .ok sampleManifest from rfl)
  obtain ⟨e, hentries, hbb⟩ := hq.published
  obtain ⟨hpointers, -, hrestore⟩ := devices_restorable (sampleDeployment_lawful bytes)
    (storedWorld_whole bytes hq.stored) hq.run sampleWallet
  obtain ⟨sig, m, hat, hload⟩ := hrestore trivial [] e hentries (by simp)
  rw [hbb] at hat hload
  obtain rfl := openManifest_unique (pinned_idealAead bytes) hat.opens hq.content
  exact ⟨bytes₀, bytes, q, sig, hq, hpointers 2 "bb" hq.restored, hload⟩

end SovereignJedi.Registry
