import SovereignJedi.Files.Upload
import SovereignJedi.Manifest.Service
import SovereignJedi.Registry.Hook

/-! The home page (`pages/index.tsx`) on its event loop. A rendering captures what `useSession`
gives it; its effects and its upload handler, and whatever they await, go on with that snapshot
while the session, the registry and the list of files change. -/

namespace SovereignJedi.Pages

open SovereignJedi.Js SovereignJedi.Crypto SovereignJedi.Async SovereignJedi.Session
open SovereignJedi.Manifest SovereignJedi.Registry
open SovereignJedi.Files (File maxMvpFileBytes)

variable {Pubkey Address : Type}

/-- What the page runs on: the platform, the registry program and how its client reads the accounts,
and `SJ_DEBUG`. -/
structure Deployment (Pubkey Address : Type) where
  platform : Platform
  unicode : UnicodeData
  runtime : Runtime Pubkey Address
  publicKey : String → Option Pubkey
  localeCompare : String → String → Int
  decoding : Decoding
  debug : Bool

/-! ### Snapshots -/

/-- What `refresh` copies from the session manager beside the wallet. -/
structure SessionState where
  isVaultUnlocked : Bool
  verified : Option VerifiedState
  lastUnlock : Option BuildUnlockResult
  lastUnlockSignatureBytes : Option Bytes
  lastVaultRoot : Option BuildVaultRootResult
  lastVaultRootSignatureBytes : Option Bytes

def SessionState.of (s : SessionManager) : SessionState where
  isVaultUnlocked := s.vaultUnlocked
  verified := s.verified
  lastUnlock := s.lastUnlock
  lastUnlockSignatureBytes := s.lastUnlockSignatureBytes
  lastVaultRoot := s.lastVaultRoot
  lastVaultRootSignatureBytes := s.lastVaultRootSignatureBytes

/-- What `useSession` returns to a rendering. -/
structure Snapshot (Pubkey : Type) where
  hook : Hook Pubkey
  session : SessionState

/-- The hook when it is mounted. -/
def Snapshot.mount (s : SessionManager) : Snapshot Pubkey := ⟨⟨s.walletPubKey, none, none⟩, .of s⟩

def Snapshot.refresh (c : Snapshot Pubkey) (s : SessionManager) : Snapshot Pubkey :=
  ⟨c.hook.refresh s.walletPubKey, .of s⟩

/-- The connected wallet: `null` and the empty string are none. -/
def Snapshot.wallet (c : Snapshot Pubkey) : Option String := c.hook.walletPubKey.filter fun w => w != ""

def Snapshot.isSessionGateOk (c : Snapshot Pubkey) : Bool :=
  c.wallet.isSome && c.session.isVaultUnlocked && c.session.verified.isSome

/-- What a load needs of a snapshot. -/
structure Prerequisites where
  walletPubKey : String
  vaultRootSig : Bytes
  unlock : BuildUnlockResult

def Snapshot.prerequisites (c : Snapshot Pubkey) : Option Prerequisites :=
  match c.wallet, c.session.lastVaultRootSignatureBytes, c.session.lastUnlock with
  | some walletPubKey, some vaultRootSig, some unlock =>
    if c.isSessionGateOk then some { walletPubKey, vaultRootSig, unlock } else none
  | _, _, _ => none

/-- What is shown when a prerequisite is missing. -/
def Snapshot.missingMessage (c : Snapshot Pubkey) : Option String :=
  if c.isSessionGateOk && c.wallet.isSome && c.session.lastVaultRootSignatureBytes.isNone then
    some "Vault Root requis pour charger le manifest (SJ_VAULT_ROOT_V1 non disponible en mémoire)."
  else if c.isSessionGateOk && c.wallet.isSome && c.session.lastUnlock.isNone then
    some "Unlock Vault requis (SJ_UNLOCK_V1 non disponible en mémoire)."
  else if !c.isSessionGateOk && c.wallet.isSome then
    some "Accès vault requis : Verify + Unlock Vault."
  else none

/-- The parts of the string `refreshKey`; the source joins them with `|`, the vault being fixed. -/
structure RefreshKey where
  walletPubKey : String
  manifestCid : String
  messageToSign : String
  gateOk : Bool
  deriving DecidableEq

def Snapshot.refreshKey (c : Snapshot Pubkey) (manifestCid : Option String) : RefreshKey where
  walletPubKey := c.hook.walletPubKey.getD ""
  manifestCid := manifestCid.getD ""
  messageToSign := (c.session.lastVaultRoot.map fun r => r.messageToSign).getD ""
  gateOk := c.isSessionGateOk

/-! ### Files -/

/-- A row of the list, as far as it comes from the manifest. -/
structure FileItem where
  id : Value
  name : Json
  sizeBytes : Json
  dateISO : Value
  cid : Value

def fileItem (e : Json) : Result FileItem := do
  let id ← prop (some e) "entryId"
  return {
    id
    name := orElse (e.get "originalFileName") (.str "(unknown)")
    sizeBytes := orElse (e.get "fileSize") (.num 0)
    dateISO := e.get "addedAt"
    cid := e.get "fileCid" }

/-- `(manifest?.entries ?? []).map(..)`. -/
def fileItems (manifest : Json) : Result (List FileItem) :=
  match manifest.get "entries" with
  | none => .ok []
  | some .null => .ok []
  | some (.arr es) => es.mapM fileItem
  | some _ => .error (.typeError "(manifest?.entries ?? []).map is not a function")

/-- The state of the page: the list, the message beside it and the two refs. `reported` is whether a
load has reported an error or that a restore is required, and neither another load nor a closed gate
has replaced that since. -/
structure Page where
  files : List FileItem
  manifestErrorMessage : Option String
  refreshInFlight : Bool
  lastRefreshKey : Option RefreshKey
  reported : Bool

/-- What a load has failed with. -/
def Page.fail (e : JsError) (page : Page) : Page :=
  { page with manifestErrorMessage := some e.message, refreshInFlight := false, reported := true }

/-- The manifest of a result. -/
def loadedManifest : LoadResult → Option Json
  | .loaded manifest _ => some manifest
  | .created manifest _ => some manifest
  | .restoreRequired => none

/-- `refreshFromManifest` after `loadManifestOrInit`. -/
def Page.settle (refreshKey : RefreshKey) (r : Result LoadResult) (page : Page) : Page :=
  match r with
  | .error e => page.fail e
  | .ok result =>
    match loadedManifest result with
    | none => { page with
        files := [], manifestErrorMessage := none, refreshInFlight := false, reported := true }
    | some manifest =>
      match fileItems manifest with
      | .error e => page.fail e
      | .ok files => {
          files, manifestErrorMessage := none, refreshInFlight := false
          lastRefreshKey := some refreshKey, reported := false }

/-! ### The page -/

/-- What is awaited, with the snapshot that it goes on with: the load of a refresh, the upload of a
file, or the append that follows it. -/
inductive Job (Pubkey : Type) where
  | refresh (c : Snapshot Pubkey) (refreshKey : RefreshKey)
      (load : Task AwaitPoint WalletTab JsError LoadResult)
  | upload (c : Snapshot Pubkey) (pre : Prerequisites) (file : File)
  | append (c : Snapshot Pubkey) (p : AppendParams)
      (append : Task AwaitPoint WalletTab JsError (Json × String))

/-- One tab with the page. `state` is what the hook holds, `view` what was rendered last, after the
earlier `renderings`, and `effects` the rendering whose effects have run last, if any have. -/
structure Home (Pubkey Address : Type) where
  accounts : Accounts Pubkey Address
  sessionManager : SessionManager
  state : Snapshot Pubkey
  view : Snapshot Pubkey
  renderings : List (Snapshot Pubkey)
  effects : Option (Snapshot Pubkey)
  requests : List (Request Pubkey)
  tab : WalletTab
  page : Page
  jobs : List (Job Pubkey)

/-- The page when it is opened. -/
def Home.init (accounts : Accounts Pubkey Address) (s : SessionManager) (b : Browser) :
    Home Pubkey Address where
  accounts
  sessionManager := s
  state := .mount s
  view := .mount s
  renderings := [.mount s]
  effects := none
  requests := []
  tab := .fresh b
  page := ⟨[], none, false, none, false⟩
  jobs := []

/-- An uploaded file. -/
structure Uploaded where
  cid : String
  envelope : Value
  envelope_wf : ∀ j, envelope = some j → j.WF

/-- The entry that `handleFile` appends. -/
def fileEntry (file : File) (u : Uploaded) : EntryArg where
  fileCid := u.cid
  envelope := u.envelope
  envelope_wf := u.envelope_wf
  entryId := none
  addedAt := none
  originalFileName := some file.name
  mimeType := some (if file.type = "" then "application/octet-stream" else file.type)
  fileSize := some file.bytes.length
  fileIntegritySha256B64 := none

def unlockValue (u : BuildUnlockResult) : Value :=
  some (.obj [("canonicalObject", u.canonicalObject.toJson), ("messageToSign", .str u.messageToSign)])

/-- What happens in the tab or to the accounts. `sessionManager` is whatever the session manager
goes through, and `handleFile` a handler of any rendering so far. The events that call the service
carry what the call gets from outside. -/
inductive Event (Pubkey Address : Type) where
  | instruction (ix : Instruction Pubkey Address)
  | sessionManager (s : SessionManager)
  | refresh
  | render
  | runEffects (env env' : LoadEnv)
  | fail (i : Nat) (message : Option String)
  | respond (i : Nat)
  | deliver (i : Nat)
  | handleFile (rendering : Nat) (file : File)
  | uploaded (i : Nat) (outcome : Result Uploaded) (env : AppendEnv)
  | advance (i : Nat)
  | settle (i : Nat) (env : LoadEnv)

section Apply

variable [DecidableEq Pubkey] [DecidableEq Address] (W : Deployment Pubkey Address)

/-- The CID that the page takes for the published one. -/
def Snapshot.head (c : Snapshot Pubkey) : Option String := c.hook.head W.localeCompare W.decoding

def safeGetManifestCid (walletPubKey : Option String) (b : Browser) : Browser × Option String :=
  match walletPubKey with
  | none => (b, none)
  | some w =>
    match getManifestCid W.platform.cluster w b.localStorage with
    | .ok (s, cid) => ({ b with localStorage := s }, cid)
    | .error _ => (b, none)

def Snapshot.loadParams (c : Snapshot Pubkey) (pre : Prerequisites) (env : LoadEnv) : LoadParams where
  walletPubKey := pre.walletPubKey
  signatureBytes := pre.vaultRootSig
  unlock := unlockValue pre.unlock
  onChainLatestManifestCid := c.head W
  env

def Snapshot.appendParams (c : Snapshot Pubkey) (pre : Prerequisites) (file : File) (u : Uploaded)
    (env : AppendEnv) : AppendParams where
  walletPubKey := pre.walletPubKey
  signatureBytes := pre.vaultRootSig
  unlock := unlockValue pre.unlock
  entry := fileEntry file u
  onChainLatestManifestCid := c.head W
  env

/-- `refreshFromManifest` of a rendering after it has read the pointer, up to its
`loadManifestOrInit`. -/
def Home.startRefresh (h : Home Pubkey Address) (c : Snapshot Pubkey) (refreshKey : RefreshKey)
    (reason : String) (env : LoadEnv) : Home Pubkey Address :=
  match c.prerequisites with
  | none => { h with page := { h.page with
      files := [], manifestErrorMessage := c.missingMessage, reported := false } }
  | some pre =>
    if h.page.refreshInFlight then h
    else if h.page.lastRefreshKey = some refreshKey ∧ reason ≠ "manual" then h
    else
      let load := (onData (loadManifestOrInit W.platform (c.loadParams W pre env))).seg h.tab
      { h with
        tab := load.1
        page := { h.page with refreshInFlight := true }
        jobs := h.jobs ++ [.refresh c refreshKey load.2] }

def Home.refreshFromManifest (h : Home Pubkey Address) (c : Snapshot Pubkey) (reason : String)
    (env : LoadEnv) : Home Pubkey Address :=
  let read := safeGetManifestCid W c.wallet h.tab.data
  Home.startRefresh W { h with tab := h.tab.setData read.1 } c (c.refreshKey read.2) reason env

/-- The registry effect of `useSession`, for a wallet that has changed. -/
def Home.fetchRegistry (h : Home Pubkey Address) : Home Pubkey Address :=
  if (h.effects.map fun c => c.hook.walletPubKey) = some h.view.hook.walletPubKey then h
  else { h with
    state := { h.state with hook := h.state.hook.runEffect h.view.hook.walletPubKey }
    requests := h.requests ++ h.view.wallet.toList.map fun w => ⟨.effect, w, none⟩ }

/-- The two effects that exist under `SJ_DEBUG`. -/
def Home.dedupReset (h : Home Pubkey Address) : Home Pubkey Address :=
  let walletChanged := (h.effects.map fun c => c.hook.walletPubKey) ≠ some h.view.hook.walletPubKey
  let unlockChanged :=
    (h.effects.map fun c => c.session.isVaultUnlocked) ≠ some h.view.session.isVaultUnlocked
  let reset := W.debug ∧ ((walletChanged ∧ h.view.wallet = none) ∨
    (unlockChanged ∧ h.view.session.isVaultUnlocked))
  { h with page := { h.page with
      lastRefreshKey := if reset then none else h.page.lastRefreshKey
      refreshInFlight := if reset then false else h.page.refreshInFlight } }

/-- The last rendering, when its effects refresh the list: those before have run. -/
def Home.enterEffects (h : Home Pubkey Address) : Home Pubkey Address :=
  { (h.fetchRegistry.dedupReset W) with effects := some h.view }

/-- The effects of the last rendering. React may run them again for the same values, as when an
object was made anew. -/
def Home.runEffects (h : Home Pubkey Address) (env env' : LoadEnv) : Home Pubkey Address :=
  let c := h.view
  let h := (h.enterEffects W).refreshFromManifest W c "effect" env
  if c.wallet.isSome ∧ c.session.isVaultUnlocked ∧ c.session.lastVaultRootSignatureBytes.isSome ∧
      !h.page.refreshInFlight then
    h.refreshFromManifest W c "post-unlock-auto" env'
  else h

def Home.apply (h : Home Pubkey Address) : Event Pubkey Address → Home Pubkey Address
  | .instruction ix => { h with accounts := execute W.runtime h.accounts ix }
  | .sessionManager s => { h with sessionManager := s }
  | .refresh => { h with state := h.state.refresh h.sessionManager }
  | .render => { h with view := h.state, renderings := h.renderings ++ [h.state] }
  | .runEffects env env' => h.runEffects W env env'
  | .fail i message => { h with
      requests := h.requests.modify i fun r => { r with answer := some (.error message) } }
  | .respond i => { h with
      requests := h.requests.modify i fun r => r.read W.unicode W.runtime W.publicKey h.accounts }
  | .deliver i =>
    match h.requests[i]? with
    | some ⟨requester, _, some answer⟩ => { h with
        state := { h.state with hook := h.state.hook.settle requester answer }
        requests := h.requests.eraseIdx i }
    | _ => h
  | .handleFile rendering file =>
    match h.renderings[rendering]? with
    | none => h
    | some c =>
      match c.prerequisites with
      | none => h
      | some pre =>
        if file.bytes.length > maxMvpFileBytes then h
        else { h with jobs := h.jobs ++ [.upload c pre file] }
  | .uploaded i outcome env =>
    match h.jobs[i]?, outcome with
    | some (.upload c pre file), .ok u =>
      let p := c.appendParams W pre file u env
      let append := (appendEntryAndPersist W.platform p).seg h.tab
      { h with tab := append.1, jobs := h.jobs.set i (.append c p append.2) }
    | some (.upload _ _ _), .error _ => { h with jobs := h.jobs.eraseIdx i }
    | _, _ => h
  | .advance i =>
    match h.jobs[i]? with
    | some (.refresh c refreshKey (.await _ ready next)) =>
      if ready h.tab then
        { h with
          tab := (next.seg h.tab).1, jobs := h.jobs.set i (.refresh c refreshKey (next.seg h.tab).2) }
      else h
    | some (.append c p (.await _ ready next)) =>
      if ready h.tab then
        { h with tab := (next.seg h.tab).1, jobs := h.jobs.set i (.append c p (next.seg h.tab).2) }
      else h
    | _ => h
  | .settle i env =>
    match h.jobs[i]? with
    | some (.refresh _ refreshKey (.done r)) =>
      { h with page := h.page.settle refreshKey r, jobs := h.jobs.eraseIdx i }
    | some (.append c _ (.done (.ok _))) =>
      Home.refreshFromManifest W { h with jobs := h.jobs.eraseIdx i } c "post-append" env
    | some (.append _ _ (.done (.error _))) => { h with jobs := h.jobs.eraseIdx i }
    | _ => h

end Apply

end SovereignJedi.Pages
