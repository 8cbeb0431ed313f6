import SovereignJedi.Manifest.Mutex
import SovereignJedi.Manifest.Seal
import SovereignJedi.Manifest.Storage

/-! The manifest service of `service.ts`: `loadManifestOrInit` and `appendEntryAndPersist` as tasks
over the browser's data, with a suspension at every `await`. What a call draws from the clock and
the random sources, and which of its steps fail, are part of the call. -/

namespace SovereignJedi.Manifest

open SovereignJedi.Js SovereignJedi.Crypto SovereignJedi.Async

/-- The data that calls share: `localStorage`, and the objects added to IPFS, oldest first. -/
structure Browser where
  localStorage : LocalStorage
  uploads : List Bytes

/-- The awaited operations of the service. -/
inductive Step where
  | catBytes | unwrap | decrypt | deriveKek | deriveManifestKey | sodium | wrap | encrypt | addBytes
  deriving DecidableEq, Repr

/-- Where a call of the service can be suspended: at an operation of `loadManifestOrInit` or of
`appendEntryAndPersist`, at the outcome of the init inside an append, and in `runExclusive`. -/
inductive AwaitPoint where
  | load (s : Step)
  | append (s : Step)
  | init
  | previous
  | exclusive
  deriving DecidableEq, Repr

abbrev ServiceTask := Task AwaitPoint Browser JsError

/-- Which operations of a call fail, and with what. -/
abbrev Faults := Step → Option JsError

/-- The random bytes behind one sealed manifest. -/
structure SealDraws where
  salt : RandomBytes 32
  wrapNonce : RandomBytes 24
  nonce : RandomBytes 24

structure LoadEnv where
  fault : Faults
  nowIso : String
  draws : SealDraws

structure AppendEnv where
  init : LoadEnv
  fault : Faults
  addedAtNow : String
  updatedAtNow : String
  uuid : String
  draws : SealDraws

structure LoadParams where
  walletPubKey : String
  signatureBytes : Bytes
  unlock : Value
  onChainLatestManifestCid : Option String
  env : LoadEnv

/-- The entry argument of an append. Its envelope is any value that `JSON.stringify` can write. -/
structure EntryArg where
  fileCid : String
  envelope : Value
  envelope_wf : ∀ j, envelope = some j → j.WF
  entryId : Option String
  addedAt : Option String
  originalFileName : Option String
  mimeType : Option String
  fileSize : Option ℚ
  fileIntegritySha256B64 : Option String

structure AppendParams where
  walletPubKey : String
  signatureBytes : Bytes
  unlock : Value
  entry : EntryArg
  onChainLatestManifestCid : Option String
  env : AppendEnv

inductive LoadResult where
  | loaded (manifest : Json) (manifestCid : String)
  | created (manifest : Json) (manifestCid : String)
  | restoreRequired

variable (P : Platform)

/-! ### Steps -/

def check (b : Bool) (message : String) : ServiceTask Unit := .done (require b message)

/-- The result of an operation, unless it fails. -/
def attempt {α : Type} (fault : Option JsError) (r : Result α) : Result α :=
  match fault with
  | some e => .error e
  | none => r

def step {α : Type} (point : Step → AwaitPoint) (fault : Faults) (s : Step) (r : Result α) :
    ServiceTask α :=
  .op (point s) (attempt (fault s) r)

/-- `deps.getManifestCid`, with the migration that it makes. -/
def readManifestCid (walletPubKey : String) : ServiceTask (Option String) :=
  .atomically fun b => do
    let (s, cid) ← getManifestCid P.cluster walletPubKey b.localStorage
    return ({ b with localStorage := s }, cid)

/-- `deps.setManifestCid`. -/
def storeManifestCid (walletPubKey cid : String) : ServiceTask Unit :=
  .atomically fun b => do
    let s ← setManifestCid P.cluster walletPubKey cid b.localStorage
    return ({ b with localStorage := s }, ())

/-- `deps.addBytes`. -/
def addBytes (point : Step → AwaitPoint) (fault : Faults) (bytes : Bytes) : ServiceTask String := do
  step point fault .addBytes (.ok ())
  Task.modify fun b => { b with uploads := b.uploads ++ [bytes] }
  return P.cidOf bytes

/-- `!!params.unlock && !!params.unlock.canonicalObject && !!params.unlock.messageToSign`. -/
def hasUnlock (unlock : Value) : Bool :=
  truthy unlock && truthy (optProp unlock "canonicalObject") &&
    truthy (optProp unlock "messageToSign")

/-- Wraps the manifest key, encrypts the manifest, uploads it and stores the pointer: how both the
init and the append end. -/
def persist (point : Step → AwaitPoint) (fault : Faults) (draws : SealDraws) (walletPubKey : String)
    (kek manifestKey : Bytes) (manifest : Json) : ServiceTask String := do
  let envelope ← step point fault .wrap
    (buildManifestWrapEnvelope P walletPubKey kek manifestKey draws.salt.1 draws.wrapNonce)
  let encrypted ← step point fault .encrypt
    (encryptManifestV1 P manifest manifestKey walletPubKey envelope draws.nonce)
  let cid ← addBytes P point fault (P.encodeJsonToBytes encrypted)
  storeManifestCid P walletPubKey cid
  return cid

/-- Fetches, parses, unwraps and decrypts the manifest at `cid`: how both the load and the append
begin. -/
def readManifest (point : Step → AwaitPoint) (fault : Faults) (walletPubKey : String)
    (signatureBytes : Bytes) (cid invalidJson : String) : ServiceTask (Bytes × Json) := do
  let bytes ← step point fault .catBytes (.ok (P.content cid))
  let encrypted ← .done (rethrow (P.decodeBytesToJson bytes) fun _ => invalidJson)
  let manifestKey ← step point fault .unwrap
    (unwrapManifestKey P encrypted walletPubKey signatureBytes)
  let manifest ← step point fault .decrypt (decryptManifestV1 P encrypted manifestKey walletPubKey)
  return (manifestKey, manifest)

/-! ### `loadManifestOrInit` -/

def emptyManifest (walletPubKey createdAt : String) : Json :=
  .obj [("version", .num 1), ("walletPubKey", .str walletPubKey), ("createdAt", .str createdAt),
    ("updatedAt", .str createdAt), ("entries", .arr [])]

/-- The INIT branch. -/
def initManifest (walletPubKey : String) (p : LoadParams) : ServiceTask LoadResult := do
  let manifest := emptyManifest walletPubKey p.env.nowIso
  let kek ← step .load p.env.fault .deriveKek (deriveVaultRootKekFromSignature P p.signatureBytes)
  let manifestKey ← step .load p.env.fault .deriveManifestKey (deriveManifestKey P kek)
  step .load p.env.fault .sodium (.ok ())
  let cid ← persist P .load p.env.fault p.env.draws walletPubKey kek manifestKey manifest
  return .created manifest cid

/-- The LOAD branch. -/
def loadManifest (walletPubKey : String) (p : LoadParams) (cid : String) :
    ServiceTask LoadResult := do
  let (_, manifest) ← readManifest P .load p.env.fault walletPubKey p.signatureBytes cid
    ("Impossible de charger le manifest : JSON invalide (CID=" ++ cid ++ ")")
  return .loaded manifest cid

/-- `!!onChainLatestManifestCid`. -/
def onChainHead (cid : Option String) : Bool := cid.any fun c => c != ""

@[irreducible] def loadManifestOrInit (p : LoadParams) : ServiceTask LoadResult := do
  let walletPubKey := trim p.walletPubKey
  check (!isBlank walletPubKey) "loadManifestOrInit:walletPubKey must be a non-empty string"
  check (hasUnlock p.unlock) "loadManifestOrInit: missing unlock material (BuildUnlockResult)"
  match ← readManifestCid P walletPubKey with
  | some existingCid => loadManifest P walletPubKey p existingCid
  | none =>
    if onChainHead p.onChainLatestManifestCid then return .restoreRequired
    else initManifest P walletPubKey p

/-! ### `appendEntryAndPersist` -/

/-- The identifying fields of the entry that a call adds. -/
def AppendParams.entryId (p : AppendParams) : String := p.entry.entryId.getD p.env.uuid

def AppendParams.addedAt (p : AppendParams) : String := p.entry.addedAt.getD p.env.addedAtNow

/-- The entry that a call adds: `undefined` metadata is left out. -/
def newEntry (p : AppendParams) : Json :=
  .ofFields [("entryId", some (.str p.entryId)), ("fileCid", some (.str p.entry.fileCid)),
    ("addedAt", some (.str p.addedAt)), ("envelope", p.entry.envelope),
    ("originalFileName", p.entry.originalFileName.map .str),
    ("mimeType", p.entry.mimeType.map .str), ("fileSize", p.entry.fileSize.map .num),
    ("fileIntegritySha256B64", p.entry.fileIntegritySha256B64.map .str)]

/-- Whether `e` is the new entry again: the same id, or the same file added at the same time. -/
def sameEntry (p : AppendParams) (e : Json) : Result Bool := do
  if isStr (← prop (some e) "entryId") p.entryId then return true
  return isStr (← prop (some e) "fileCid") p.entry.fileCid &&
    isStr (← prop (some e) "addedAt") p.addedAt

/-- `manifest.entries.some(..)`. -/
def someEntry (p : AppendParams) : List Json → Result Bool
  | [] => .ok false
  | e :: es => do if ← sameEntry p e then return true else someEntry p es

/-- `manifest.entries`, for a read that needs an array. -/
def entriesOf (manifest : Json) : Result (List Json) :=
  match manifest.get "entries" with
  | some (.arr es) => .ok es
  | none => .error (.typeError "Cannot read properties of undefined (reading 'some')")
  | some .null => .error (.typeError "Cannot read properties of null (reading 'some')")
  | some _ => .error (.typeError "manifest.entries.some is not a function")

/-- Validates the new entry and adds it to the manifest, unless it is there already. -/
def mergeEntry (p : AppendParams) (manifest : Json) : Result Json := do
  require (!isBlank p.entry.fileCid)
    "appendEntryAndPersist: entry.fileCid must be a non-empty string"
  require (truthy p.entry.envelope) "appendEntryAndPersist: entry.envelope is required"
  let entries ← entriesOf manifest
  let merged := if ← someEntry p entries then manifest
    else manifest.set "entries" (.arr (entries ++ [newEntry p]))
  return merged.set "updatedAt" (.str p.env.updatedAtNow)

/-- The parameters of the init inside an append. -/
def AppendParams.toInit (p : AppendParams) (walletPubKey : String) : LoadParams where
  walletPubKey := walletPubKey
  signatureBytes := p.signatureBytes
  unlock := p.unlock
  onChainLatestManifestCid := p.onChainLatestManifestCid
  env := p.env.init

@[simp] theorem AppendParams.toInit_walletPubKey (p : AppendParams) (w : String) :
    (p.toInit w).walletPubKey = w := rfl
@[simp] theorem AppendParams.toInit_signatureBytes (p : AppendParams) (w : String) :
    (p.toInit w).signatureBytes = p.signatureBytes := rfl
@[simp] theorem AppendParams.toInit_unlock (p : AppendParams) (w : String) :
    (p.toInit w).unlock = p.unlock := rfl
@[simp] theorem AppendParams.toInit_onChainLatestManifestCid (p : AppendParams) (w : String) :
    (p.toInit w).onChainLatestManifestCid = p.onChainLatestManifestCid := rfl
@[simp] theorem AppendParams.toInit_env (p : AppendParams) (w : String) :
    (p.toInit w).env = p.env.init := rfl

/-- The init inside an append, when there is no pointer. -/
def ensureManifest (p : AppendParams) (walletPubKey : String) :
    (currentCid : Option String) → ServiceTask Unit
  | some _ => pure ()
  | none => do
    match ← (loadManifestOrInit P (p.toInit walletPubKey)).awaited .init with
    | .restoreRequired => throw (.error "Restore from Solana required before appending")
    | _ => pure ()

/-- The append proper, on the manifest at the pointer. -/
def appendTo (p : AppendParams) (walletPubKey cid : String) : ServiceTask (Json × String) := do
  let (manifestKey, manifest) ← readManifest P .append p.env.fault walletPubKey p.signatureBytes cid
    "Impossible de charger le manifest : JSON invalide."
  let manifest ← .done (mergeEntry p manifest)
  step .append p.env.fault .sodium (.ok ())
  let kek ← step .append p.env.fault .deriveKek
    (deriveVaultRootKekFromSignature P p.signatureBytes)
  let newCid ← persist P .append p.env.fault p.env.draws walletPubKey kek manifestKey manifest
  return (manifest, newCid)

/-- What an append does while it holds the wallet's mutex. -/
@[irreducible] def appendSection (p : AppendParams) : ServiceTask (Json × String) := do
  let walletPubKey := trim p.walletPubKey
  let currentCid ← readManifestCid P walletPubKey
  ensureManifest P p walletPubKey currentCid
  match ← readManifestCid P walletPubKey with
  | some cid => appendTo P p walletPubKey cid
  | none =>
    throw (.error "Impossible de mettre à jour le manifest : pointeur CID absent après init.")

/-- The checks before the mutex. -/
@[irreducible] def appendChecks (p : AppendParams) : Result Unit := do
  require (!isBlank (trim p.walletPubKey))
    "appendEntryAndPersist:walletPubKey must be a non-empty string"
  require (hasUnlock p.unlock)
    "appendEntryAndPersist: missing unlock material (BuildUnlockResult)"

/-- A tab of the app: the browser's data and a mutex for each wallet. -/
abbrev WalletTab := Tab String Browser

@[irreducible] def appendEntryAndPersist (p : AppendParams) :
    Task AwaitPoint WalletTab JsError (Json × String) :=
  match appendChecks p with
  | .error e => .done (.error e)
  | .ok () => runExclusive (trim p.walletPubKey) .previous .exclusive (appendSection P p)

end SovereignJedi.Manifest
