import SovereignJedi.Storage.History

/-! The databases of `@sj/storage`. `initStorage` keeps an instance for the name that was asked for
last and closes the others; the other functions use that instance. To callers who await each call,
the module is a family of tables, one for each name, and none of them is ever mistaken for another.
The library Dexie is a parameter. -/

namespace SovereignJedi.Storage

open SovereignJedi.Js SovereignJedi.Async

/-! ### Dexie -/

inductive ApiError where
  | storage (e : StorageError)
  | databaseClosed
  | js (e : JsError)

/-- The library: how it makes instances, and what they do with the databases `σ`. An operation of an
instance is one on the table of its database. -/
structure Dexie (σ ι : Type) where
  construct : String → σ → σ × ι
  name : ι → String
  isOpen : ι → σ → Bool
  close : ι → σ → σ
  delete : ι → σ → σ
  operate {α : Type} : ι → (ManifestTable → Except StorageError (ManifestTable × α)) → σ →
    σ × Except ApiError α

/-- What is documented of it, where `closed` are the instances that were closed and `tables` is what
the databases hold: an instance is not closed when it is made, and its operations work on its
database until it is closed or the database is deleted. From then on they are rejected. -/
structure Dexie.Documented {σ ι : Type} (X : Dexie σ ι) (closed : ι → σ → Prop)
    (tables : σ → String → ManifestTable) : Prop where
  construct_name : ∀ name s, X.name (X.construct name s).2 = name
  construct_closed : ∀ name s, ¬ closed (X.construct name s).2 (X.construct name s).1
  construct_tables : ∀ name s, tables (X.construct name s).1 = tables s
  isOpen : ∀ i s, X.isOpen i s = true → ¬ closed i s
  close_closed : ∀ i s, closed i (X.close i s)
  close_tables : ∀ i s, tables (X.close i s) = tables s
  delete_closed : ∀ i s, closed i (X.delete i s)
  delete_tables : ∀ i s,
    tables (X.delete i s) = Function.update (tables s) (X.name i) fun _ => none
  operate : ∀ {α : Type} {i : ι} {f : ManifestTable → Except StorageError (ManifestTable × α)}
    {s : σ} {table : ManifestTable} {a : α}, ¬ closed i s →
      f (tables s (X.name i)) = .ok (table, a) → (X.operate i f s).2 = .ok a ∧
        tables (X.operate i f s).1 = Function.update (tables s) (X.name i) table ∧
          ¬ closed i (X.operate i f s).1
  operate_closed : ∀ {α : Type} {i : ι}
    (f : ManifestTable → Except StorageError (ManifestTable × α)) {s : σ}, closed i s →
      (X.operate i f s).2 = .error .databaseClosed ∧ tables (X.operate i f s).1 = tables s ∧
        closed i (X.operate i f s).1

/-! ### The module -/

/-- The databases, and the variables of the module. -/
structure StorageModule (σ ι : Type) where
  databases : σ
  lastDbInstance : Option ι
  dbInstances : List (String × ι)

inductive ApiPoint where
  | get | put | add | delete | toArray

/-- What the module finds: whether there is IndexedDB, the codecs, and the order in which a table is
listed. -/
structure StorageEnv where
  available : Bool
  toBase64 : Bytes → String
  fromBase64 : String → Result Bytes
  toArray : ManifestTable → List ManifestRecord

abbrev ApiTask (σ ι : Type) := Task ApiPoint (StorageModule σ ι) ApiError

def defaultDbName : String := "sovereign_jedi_storage"

def indexedDBUnavailable : ApiError :=
  .js (.error ("IndexedDB is not available in this environment. " ++
    "@sj/storage requires IndexedDB (browser or shim)."))

variable {σ ι : Type}

namespace StorageModule

variable (X : Dexie σ ι)

/-- `instance.close()`. -/
def close (i : ι) (m : StorageModule σ ι) : StorageModule σ ι :=
  { m with databases := X.close i m.databases }

/-- `dbInstances.set(name, i)`. -/
def setInstance (name : String) (i : ι) (l : List (String × ι)) : List (String × ι) :=
  if l.any fun e => e.1 == name then l.map fun e => if e.1 == name then (name, i) else e
  else l ++ [(name, i)]

/-- `new SJStorageDB(name)`, which becomes the entry of the map and the last instance. -/
def renew (name : String) (m : StorageModule σ ι) : StorageModule σ ι × ι :=
  let (databases, db) := X.construct name m.databases
  ({ databases, lastDbInstance := some db, dbInstances := setInstance name db m.dbInstances }, db)

/-- All entries of the map but the one of `name` are closed and deleted. -/
def closeOthers (name : String) (m : StorageModule σ ι) : StorageModule σ ι :=
  { m.dbInstances.foldl (fun m e => if e.1 == name then m else m.close X e.2) m with
    dbInstances := m.dbInstances.filter fun e => e.1 == name }

end StorageModule

section Calls

variable (X : Dexie σ ι) (env : StorageEnv)

def initStorage (dbName : Option String) (m : StorageModule σ ι) :
    Except ApiError (StorageModule σ ι × ι) :=
  let name := dbName.getD defaultDbName
  match (m.dbInstances.lookup name).filter fun i => X.isOpen i m.databases with
  | some existing => .ok (m, existing)
  | none =>
    if env.available then .ok ((m.closeOthers X name).renew X name)
    else .error indexedDBUnavailable

/-- `if (!lastDbInstance) initStorage()`. -/
def ensureStorage : ApiTask σ ι Unit := do
  let m : StorageModule σ ι ← .get
  match m.lastDbInstance with
  | some _ => return ()
  | none =>
    let _ ← Task.atomically (initStorage X env none)
    return ()

/-- An operation of the instance `i`. -/
def operate {α : Type} (i : ι) (f : ManifestTable → Except StorageError (ManifestTable × α)) :
    ApiTask σ ι α :=
  .sync (fun m => { m with databases := (X.operate i f m.databases).1 })
    fun m => .done (X.operate i f m.databases).2

/-- `await lastDbInstance.manifests[point](…)`. -/
def access {α : Type} (point : ApiPoint)
    (f : ManifestTable → Except StorageError (ManifestTable × α)) : ApiTask σ ι α := do
  let m : StorageModule σ ι ← .get
  match m.lastDbInstance with
  | some i => .await point (fun _ => true) (operate X i f)
  | none => throw (.js (.typeError "lastDbInstance is null"))

/-- `putManifest` once there is an instance. -/
def putInUse (c : PutCall) : ApiTask σ ι ManifestPayload := do
  let existing ← access X .get fun table => .ok (table, table c.walletId)
  match existing with
  | some existing =>
    let updated := c.updated env.toBase64 existing
    access X .put fun table => .ok (put updated table, updated.toPayload)
  | none =>
    let record := c.record env.toBase64
    access X .add fun table => (add record table).map fun r => (r.1, record.toPayload)

def putManifestOf (c : PutCall) : ApiTask σ ι ManifestPayload := do
  ensureStorage X env
  putInUse X env c

def getManifestOf (walletId : String) : ApiTask σ ι (Option ManifestPayload) := do
  ensureStorage X env
  access X .get fun table => .ok (table, getManifest walletId table)

/-- `deleteManifest` once there is an instance. Only an error of the deletion is caught. -/
def deleteInUse (walletId : String) : ApiTask σ ι Bool :=
  tryCatch (access X .delete fun table => .ok (deleteManifest walletId table)) fun _ => pure false

def deleteManifestOf (walletId : String) : ApiTask σ ι Bool := do
  ensureStorage X env
  deleteInUse X walletId

def listManifests : ApiTask σ ι (List ManifestPayload) := do
  ensureStorage X env
  access X .toArray fun table => .ok (table, (env.toArray table).map ManifestRecord.toPayload)

/-- The bytes of a manifest that `getManifest` has found. -/
def bytesOf (payload : Option ManifestPayload) : Except ApiError (Option Bytes) :=
  match payload with
  | none => .ok none
  | some payload =>
    match env.fromBase64 payload.encryptedManifestB64 with
    | .ok bytes => .ok (some bytes)
    | .error e => .error (.js e)

def getEncryptedManifestBytes (walletId : String) : ApiTask σ ι (Option Bytes) := do
  let payload ← getManifestOf X env walletId
  .done (bytesOf env payload)

/-- A call of the module, or of the instance that `initStorage` has returned last. -/
inductive ApiCall where
  | init (dbName : Option String)
  | put (c : PutCall)
  | get (walletId : String)
  | delete (walletId : String)
  | list
  | bytes (walletId : String)
  | closeInstance
  | deleteDatabase

/-- What a call gives; of an instance only its name is told. -/
inductive ApiReply where
  | database (name : Option String)
  | payload (p : ManifestPayload)
  | found (p : Option ManifestPayload)
  | deleted (b : Bool)
  | listed (l : List ManifestPayload)
  | encrypted (b : Option Bytes)
  | nothing

def ApiCall.body : ApiCall → ApiTask σ ι ApiReply
  | .init dbName => do
    let i ← Task.atomically (initStorage X env dbName)
    return .database (some (X.name i))
  | .put c => (putManifestOf X env c).map .payload
  | .get walletId => (getManifestOf X env walletId).map .found
  | .delete walletId => (deleteManifestOf X env walletId).map .deleted
  | .list => (listManifests X env).map .listed
  | .bytes walletId => (getEncryptedManifestBytes X env walletId).map .encrypted
  | .closeInstance => do
    Task.modify fun m => m.lastDbInstance.elim m (m.close X)
    return .nothing
  | .deleteDatabase => do
    Task.modify fun m => m.lastDbInstance.elim m fun i =>
      { m with databases := X.delete i m.databases }
    return .nothing

/-- The module after calls that are each awaited, with what they give. -/
def StorageModule.performAll (m : StorageModule σ ι) :
    List ApiCall → StorageModule σ ι × List (Except ApiError ApiReply)
  | [] => (m, [])
  | c :: cs =>
    let next := (c.body X env).run m
    let rest := StorageModule.performAll next.1 cs
    (rest.1, next.2 :: rest.2)

end Calls

/-- The module before any call. -/
def freshModule (databases : σ) : StorageModule σ ι := ⟨databases, none, []⟩

/-! ### Histories -/

/-- The abstract store: the name in use, whether its instance is usable, and for each database the
calls that were made on it. -/
structure Histories where
  current : Option String
  usable : Bool
  calls : String → List StorageCall

def freshHistories : Histories := ⟨none, false, fun _ => []⟩

namespace Histories

section Perform

variable (env : StorageEnv)

def table (h : Histories) (name : String) : ManifestTable :=
  performAll env.toBase64 (h.calls name)

def choose (h : Histories) (name : String) : Except ApiError Histories :=
  if env.available then .ok { h with current := some name, usable := true }
  else .error indexedDBUnavailable

/-- The database in use, by default the one of the default name. -/
def inUse (h : Histories) : Except ApiError (Histories × String) :=
  match h.current with
  | some name => .ok (h, name)
  | none => (h.choose env defaultDbName).map fun h => (h, defaultDbName)

/-- A call on the database in use: what it adds to the history, and what it gives. -/
def act (h : Histories) (calls : List StorageCall) (reply : ManifestTable → Except ApiError ApiReply)
    (closed : Except ApiError ApiReply) : Histories × Except ApiError ApiReply :=
  match h.inUse env with
  | .error e => (h, .error e)
  | .ok (h, name) =>
    if h.usable then
      ({ h with calls := Function.update h.calls name (h.calls name ++ calls) },
        reply (h.table env name))
    else (h, closed)

def perform (h : Histories) : ApiCall → Histories × Except ApiError ApiReply
  | .init dbName =>
    match h.choose env (dbName.getD defaultDbName) with
    | .ok h => (h, .ok (.database h.current))
    | .error e => (h, .error e)
  | .put c => h.act env [.put c]
      (fun table => .ok (.payload (c.written env.toBase64 table).toPayload))
      (.error .databaseClosed)
  | .get walletId => h.act env [] (fun table => .ok (.found (getManifest walletId table)))
      (.error .databaseClosed)
  | .delete walletId => h.act env [.delete walletId] (fun _ => .ok (.deleted true))
      (.ok (.deleted false))
  | .list => h.act env []
      (fun table => .ok (.listed ((env.toArray table).map ManifestRecord.toPayload)))
      (.error .databaseClosed)
  | .bytes walletId => h.act env []
      (fun table => (bytesOf env (getManifest walletId table)).map .encrypted)
      (.error .databaseClosed)
  | .closeInstance => ({ h with usable := false }, .ok .nothing)
  | .deleteDatabase => ({ h with
      usable := false
      calls := h.current.elim h.calls fun name => Function.update h.calls name [] }, .ok .nothing)

def performAll (h : Histories) : List ApiCall → Histories × List (Except ApiError ApiReply)
  | [] => (h, [])
  | c :: cs =>
    let next := h.perform env c
    let rest := performAll next.1 cs
    (rest.1, next.2 :: rest.2)

end Perform

end Histories

/-! ### The instance in use -/

variable {X : Dexie σ ι} {closed : ι → σ → Prop} {tables : σ → String → ManifestTable}
  {env : StorageEnv}

/-- The last instance `i` is the only one in the map, and `usable` unless it was closed. -/
structure StorageModule.Uses (X : Dexie σ ι) (closed : ι → σ → Prop) (m : StorageModule σ ι) (i : ι)
    (usable : Bool) : Prop where
  last : m.lastDbInstance = some i
  only : m.dbInstances = [(X.name i, i)]
  closed_iff : closed i m.databases ↔ usable = false

section Documented

variable (hX : X.Documented closed tables)

include hX

theorem closeOthers_tables (name : String) (m : StorageModule σ ι) :
    tables (m.closeOthers X name).databases = tables m.databases := by
  have hfold : ∀ (l : List (String × ι)) (m : StorageModule σ ι),
      tables (l.foldl (fun m e => if e.1 == name then m else m.close X e.2) m).databases =
        tables m.databases := by
    intro l
    induction l with
    | nil => exact fun m => rfl
    | cons e l ih =>
      intro m
      rw [List.foldl_cons, ih]
      split
      · rfl
      · exact hX.close_tables ..
  exact hfold m.dbInstances m

/-- What `initStorage` makes is in use from then on, and the tables are as they were. -/
theorem uses_renew {name : String} {m : StorageModule σ ι}
    (h : m.dbInstances = [] ∨ ∃ i, m.dbInstances = [(name, i)]) :
    (m.renew X name).1.Uses X closed (m.renew X name).2 true ∧
      tables (m.renew X name).1.databases = tables m.databases := by
  refine ⟨⟨rfl, ?_, iff_of_false (hX.construct_closed _ _) (by simp)⟩, hX.construct_tables ..⟩
  have hname : X.name (m.renew X name).2 = name := hX.construct_name ..
  rw [hname]
  rcases h with h | ⟨i, h⟩ <;> simp [StorageModule.renew, StorageModule.setInstance, h]

/-- After `initStorage` an instance of that name is in use, and the tables are as they were. -/
theorem initStorage_uses (havailable : env.available = true) (dbName : Option String)
    {m : StorageModule σ ι} (hm : m.dbInstances = [] ∨ ∃ i usable, m.Uses X closed i usable) :
    ∃ m' i, initStorage X env dbName m = .ok (m', i) ∧ X.name i = dbName.getD defaultDbName ∧
      m'.Uses X closed i true ∧ tables m'.databases = tables m.databases := by
  generalize hname : dbName.getD defaultDbName = name
  have hrenew (h : (m.dbInstances.lookup name).filter (fun i => X.isOpen i m.databases) = none)
      (hothers : (m.closeOthers X name).dbInstances = [] ∨
        ∃ i, (m.closeOthers X name).dbInstances = [(name, i)]) :
      ∃ m' i, initStorage X env dbName m = .ok (m', i) ∧ X.name i = name ∧
        m'.Uses X closed i true ∧ tables m'.databases = tables m.databases := by
    obtain ⟨hu, htables⟩ := uses_renew hX hothers
    refine ⟨((m.closeOthers X name).renew X name).1, _, ?_, hX.construct_name .., hu,
      htables.trans (closeOthers_tables hX name m)⟩
    simp only [initStorage, hname, h, havailable, if_true]
    rfl
  rcases hm with hnone | ⟨i, usable, hu⟩
  · exact hrenew (by simp [hnone]) (Or.inl (by simp [StorageModule.closeOthers, hnone]))
  · by_cases hd : X.name i = name
    · subst hd
      cases hopen : X.isOpen i m.databases with
      | true =>
        have husable : usable = true := by
          rw [← Bool.not_eq_false, ← hu.closed_iff]
          exact hX.isOpen i _ hopen
        have hexisting : (m.dbInstances.lookup (X.name i)).filter
            (fun i => X.isOpen i m.databases) = some i := by
          simp [hu.only, hopen]
        refine ⟨m, i, ?_, rfl, husable ▸ hu, rfl⟩
        simp only [initStorage, hname, hexisting]
      | false =>
        refine hrenew ?_ (Or.inr ⟨i, by simp [StorageModule.closeOthers, hu.only]⟩)
        simp [hu.only, hopen]
    · have hne : name ≠ X.name i := Ne.symm hd
      refine hrenew ?_ (Or.inl ?_)
      · simp [hu.only, List.lookup_cons, beq_false_of_ne hne]
      · simp [StorageModule.closeOthers, hu.only, hd]

/-! ### Operations on it -/

/-- An operation of a usable instance is done on its table. -/
theorem run_access {α : Type} {m : StorageModule σ ι} {i : ι} (h : m.Uses X closed i true)
    (point : ApiPoint) {f : ManifestTable → Except StorageError (ManifestTable × α)}
    {table : ManifestTable} {a : α} (hf : f (tables m.databases (X.name i)) = .ok (table, a)) :
    ∃ m', (access X point f).run m = (m', .ok a) ∧ m'.Uses X closed i true ∧
      tables m'.databases = Function.update (tables m.databases) (X.name i) table := by
  have hopen : ¬ closed i m.databases := by simp [h.closed_iff]
  obtain ⟨hresult, htables, hopen'⟩ := hX.operate hopen hf
  refine ⟨{ m with databases := (X.operate i f m.databases).1 }, ?_,
    ⟨h.last, h.only, iff_of_false hopen' (by simp)⟩, htables⟩
  simp only [access, operate, Task.bind_def, Task.run_bind, Task.run_get, h.last, Task.run, hresult]

theorem run_access_closed {α : Type} {m : StorageModule σ ι} {i : ι} (h : m.Uses X closed i false)
    (point : ApiPoint) (f : ManifestTable → Except StorageError (ManifestTable × α)) :
    ∃ m', (access X point f).run m = (m', .error .databaseClosed) ∧ m'.Uses X closed i false ∧
      tables m'.databases = tables m.databases := by
  obtain ⟨hresult, htables, hclosed⟩ := hX.operate_closed f (h.closed_iff.mpr rfl)
  refine ⟨{ m with databases := (X.operate i f m.databases).1 }, ?_,
    ⟨h.last, h.only, iff_of_true hclosed rfl⟩, htables⟩
  simp only [access, operate, Task.bind_def, Task.run_bind, Task.run_get, h.last, Task.run, hresult]

end Documented

/-! ### The refinement -/

/-- The module is where the histories say: an instance of the name in use is in use, and each table
is what the calls on its database have made. -/
structure Represents (X : Dexie σ ι) (closed : ι → σ → Prop) (tables : σ → String → ManifestTable)
    (env : StorageEnv) (m : StorageModule σ ι) (h : Histories) : Prop where
  available : ∀ name, h.current = some name → env.available = true
  unused : h.current = none → m.lastDbInstance = none ∧ m.dbInstances = []
  used : ∀ name, h.current = some name → ∃ i, X.name i = name ∧ m.Uses X closed i h.usable
  tables : ∀ name, tables m.databases name = h.table env name

theorem represents_fresh (env : StorageEnv) {s : σ} (hs : ∀ name, tables s name = fun _ => none) :
    Represents X closed tables env (freshModule s) freshHistories where
  available name h := by cases h
  unused _ := ⟨rfl, rfl⟩
  used name h := by cases h
  tables := hs

namespace Represents

variable {m m' : StorageModule σ ι} {h h' : Histories}

theorem instances (hm : Represents X closed tables env m h) :
    m.dbInstances = [] ∨ ∃ i usable, m.Uses X closed i usable := by
  cases hcurrent : h.current with
  | none => exact Or.inl (hm.unused hcurrent).2
  | some name =>
    obtain ⟨i, -, hu⟩ := hm.used name hcurrent
    exact Or.inr ⟨i, _, hu⟩

/-- `initStorage` chooses the database that is in use from then on. -/
theorem initStorage (hX : X.Documented closed tables) (hm : Represents X closed tables env m h)
    (dbName : Option String) :
    (env.available = true ∧ ∃ m' i, Storage.initStorage X env dbName m = .ok (m', i) ∧
      X.name i = dbName.getD defaultDbName ∧ m'.Uses X closed i true ∧
      Represents X closed tables env m' { h with current := some (X.name i), usable := true }) ∨
    (env.available = false ∧ h.current = none ∧
      Storage.initStorage X env dbName m = .error indexedDBUnavailable) := by
  cases havailable : env.available with
  | true =>
    obtain ⟨m', i, hinit, hname, hu, htables⟩ :=
      initStorage_uses hX havailable dbName hm.instances
    refine Or.inl ⟨rfl, m', i, hinit, hname, hu, fun _ _ => havailable,
      fun hnone => (by cases hnone), fun name hcurrent => ?_, fun name => ?_⟩
    · exact ⟨i, Option.some.inj hcurrent, hu⟩
    · rw [htables, hm.tables name]
      rfl
  | false =>
    have hcurrent : h.current = none := by
      cases hc : h.current with
      | none => rfl
      | some name => exact absurd (hm.available name hc) (by simp [havailable])
    refine Or.inr ⟨rfl, hcurrent, ?_⟩
    simp [Storage.initStorage, (hm.unused hcurrent).2, havailable]

/-- `ensureStorage` chooses the default database if none is in use. -/
theorem ensureStorage (hX : X.Documented closed tables) (hm : Represents X closed tables env m h) :
    (∃ m' i h', (Storage.ensureStorage X env).run m = (m', .ok ()) ∧
      h.inUse env = .ok (h', X.name i) ∧ h'.current = some (X.name i) ∧
      m'.Uses X closed i h'.usable ∧ Represents X closed tables env m' h') ∨
    (∃ e, (Storage.ensureStorage X env).run m = (m, .error e) ∧ h.inUse env = .error e) := by
  cases hcurrent : h.current with
  | some name =>
    obtain ⟨i, rfl, hu⟩ := hm.used name hcurrent
    refine Or.inl ⟨m, i, h, ?_, ?_, hcurrent, hu, hm⟩
    · simp only [Storage.ensureStorage, Task.bind_def, Task.run_bind, Task.run_get, hu.last,
        Task.pure_def, Task.run_done]
    · simp only [Histories.inUse, hcurrent]
  | none =>
    rcases hm.initStorage hX none with
      ⟨havailable, m', i, hinit, hname, hu, hm'⟩ | ⟨havailable, -, hinit⟩
    · refine Or.inl ⟨m', i, _, ?_, ?_, rfl, hu, hm'⟩
      · simp only [Storage.ensureStorage, Task.bind_def, Task.run_bind, Task.run_get,
          (hm.unused hcurrent).1, Task.run_atomically, hinit, Task.pure_def, Task.run_done]
      · have hname : X.name i = defaultDbName := hname
        simp only [Histories.inUse, hcurrent, Histories.choose, havailable, if_true, hname]
        rfl
    · refine Or.inr ⟨indexedDBUnavailable, ?_, ?_⟩
      · simp only [Storage.ensureStorage, Task.bind_def, Task.run_bind, Task.run_get,
          (hm.unused hcurrent).1, Task.run_atomically, hinit]
      · simp only [Histories.inUse, hcurrent, Histories.choose, havailable, Bool.false_eq_true,
          if_false]
        rfl

end Represents

/-- What a function does once there is an instance: a usable one replies of its table and makes
`calls` on it, of a closed one it tells `rejected`. -/
structure Acts (X : Dexie σ ι) (closed : ι → σ → Prop) (tables : σ → String → ManifestTable)
    (env : StorageEnv) (k : ApiTask σ ι ApiReply) (calls : List StorageCall)
    (reply : ManifestTable → Except ApiError ApiReply) (rejected : Except ApiError ApiReply) :
    Prop where
  usable : ∀ {m : StorageModule σ ι} {i : ι}, m.Uses X closed i true →
    ∃ m', k.run m = (m', reply (tables m.databases (X.name i))) ∧ m'.Uses X closed i true ∧
      tables m'.databases = Function.update (tables m.databases) (X.name i)
        (calls.foldl (StorageCall.perform env.toBase64) (tables m.databases (X.name i)))
  closed : ∀ {m : StorageModule σ ι} {i : ι}, m.Uses X closed i false →
    ∃ m', k.run m = (m', rejected) ∧ m'.Uses X closed i false ∧
      tables m'.databases = tables m.databases

/-- Calls on the table in use are added to its history. -/
theorem Represents.add {m m' : StorageModule σ ι} {h : Histories}
    (hm : Represents X closed tables env m h) {i : ι} (hcurrent : h.current = some (X.name i))
    (hu : m'.Uses X closed i h.usable) (calls : List StorageCall)
    (htables : tables m'.databases = Function.update (tables m.databases) (X.name i)
      (calls.foldl (StorageCall.perform env.toBase64) (tables m.databases (X.name i)))) :
    Represents X closed tables env m'
      { h with calls := Function.update h.calls (X.name i) (h.calls (X.name i) ++ calls) } where
  available := hm.available
  unused hnone := by
    have hnone : h.current = none := hnone
    simp [hcurrent] at hnone
  used name hc := ⟨i, Option.some.inj (hcurrent.symm.trans hc), hu⟩
  tables name := by
    rw [htables, Histories.table]
    by_cases hname : name = X.name i
    · subst hname
      simp only [Function.update_self, hm.tables, Histories.table, performAll, List.foldl_append]
    · simp only [Function.update_of_ne hname, hm.tables, Histories.table]

/-- A function that acts so keeps to the histories. -/
theorem Acts.refines {k : ApiTask σ ι ApiReply} {calls : List StorageCall}
    {reply : ManifestTable → Except ApiError ApiReply} {rejected : Except ApiError ApiReply}
    (hX : X.Documented closed tables) (hk : Acts X closed tables env k calls reply rejected)
    {m : StorageModule σ ι} {h : Histories} (hm : Represents X closed tables env m h) :
    Represents X closed tables env (((ensureStorage X env).bind fun _ => k).run m).1
        (h.act env calls reply rejected).1 ∧
      (((ensureStorage X env).bind fun _ => k).run m).2 = (h.act env calls reply rejected).2 := by
  rcases hm.ensureStorage hX with ⟨m₁, i, h₁, hrun, hinUse, hcurrent, hu, hm₁⟩ | ⟨e, hrun, hinUse⟩
  · rw [Task.run_bind_ok hrun]
    cases husable : h₁.usable with
    | false =>
      rw [husable] at hu
      obtain ⟨m₂, hrun₂, hu₂, htables⟩ := hk.closed hu
      simp only [hrun₂, Histories.act, hinUse, husable, Bool.false_eq_true, if_false]
      refine ⟨⟨hm₁.available, fun hnone => ?_, fun name hc => ⟨i, ?_, husable ▸ hu₂⟩, ?_⟩, trivial⟩
      · cases hcurrent.symm.trans hnone
      · exact Option.some.inj (hcurrent.symm.trans hc)
      · rw [htables]
        exact hm₁.tables
    | true =>
      rw [husable] at hu
      obtain ⟨m₂, hrun₂, hu₂, htables⟩ := hk.usable hu
      simp only [hrun₂, Histories.act, hinUse, husable, if_true, hm₁.tables]
      have hadd := hm₁.add hcurrent (husable ▸ hu₂) calls htables
      rw [husable] at hadd
      exact ⟨hadd, trivial⟩
  · rw [Task.run_bind_error hrun, Histories.act, hinUse]
    exact ⟨hm, rfl⟩

/-! ### The functions -/

theorem run_map_ok {α : Type} {t : ApiTask σ ι α} {m m' : StorageModule σ ι} {a : α}
    (h : t.run m = (m', .ok a)) (f : α → ApiReply) : (t.map f).run m = (m', .ok (f a)) := by
  rw [Task.run_map, h]
  rfl

theorem run_map_error {α : Type} {t : ApiTask σ ι α} {m m' : StorageModule σ ι} {e : ApiError}
    (h : t.run m = (m', .error e)) (f : α → ApiReply) : (t.map f).run m = (m', .error e) := by
  rw [Task.run_map, h]
  rfl

theorem map_ensured {α : Type} (t : ApiTask σ ι α) (f : α → ApiReply) :
    ((ensureStorage X env).bind fun _ => t).map f =
      (ensureStorage X env).bind fun _ => t.map f :=
  Task.bind_bind ..

section Documented

variable (hX : X.Documented closed tables)

include hX

/-- A read leaves the tables. -/
theorem run_read {α : Type} {m : StorageModule σ ι} {i : ι} (h : m.Uses X closed i true)
    (point : ApiPoint) (f : ManifestTable → α) :
    ∃ m', (access X point fun table => .ok (table, f table)).run m =
        (m', .ok (f (tables m.databases (X.name i)))) ∧
      m'.Uses X closed i true ∧ tables m'.databases = tables m.databases := by
  obtain ⟨m', hrun, hu, htables⟩ := run_access hX h point
    (f := fun table => .ok (table, f table)) rfl
  exact ⟨m', hrun, hu, htables.trans (Function.update_eq_self ..)⟩

/-- An operation that only reads. -/
theorem acts_read {α : Type} (point : ApiPoint) (f : ManifestTable → α) (reply : α → ApiReply) :
    Acts X closed tables env ((access X point fun table => .ok (table, f table)).map reply) []
      (fun table => .ok (reply (f table))) (.error .databaseClosed) where
  usable hu := by
    obtain ⟨m', hrun, hu', htables⟩ := run_read hX hu point f
    refine ⟨m', run_map_ok hrun reply, hu', ?_⟩
    rw [htables, List.foldl_nil, Function.update_eq_self]
  closed hu := by
    obtain ⟨m', hrun, hu', htables⟩ := run_access_closed hX hu point _
    exact ⟨m', run_map_error hrun reply, hu', htables⟩

theorem acts_put (c : PutCall) :
    Acts X closed tables env ((putInUse X env c).map .payload) [.put c]
      (fun table => .ok (.payload (c.written env.toBase64 table).toPayload))
      (.error .databaseClosed) where
  usable {m i} hu := by
    obtain ⟨m₁, hget, hu₁, htables₁⟩ := run_read hX hu .get fun table => table c.walletId
    have hput : ∃ m', (putInUse X env c).run m =
          (m', .ok (c.written env.toBase64 (tables m.databases (X.name i))).toPayload) ∧
        m'.Uses X closed i true ∧ tables m'.databases = Function.update (tables m.databases) (X.name i)
          (put (c.written env.toBase64 (tables m.databases (X.name i)))
            (tables m.databases (X.name i))) := by
      rw [putInUse, Task.bind_def, Task.run_bind_ok hget, PutCall.written, ← htables₁]
      cases hrecord : tables m₁.databases (X.name i) c.walletId with
      | some existing => exact run_access hX hu₁ .put rfl
      | none =>
        have hnone : tables m₁.databases (X.name i) (c.record env.toBase64).walletId = none := hrecord
        exact run_access hX hu₁ .add (by rw [add, hnone]; rfl)
    obtain ⟨m', hrun, hu', htables⟩ := hput
    refine ⟨m', run_map_ok hrun _, hu', ?_⟩
    rw [htables, List.foldl_cons, List.foldl_nil, perform_put]
  closed hu := by
    obtain ⟨m', hrun, hu', htables⟩ := run_access_closed hX hu .get _
    refine ⟨m', run_map_error ?_ _, hu', htables⟩
    rw [putInUse, Task.bind_def, Task.run_bind_error hrun]

theorem acts_delete (walletId : String) :
    Acts X closed tables env ((deleteInUse X walletId).map .deleted) [.delete walletId]
      (fun _ => .ok (.deleted true)) (.ok (.deleted false)) where
  usable hu := by
    obtain ⟨m', hrun, hu', htables⟩ := run_access hX hu .delete
      (f := fun table => .ok (deleteManifest walletId table)) rfl
    refine ⟨m', run_map_ok ?_ _, hu', htables⟩
    rw [deleteInUse, Task.run_tryCatch, hrun]
  closed hu := by
    obtain ⟨m', hrun, hu', htables⟩ := run_access_closed hX hu .delete _
    refine ⟨m', run_map_ok ?_ _, hu', htables⟩
    rw [deleteInUse, Task.run_tryCatch, hrun]
    rfl

theorem acts_bytes (walletId : String) : Acts X closed tables env
    ((((access X .get fun table => .ok (table, getManifest walletId table)).bind fun payload =>
      .done (bytesOf env payload)) : ApiTask σ ι (Option Bytes)).map .encrypted) []
    (fun table => (bytesOf env (getManifest walletId table)).map .encrypted)
    (.error .databaseClosed) where
  usable hu := by
    obtain ⟨m', hrun, hu', htables⟩ := run_read hX hu .get (getManifest walletId)
    refine ⟨m', ?_, hu', ?_⟩
    · rw [Task.run_map, Task.run_bind_ok hrun, Task.run_done]
    · rw [htables, List.foldl_nil, Function.update_eq_self]
  closed hu := by
    obtain ⟨m', hrun, hu', htables⟩ := run_access_closed hX hu .get _
    refine ⟨m', run_map_error ?_ _, hu', htables⟩
    rw [Task.run_bind_error hrun]

end Documented

/-- The instance in use is closed. -/
theorem Represents.close {m : StorageModule σ ι} {h : Histories}
    (hm : Represents X closed tables env m h) {name : String} (hcurrent : h.current = some name)
    {m' : StorageModule σ ι} {i : ι} (hu : m'.Uses X closed i false) (hname : X.name i = name)
    {calls : String → List StorageCall}
    (htables : ∀ name, tables m'.databases name = performAll env.toBase64 (calls name)) :
    Represents X closed tables env m' { h with usable := false, calls } where
  available := hm.available
  unused hnone := by
    have hnone : h.current = none := hnone
    simp [hcurrent] at hnone
  used name' hc := ⟨i, hname.trans (Option.some.inj (hcurrent.symm.trans hc)), hu⟩
  tables := htables

/-- Every call keeps the module where the histories say, and gives what they say. -/
theorem body_refines (hX : X.Documented closed tables) (c : ApiCall) {m : StorageModule σ ι}
    {h : Histories} (hm : Represents X closed tables env m h) :
    Represents X closed tables env ((c.body X env).run m).1 (h.perform env c).1 ∧
      ((c.body X env).run m).2 = (h.perform env c).2 := by
  cases c with
  | init dbName =>
    rcases hm.initStorage hX dbName with
      ⟨havailable, m', i, hinit, hname, hu, hm'⟩ | ⟨havailable, -, hinit⟩
    · simp only [ApiCall.body, Task.bind_def, Task.run_bind, Task.run_atomically, hinit,
        Task.pure_def, Task.run_done, Histories.perform, Histories.choose, havailable, if_true,
        ← hname]
      exact ⟨hm', trivial⟩
    · simp only [ApiCall.body, Task.bind_def, Task.run_bind, Task.run_atomically, hinit,
        Histories.perform, Histories.choose, havailable, Bool.false_eq_true, if_false]
      exact ⟨hm, trivial⟩
  | put c =>
    rw [ApiCall.body, putManifestOf, Task.bind_def, map_ensured]
    exact (acts_put hX c).refines hX hm
  | get walletId =>
    rw [ApiCall.body, getManifestOf, Task.bind_def, map_ensured]
    exact (acts_read hX .get (getManifest walletId) .found).refines hX hm
  | delete walletId =>
    rw [ApiCall.body, deleteManifestOf, Task.bind_def, map_ensured]
    exact (acts_delete hX walletId).refines hX hm
  | list =>
    rw [ApiCall.body, listManifests, Task.bind_def, map_ensured]
    exact (acts_read hX .toArray
      (fun table => (env.toArray table).map ManifestRecord.toPayload) .listed).refines hX hm
  | bytes walletId =>
    rw [ApiCall.body, getEncryptedManifestBytes, getManifestOf, Task.bind_def, Task.bind_def,
      Task.bind_bind, map_ensured]
    exact (acts_bytes hX walletId).refines hX hm
  | closeInstance =>
    cases hcurrent : h.current with
    | none =>
      simp only [ApiCall.body, Task.bind_def, Task.run_bind, Task.run_modify,
        (hm.unused hcurrent).1, Option.elim_none, Task.pure_def, Task.run_done, Histories.perform]
      refine ⟨⟨hm.available, hm.unused, fun name hc => ?_, hm.tables⟩, trivial⟩
      exact absurd hc (by simp [hcurrent])
    | some name =>
      obtain ⟨i, hname, hu⟩ := hm.used name hcurrent
      simp only [ApiCall.body, Task.bind_def, Task.run_bind, Task.run_modify, hu.last,
        Option.elim_some, Task.pure_def, Task.run_done, Histories.perform]
      have hclosed : (m.close X i).Uses X closed i false :=
        ⟨hu.last, hu.only, iff_of_true (hX.close_closed ..) rfl⟩
      refine ⟨hm.close hcurrent hclosed hname fun name => ?_, trivial⟩
      rw [StorageModule.close, hX.close_tables]
      exact hm.tables name
  | deleteDatabase =>
    cases hcurrent : h.current with
    | none =>
      simp only [ApiCall.body, Task.bind_def, Task.run_bind, Task.run_modify,
        (hm.unused hcurrent).1, Option.elim_none, Task.pure_def, Task.run_done, Histories.perform,
        hcurrent]
      refine ⟨⟨fun name hc => (by cases hc), fun _ => hm.unused hcurrent,
        fun name hc => (by cases hc), hm.tables⟩, trivial⟩
    | some name =>
      obtain ⟨i, rfl, hu⟩ := hm.used name hcurrent
      simp only [ApiCall.body, Task.bind_def, Task.run_bind, Task.run_modify, hu.last,
        Option.elim_some, Task.pure_def, Task.run_done, Histories.perform, hcurrent]
      refine ⟨?_, trivial⟩
      have hclosed : ({ m with databases := X.delete i m.databases } : StorageModule σ ι).Uses X
          closed i false := ⟨hu.last, hu.only, iff_of_true (hX.delete_closed ..) rfl⟩
      have htables : ∀ name, tables (X.delete i m.databases) name =
          performAll env.toBase64 (Function.update h.calls (X.name i) [] name) := by
        intro name
        rw [hX.delete_tables]
        by_cases hname : name = X.name i
        · subst hname
          simp only [Function.update_self]
          rfl
        · simp only [Function.update_of_ne hname]
          exact hm.tables name
      have hclose := hm.close hcurrent hclosed rfl htables
      rwa [hcurrent, hu.last] at hclose

/-- The module is a family of tables. To callers who await each call, `@sj/storage` gives exactly what
the histories of the databases say: each database is what the calls on it have made since it was
created, whatever other databases were used in between, and the one in use is that of the last
`initStorage`. -/
theorem storage_refines (hX : X.Documented closed tables) (env : StorageEnv) {s : σ}
    (hs : ∀ name, tables s name = fun _ => none) (calls : List ApiCall) :
    ((freshModule s).performAll X env calls).2 = (freshHistories.performAll env calls).2 ∧
    ∀ name, tables ((freshModule s).performAll X env calls).1.databases name =
      (freshHistories.performAll env calls).1.table env name := by
  have hrun : ∀ (m : StorageModule σ ι) (h : Histories), Represents X closed tables env m h →
      (m.performAll X env calls).2 = (h.performAll env calls).2 ∧
      Represents X closed tables env (m.performAll X env calls).1 (h.performAll env calls).1 := by
    induction calls with
    | nil => exact fun m h hm => ⟨rfl, hm⟩
    | cons c cs ih =>
      intro m h hm
      obtain ⟨hstep, hreply⟩ := body_refines hX c hm
      obtain ⟨hreplies, hend⟩ := ih _ _ hstep
      exact ⟨congrArg₂ List.cons hreply hreplies, hend⟩
  obtain ⟨hreplies, hend⟩ := hrun _ _ (represents_fresh env hs)
  exact ⟨hreplies, hend.tables⟩

/-! ### A sample -/

/-- Instances by number, each open, closed or neither, and the tables of IndexedDB. -/
structure SampleDatabases where
  made : Nat
  isOpen : Nat → Bool
  closed : Nat → Bool
  tables : String → ManifestTable

def sampleDexie : Dexie SampleDatabases (String × Nat) where
  construct name s := ({ s with
    made := s.made + 1
    isOpen := Function.update s.isOpen s.made false
    closed := Function.update s.closed s.made false }, (name, s.made))
  name i := i.1
  isOpen i s := s.isOpen i.2 && !s.closed i.2
  close i s := { s with closed := Function.update s.closed i.2 true }
  delete i s := { s with
    closed := Function.update s.closed i.2 true
    tables := Function.update s.tables i.1 fun _ => none }
  operate i f s :=
    if s.closed i.2 then (s, .error .databaseClosed)
    else match f (s.tables i.1) with
      | .ok (table, a) => ({ s with
          isOpen := Function.update s.isOpen i.2 true
          tables := Function.update s.tables i.1 table }, .ok a)
      | .error e => ({ s with isOpen := Function.update s.isOpen i.2 true }, .error (.storage e))

theorem sampleDexie_documented :
    sampleDexie.Documented (fun i s => s.closed i.2 = true) SampleDatabases.tables where
  construct_name _ _ := rfl
  construct_closed _ _ := by simp [sampleDexie]
  construct_tables _ _ := rfl
  isOpen _ _ h := by
    simp only [sampleDexie, Bool.and_eq_true, Bool.not_eq_true'] at h
    simp [h.2]
  close_closed _ _ := by simp [sampleDexie]
  close_tables _ _ := rfl
  delete_closed _ _ := by simp [sampleDexie]
  delete_tables _ _ := rfl
  operate hopen hf := by
    have hf' := hf
    simp only [sampleDexie] at hf'
    simp [sampleDexie, hopen, hf']
  operate_closed f _ hclosed := by simp [sampleDexie, hclosed]

def sampleEnv : StorageEnv where
  available := true
  toBase64 := Symbolic.toBase64
  fromBase64 s := Symbolic.fromBase64 (some (.str s))
  toArray _ := []

/-- Two databases in turn, and a deletion after the close. -/
def sampleApiCalls : List ApiCall :=
  [.init (some "a"), .put firstPut, .init none, .get "Wa11et", .init (some "a"), .get "Wa11et",
    .closeInstance, .delete "Wa11et"]

theorem storage_refines_sample :
    ((freshModule ⟨0, fun _ => false, fun _ => false, fun _ _ => none⟩).performAll sampleDexie
      sampleEnv sampleApiCalls).2 =
    [.ok (.database (some "a")), .ok (.payload firstRecord.toPayload),
      .ok (.database (some defaultDbName)), .ok (.found none), .ok (.database (some "a")),
      .ok (.found (some firstRecord.toPayload)), .ok .nothing, .ok (.deleted false)] :=
  (storage_refines sampleDexie_documented sampleEnv (fun _ => rfl) sampleApiCalls).1.trans rfl

end SovereignJedi.Storage
