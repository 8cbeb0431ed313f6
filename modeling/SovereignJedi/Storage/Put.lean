import SovereignJedi.Async.Linear
import SovereignJedi.Js.Symbolic

/-! The table of encrypted manifests (`@sj/storage`), and concurrent calls of `putManifest` on it. A
call reads the record of its wallet and then writes one that depends on what it has read, without a
transaction; others may write in between. -/

namespace SovereignJedi.Storage

open SovereignJedi.Js SovereignJedi.Async

structure ManifestRecord where
  walletId : String
  encryptedManifestB64 : String
  manifestCid : Option String
  createdAt : String
  updatedAt : String
  deriving DecidableEq

structure ManifestPayload where
  walletId : String
  encryptedManifestB64 : String
  manifestCid : Option String
  createdAt : String
  updatedAt : String
  deriving DecidableEq

/-- What `putManifest` returns of the record that it has written. -/
def ManifestRecord.toPayload (r : ManifestRecord) : ManifestPayload where
  walletId := r.walletId
  encryptedManifestB64 := r.encryptedManifestB64
  manifestCid := r.manifestCid
  createdAt := r.createdAt
  updatedAt := r.updatedAt

/-- The table `manifests`, with the primary key `walletId`. -/
abbrev ManifestTable := String → Option ManifestRecord

inductive StorageError where
  | constraintError
  deriving DecidableEq

/-- An encrypted manifest as base64 or as bytes. -/
inductive EncryptedManifest where
  | base64 (s : String)
  | bytes (b : Bytes)

/-- A call; `now` is the time when it is made. -/
structure PutCall where
  walletId : String
  encryptedManifest : EncryptedManifest
  manifestCid : Option String
  now : String

/-- Where a call waits for the table: before `get`, and before `put` or `add`. -/
inductive PutPoint where
  | get
  | put (existing : ManifestRecord)
  | add

abbrev PutTask := Task PutPoint ManifestTable StorageError ManifestPayload

variable (toBase64 : Bytes → String)

def PutCall.encryptedManifestB64 (c : PutCall) : String :=
  match c.encryptedManifest with
  | .base64 s => s
  | .bytes b => toBase64 b

/-- The record that is put where one exists. -/
def PutCall.updated (c : PutCall) (existing : ManifestRecord) : ManifestRecord where
  walletId := c.walletId
  encryptedManifestB64 := c.encryptedManifestB64 toBase64
  manifestCid := c.manifestCid.or existing.manifestCid
  createdAt := existing.createdAt
  updatedAt := c.now

/-- The record that is added where none exists. -/
def PutCall.record (c : PutCall) : ManifestRecord where
  walletId := c.walletId
  encryptedManifestB64 := c.encryptedManifestB64 toBase64
  manifestCid := c.manifestCid
  createdAt := c.now
  updatedAt := c.now

/-- `table.put(r)`. -/
def put (r : ManifestRecord) (table : ManifestTable) : ManifestTable :=
  Function.update table r.walletId (some r)

/-- `table.add(r)` rejects a key that exists. -/
def add (r : ManifestRecord) (table : ManifestTable) :
    Except StorageError (ManifestTable × Unit) :=
  match table r.walletId with
  | some _ => .error .constraintError
  | none => .ok (put r table, ())

def putUpdated (c : PutCall) (existing : ManifestRecord) : PutTask := do
  Task.modify (put (c.updated toBase64 existing))
  return (c.updated toBase64 existing).toPayload

def addRecord (c : PutCall) : PutTask := do
  Task.atomically (add (c.record toBase64))
  return (c.record toBase64).toPayload

/-- A call, from the moment when the table is read. -/
def afterGet (c : PutCall) : PutTask := do
  let table : ManifestTable ← .get
  match table c.walletId with
  | some existing => .await (.put existing) (fun _ => true) (putUpdated toBase64 c existing)
  | none => .await .add (fun _ => true) (addRecord toBase64 c)

def putManifest (c : PutCall) : PutTask := .await .get (fun _ => true) (afterGet toBase64 c)

/-! ### Runs -/

abbrev PutPool := Pool PutCall PutPoint ManifestTable StorageError ManifestPayload

/-- All calls that have settled are fulfilled, the table and their results are those of running them
one at a time in some order, and their `createdAt` is that of the record. -/
structure Linearizable (s : ManifestTable) (p : PutPool) : Prop where
  fulfilled : ∀ (i : Nat) c r, p.threads[i]? = some (c, .done r) → ∃ payload, r = .ok payload
  linearized : ∃ order, Linearized (putManifest toBase64) s p order
  createdAt : ∀ (i : Nat) c payload, p.threads[i]? = some (c, .done (.ok payload)) →
    ∃ record, p.state c.walletId = some record ∧ payload.createdAt = record.createdAt

/-- What a call has read is still so when it writes, as far as it matters: there is still no record
where it adds one, and a CID that it takes over is still the one of the record. -/
def UpToDate (c : PutCall) (point : PutPoint) (table : ManifestTable) : Prop :=
  match point with
  | .get => True
  | .add => table c.walletId = none
  | .put existing => c.manifestCid = none →
      (table c.walletId).bind (fun r => r.manifestCid) = existing.manifestCid

variable {toBase64}

/-! ### One call -/

/-- The record that a call leaves when it runs alone. -/
def PutCall.written (toBase64 : Bytes → String) (c : PutCall) (table : ManifestTable) :
    ManifestRecord :=
  match table c.walletId with
  | some existing => c.updated toBase64 existing
  | none => c.record toBase64

theorem written_walletId (c : PutCall) (table : ManifestTable) :
    (c.written toBase64 table).walletId = c.walletId := by
  unfold PutCall.written
  split <;> rfl

theorem put_written (c : PutCall) (table : ManifestTable) :
    put (c.written toBase64 table) table c.walletId = some (c.written toBase64 table) := by
  rw [put, written_walletId, Function.update_self]

/-- A call that runs alone is fulfilled. -/
theorem run_putManifest (c : PutCall) (table : ManifestTable) :
    (putManifest toBase64 c).run table =
      (put (c.written toBase64 table) table, .ok (c.written toBase64 table).toPayload) := by
  simp only [putManifest, afterGet, Task.run, Task.bind_def, Task.run_bind, Task.run_get,
    PutCall.written]
  cases hrecord : table c.walletId with
  | some existing => rfl
  | none =>
    simp only [Task.run, addRecord, Task.bind_def, Task.run_bind, Task.run_atomically, add,
      PutCall.record, hrecord]
    rfl

theorem seg_putManifest (c : PutCall) (table : ManifestTable) :
    (putManifest toBase64 c).seg table =
      (table, .await .get (fun _ => true) (afterGet toBase64 c)) := rfl

theorem seg_afterGet (toBase64 : Bytes → String) (c : PutCall) (table : ManifestTable) :
    (afterGet toBase64 c).seg table = (table, match table c.walletId with
      | some existing => .await (.put existing) (fun _ => true) (putUpdated toBase64 c existing)
      | none => .await .add (fun _ => true) (addRecord toBase64 c)) := by
  simp only [afterGet, Task.bind_def, Task.seg_get_bind]
  cases table c.walletId <;> rfl

theorem seg_putUpdated (c : PutCall) (existing : ManifestRecord) (table : ManifestTable) :
    (putUpdated toBase64 c existing).seg table =
      (put (c.updated toBase64 existing) table,
        .done (.ok (c.updated toBase64 existing).toPayload)) := rfl

theorem seg_addRecord {c : PutCall} {table : ManifestTable} (h : table c.walletId = none) :
    (addRecord toBase64 c).seg table =
      (put (c.record toBase64) table, .done (.ok (c.record toBase64).toPayload)) := by
  have hadd : add (c.record toBase64) table = .ok (put (c.record toBase64) table, ()) := by
    rw [add, PutCall.record, h]
  rw [addRecord, Task.bind_def, Task.seg_bind_ok (Task.seg_atomically hadd)]
  rfl

/-! ### Pools -/

/-- How far a call has come: it waits for the table, or it has settled. -/
inductive Stage (toBase64 : Bytes → String) (table : ManifestTable) (c : PutCall) :
    Task PutPoint ManifestTable StorageError ManifestPayload → Prop
  | get : Stage toBase64 table c (.await .get (fun _ => true) (afterGet toBase64 c))
  | put (existing record : ManifestRecord) (hrecord : table c.walletId = some record)
      (hcreated : record.createdAt = existing.createdAt) : Stage toBase64 table c
        (.await (.put existing) (fun _ => true) (putUpdated toBase64 c existing))
  | add : Stage toBase64 table c (.await .add (fun _ => true) (addRecord toBase64 c))
  | fulfilled (payload : ManifestPayload) (record : ManifestRecord)
      (hrecord : table c.walletId = some record) (hcreated : payload.createdAt = record.createdAt) :
      Stage toBase64 table c (.done (.ok payload))

/-- Every call has come to one of the stages. -/
structure Staged (toBase64 : Bytes → String) (s : ManifestTable) (p : PutPool) : Prop where
  linearized : ∃ order, Linearized (putManifest toBase64) s p order
  stage : ∀ (i : Nat) c t, p.threads[i]? = some (c, t) → Stage toBase64 p.state c t

/-- Records are kept, with the time of their creation. -/
def Kept (table table' : ManifestTable) : Prop :=
  ∀ w record, table w = some record →
    ∃ record', table' w = some record' ∧ record'.createdAt = record.createdAt

theorem Stage.kept {table table' : ManifestTable} (h : Kept table table') {c : PutCall}
    {t : PutTask} (hstage : Stage toBase64 table c t) : Stage toBase64 table' c t := by
  cases hstage with
  | get => exact .get
  | put existing record hrecord hcreated =>
    obtain ⟨record', hrecord', hsame⟩ := h _ _ hrecord
    exact .put existing record' hrecord' (hsame.trans hcreated)
  | add => exact .add
  | fulfilled payload record hrecord hcreated =>
    obtain ⟨record', hrecord', hsame⟩ := h _ _ hrecord
    exact .fulfilled payload record' hrecord' (hcreated.trans hsame.symm)

/-- A call that runs alone keeps the records. -/
theorem kept_written (c : PutCall) (table : ManifestTable) :
    Kept table (put (c.written toBase64 table) table) := by
  intro w record hrecord
  by_cases hw : w = c.walletId
  · subst hw
    refine ⟨c.written toBase64 table, put_written c table, ?_⟩
    rw [PutCall.written, hrecord]
    rfl
  · refine ⟨record, ?_, rfl⟩
    rw [put, written_walletId, Function.update_of_ne hw, hrecord]

namespace Staged

variable {s : ManifestTable} {p : PutPool}

theorem start (s : ManifestTable) : Staged toBase64 s (Pool.init s) :=
  ⟨⟨[], .init s⟩, by simp [Pool.init]⟩

theorem call (h : Staged toBase64 s p) (c : PutCall) :
    Staged toBase64 s (p.call (putManifest toBase64) c) := by
  obtain ⟨order, horder⟩ := h.linearized
  refine ⟨⟨order, horder.call (seg_putManifest c _)⟩, fun i d t hi => ?_⟩
  rcases Pool.getElem?_call hi with hi | ⟨-, rfl, rfl⟩
  · exact h.stage i d t hi
  · exact .get

/-- A call that waits again has changed nothing. -/
theorem suspend (h : Staged toBase64 s p) {i : Nat} {c : PutCall} {point point' : PutPoint}
    {ready ready' : ManifestTable → Bool} {next next' : PutTask}
    (hi : p.threads[i]? = some (c, .await point ready next))
    (hseg : next.seg p.state = (p.state, .await point' ready' next'))
    (hstage : Stage toBase64 p.state c (.await point' ready' next')) :
    Staged toBase64 s (p.resume i c next) := by
  obtain ⟨order, horder⟩ := h.linearized
  refine ⟨⟨order, horder.suspend hi hseg⟩, fun j d t hj => ?_⟩
  rw [Pool.resume, hseg]
  rcases Pool.getElem?_resume hi hj with ⟨-, hj⟩ | ⟨-, rfl, rfl⟩
  · exact h.stage j d t hj
  · rw [hseg]
    exact hstage

/-- A call that writes what it would write if it ran alone now. -/
theorem commit (h : Staged toBase64 s p) {i : Nat} {c : PutCall} {point : PutPoint}
    {ready : ManifestTable → Bool} {next : PutTask}
    (hi : p.threads[i]? = some (c, .await point ready next))
    (hseg : next.seg p.state = (put (c.written toBase64 p.state) p.state,
      .done (.ok (c.written toBase64 p.state).toPayload))) :
    Staged toBase64 s (p.resume i c next) := by
  obtain ⟨order, horder⟩ := h.linearized
  refine ⟨⟨_, horder.commit hi hseg (run_putManifest c p.state)⟩, fun j d t hj => ?_⟩
  rw [Pool.resume, hseg]
  rcases Pool.getElem?_resume hi hj with ⟨-, hj⟩ | ⟨-, rfl, rfl⟩
  · exact (h.stage j d t hj).kept (kept_written c p.state)
  · rw [hseg]
    exact .fulfilled _ _ (put_written d p.state) rfl

theorem step (h : Staged toBase64 s p) {q : PutPool}
    (hstep : Pool.Step (putManifest toBase64) (fun _ _ => True) UpToDate p q) :
    Staged toBase64 s q := by
  cases hstep with
  | call c => exact h.call c
  | resume i c point ready next hi hready hr =>
    cases h.stage i c _ hi with
    | get =>
      have hseg := seg_afterGet toBase64 c p.state
      cases hrecord : p.state c.walletId with
      | some existing =>
        rw [hrecord] at hseg
        exact h.suspend hi hseg (.put existing existing hrecord rfl)
      | none =>
        rw [hrecord] at hseg
        exact h.suspend hi hseg .add
    | put existing record hrecord hcreated =>
      have hcid : c.manifestCid.or record.manifestCid =
          c.manifestCid.or existing.manifestCid := by
        cases hc : c.manifestCid with
        | some cid => rfl
        | none => simpa [hrecord] using hr hc
      have hwritten : c.updated toBase64 existing = c.written toBase64 p.state := by
        simp only [PutCall.written, hrecord, PutCall.updated, hcid, hcreated]
      refine h.commit hi ?_
      rw [seg_putUpdated, hwritten]
    | add =>
      have hnone : p.state c.walletId = none := hr
      refine h.commit hi ?_
      rw [seg_addRecord hnone, PutCall.written, hnone]

theorem run (hrun : Pool.Run (putManifest toBase64) (fun _ _ => True) UpToDate (Pool.init s) p) :
    Staged toBase64 s p :=
  hrun.invariant (Staged toBase64 s) (fun _ _ h hstep => h.step hstep) (start s)

end Staged

/-- Concurrent calls are linearizable in every run in which what a call has read is up to date when
it writes. -/
theorem putManifest_linearizable (toBase64 : Bytes → String) (s : ManifestTable) {p : PutPool}
    (hrun : Pool.Run (putManifest toBase64) (fun _ _ => True) UpToDate (Pool.init s) p) :
    Linearizable toBase64 s p := by
  have h := Staged.run hrun
  refine ⟨fun i c r hi => ?_, h.linearized, fun i c payload hi => ?_⟩
  · cases h.stage i c _ hi with
    | fulfilled payload record hrecord hcreated => exact ⟨payload, rfl⟩
  · cases h.stage i c _ hi with
    | fulfilled payload record hrecord hcreated => exact ⟨record, hrecord, hcreated⟩

/-! ### Samples -/

/-- A call without a CID. -/
def samplePut (encryptedManifest now : String) : PutCall where
  walletId := "Wa11et"
  encryptedManifest := .base64 encryptedManifest
  manifestCid := none
  now

def firstPut : PutCall := samplePut "AAAA" "2026-01-01T00:00:00.000Z"

def secondPut : PutCall := samplePut "BBBB" "2026-01-01T00:00:01.000Z"

/-- The record that `firstPut` adds. -/
def firstRecord : ManifestRecord := firstPut.record Symbolic.toBase64

/-- The record that `firstPut` puts when it has read `firstRecord`. -/
def staleRecord : ManifestRecord := firstPut.updated Symbolic.toBase64 firstRecord

/-- The pool after both calls at once on `firstRecord`: both read it, and `firstPut` writes last. -/
def sampleOverlap : PutPool where
  state := put staleRecord (put (secondPut.updated Symbolic.toBase64 firstRecord)
    (put firstRecord fun _ => none))
  threads := [(firstPut, .done (.ok staleRecord.toPayload)),
    (secondPut, .done (.ok (secondPut.updated Symbolic.toBase64 firstRecord).toPayload))]

/-- Neither brings a CID, and the one that both take over stays. -/
theorem sampleOverlap_run :
    Pool.Run (putManifest Symbolic.toBase64) (fun _ _ => True) UpToDate
      (Pool.init (put firstRecord fun _ => none)) sampleOverlap := by
  refine .tail (.tail (.tail (.tail (.tail (.single
    (.call firstPut trivial))
    (.call secondPut trivial))
    (.resume 0 firstPut PutPoint.get _ (afterGet _ firstPut) rfl rfl trivial))
    (.resume 1 secondPut PutPoint.get _ (afterGet _ secondPut) rfl rfl trivial))
    (.resume 1 secondPut (PutPoint.put firstRecord) _ (putUpdated _ secondPut firstRecord) rfl rfl
      fun _ => rfl))
    (.resume 0 firstPut (PutPoint.put firstRecord) _ (putUpdated Symbolic.toBase64 firstPut
      firstRecord) rfl rfl fun _ => rfl)

theorem putManifest_linearizable_sample :
    Linearizable Symbolic.toBase64 (put firstRecord fun _ => none) sampleOverlap :=
  putManifest_linearizable Symbolic.toBase64 _ sampleOverlap_run

/-- The pool after both calls at once: both find no record, and the second is rejected. -/
def sampleRejected : PutPool where
  state := put firstRecord fun _ => none
  threads := [(firstPut, .done (.ok firstRecord.toPayload)),
    (secondPut, .done (.error .constraintError))]

theorem sampleRejected_run :
    Pool.Run (putManifest Symbolic.toBase64) (fun _ _ => True) (fun _ _ _ => True)
      (Pool.init fun _ => none) sampleRejected := by
  refine .tail (.tail (.tail (.tail (.tail (.single
    (.call firstPut trivial))
    (.call secondPut trivial))
    (.resume 0 firstPut PutPoint.get _ (afterGet _ firstPut) rfl rfl trivial))
    (.resume 1 secondPut PutPoint.get _ (afterGet _ secondPut) rfl rfl trivial))
    (.resume 0 firstPut PutPoint.add _ (addRecord _ firstPut) rfl rfl trivial))
    (.resume 1 secondPut PutPoint.add _ (addRecord Symbolic.toBase64 secondPut) rfl rfl trivial)

/-- A call with a CID. -/
def cidPut : PutCall := { secondPut with manifestCid := some "bafyone" }

/-- The pool after `cidPut` and `firstPut` at once, where `firstPut` writes last the CID that it has
read, which is none. -/
def sampleStale : PutPool where
  state := put staleRecord (put (cidPut.updated Symbolic.toBase64 firstRecord)
    (put firstRecord fun _ => none))
  threads := [(cidPut, .done (.ok (cidPut.updated Symbolic.toBase64 firstRecord).toPayload)),
    (firstPut, .done (.ok staleRecord.toPayload))]

theorem sampleStale_run :
    Pool.Run (putManifest Symbolic.toBase64) (fun _ _ => True) (fun _ _ _ => True)
      (Pool.init (put firstRecord fun _ => none)) sampleStale := by
  refine .tail (.tail (.tail (.tail (.tail (.single
    (.call cidPut trivial))
    (.call firstPut trivial))
    (.resume 0 cidPut PutPoint.get _ (afterGet _ cidPut) rfl rfl trivial))
    (.resume 1 firstPut PutPoint.get _ (afterGet _ firstPut) rfl rfl trivial))
    (.resume 0 cidPut (PutPoint.put firstRecord) _ (putUpdated _ cidPut firstRecord) rfl rfl
      trivial))
    (.resume 1 firstPut (PutPoint.put firstRecord) _ (putUpdated Symbolic.toBase64 firstPut
      firstRecord) rfl rfl trivial)

/-- A wallet with a CID keeps one when calls run alone. -/
theorem Sequential.hasCid {s s' : ManifestTable} {w : String}
    {calls : List (PutCall × Except StorageError ManifestPayload)}
    (h : Sequential (putManifest toBase64) s calls s')
    (hs : ((s w).bind fun r => r.manifestCid) ≠ none) :
    ((s' w).bind fun r => r.manifestCid) ≠ none := by
  refine h.invariant (fun s => ((s w).bind fun r => r.manifestCid) ≠ none) (fun c s hs => ?_) hs
  rw [run_putManifest]
  dsimp only
  by_cases hw : w = c.walletId
  · subst hw
    rw [put_written]
    cases hrecord : s c.walletId with
    | none => simp [hrecord] at hs
    | some existing =>
      rw [hrecord] at hs
      rw [PutCall.written, hrecord]
      cases hc : c.manifestCid <;> simp_all [PutCall.updated]
  · rw [put, written_walletId, Function.update_of_ne hw]
    exact hs

/-- A call sets its CID for good. -/
theorem Sequential.hasCid_of_mem {s s' : ManifestTable} {c : PutCall} {cid : String}
    {r : Except StorageError ManifestPayload}
    {calls : List (PutCall × Except StorageError ManifestPayload)}
    (h : Sequential (putManifest toBase64) s calls s') (hmem : (c, r) ∈ calls)
    (hcid : c.manifestCid = some cid) :
    ((s' c.walletId).bind fun r => r.manifestCid) ≠ none := by
  induction calls generalizing s with
  | nil => cases hmem
  | cons call calls ih =>
    obtain ⟨s₁, hrun, hrest⟩ := h
    rcases List.mem_cons.mp hmem with rfl | hmem
    · refine hasCid hrest ?_
      rw [run_putManifest, Prod.mk.injEq] at hrun
      rw [← hrun.1, put_written, PutCall.written]
      split <;> simp [PutCall.updated, PutCall.record, hcid]
    · exact ih hrest hmem

/-- Of two first calls at once the second is rejected; and a call without a CID undoes the CID of
another one. -/
theorem concurrent_puts_interfere :
    (Pool.Run (putManifest Symbolic.toBase64) (fun _ _ => True) (fun _ _ _ => True)
        (Pool.init fun _ => none) sampleRejected ∧
      ¬ Linearizable Symbolic.toBase64 (fun _ => none) sampleRejected) ∧
    (Pool.Run (putManifest Symbolic.toBase64) (fun _ _ => True) (fun _ _ _ => True)
        (Pool.init (put firstRecord fun _ => none)) sampleStale ∧
      ¬ Linearizable Symbolic.toBase64 (put firstRecord fun _ => none) sampleStale) := by
  refine ⟨⟨sampleRejected_run, fun h => ?_⟩, sampleStale_run, fun h => ?_⟩
  · obtain ⟨payload, hok⟩ := h.fulfilled 1 secondPut _ rfl
    cases hok
  · obtain ⟨order, horder⟩ := h.linearized
    have hmem := (horder.settled 0 cidPut _).mpr rfl
    exact Sequential.hasCid_of_mem horder.sequential (List.mem_map_of_mem (f := Prod.snd) hmem) rfl
      rfl

end SovereignJedi.Storage
