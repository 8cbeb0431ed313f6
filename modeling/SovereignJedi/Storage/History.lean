import SovereignJedi.Js.Encoding
import SovereignJedi.Storage.Put

/-! Calls of `@sj/storage` one after the other. The record of a wallet follows the puts since its
last deletion, but a put without a CID takes over the CID of the record, whatever manifest that was
for. -/

namespace SovereignJedi.Storage

open SovereignJedi.Js SovereignJedi.Async

def getManifest (walletId : String) (table : ManifestTable) : Option ManifestPayload :=
  (table walletId).map ManifestRecord.toPayload

/-- `table.delete(walletId)`, which does not fail on a missing key. -/
def deleteManifest (walletId : String) (table : ManifestTable) : ManifestTable × Bool :=
  (Function.update table walletId none, true)

inductive StorageCall where
  | put (c : PutCall)
  | get (walletId : String)
  | delete (walletId : String)

section Calls

variable (toBase64 : Bytes → String)

/-- The table after a call that runs alone. -/
def StorageCall.perform (table : ManifestTable) : StorageCall → ManifestTable
  | .put c => ((putManifest toBase64 c).run table).1
  | .get _ => table
  | .delete walletId => (deleteManifest walletId table).1

/-- The table after calls on an empty one. -/
def performAll (calls : List StorageCall) : ManifestTable :=
  calls.foldl (StorageCall.perform toBase64) fun _ => none

end Calls

/-! ### History -/

/-- The puts for a wallet since its last deletion. -/
def StorageCall.track (walletId : String) (puts : List PutCall) : StorageCall → List PutCall
  | .put c => if c.walletId = walletId then puts ++ [c] else puts
  | .get _ => puts
  | .delete w => if w = walletId then [] else puts

def putsSince (walletId : String) (calls : List StorageCall) : List PutCall :=
  calls.foldl (StorageCall.track walletId) []

section Spec

variable (toBase64 : Bytes → String)

/-- One of the calls has put this manifest with this CID. -/
def Uploaded (calls : List StorageCall) (encryptedManifestB64 manifestCid : String) : Prop :=
  ∃ c, .put c ∈ calls ∧ c.encryptedManifestB64 toBase64 = encryptedManifestB64 ∧
    c.manifestCid = some manifestCid

/-- `getManifest` gives nothing after no put, else the last manifest, the time of the first put and
no CID or one that was put with this manifest. -/
structure Current (calls : List StorageCall) (walletId : String) : Prop where
  missing : getManifest walletId (performAll toBase64 calls) = none ↔ putsSince walletId calls = []
  last : ∀ payload, getManifest walletId (performAll toBase64 calls) = some payload →
    (putsSince walletId calls).getLast?.map (fun c => c.encryptedManifestB64 toBase64) =
      some payload.encryptedManifestB64
  first : ∀ payload, getManifest walletId (performAll toBase64 calls) = some payload →
    (putsSince walletId calls).head?.map (fun c => c.now) = some payload.createdAt
  manifestCid : ∀ payload cid, getManifest walletId (performAll toBase64 calls) = some payload →
    payload.manifestCid = some cid → Uploaded toBase64 calls payload.encryptedManifestB64 cid

/-- After each of the calls every wallet has what its history says. -/
def FollowsHistory (calls : List StorageCall) : Prop :=
  ∀ earlier, earlier <+: calls → ∀ walletId, Current toBase64 earlier walletId

/-- A put without a CID, after the calls `earlier`, keeps a CID for its own manifest only. -/
def KeepsOwnCid (earlier : List StorageCall) (c : PutCall) : Prop :=
  c.manifestCid = none → ∀ existing cid, performAll toBase64 earlier c.walletId = some existing →
    existing.manifestCid = some cid →
      Uploaded toBase64 earlier (c.encryptedManifestB64 toBase64) cid

end Spec

variable {toBase64 : Bytes → String} {calls : List StorageCall}

theorem performAll_append (calls : List StorageCall) (call : StorageCall) :
    performAll toBase64 (calls ++ [call]) = call.perform toBase64 (performAll toBase64 calls) := by
  simp [performAll]

theorem putsSince_append (walletId : String) (calls : List StorageCall) (call : StorageCall) :
    putsSince walletId (calls ++ [call]) = call.track walletId (putsSince walletId calls) := by
  simp [putsSince]

theorem perform_put (c : PutCall) (table : ManifestTable) :
    (StorageCall.put c).perform toBase64 table = put (c.written toBase64 table) table := by
  rw [StorageCall.perform, run_putManifest]

theorem perform_put_apply (c : PutCall) (table : ManifestTable) (w : String) :
    (StorageCall.put c).perform toBase64 table w =
      if w = c.walletId then some (c.written toBase64 table) else table w := by
  rw [perform_put, put, written_walletId, Function.update_apply]

theorem perform_delete_apply (walletId : String) (table : ManifestTable) (w : String) :
    (StorageCall.delete walletId).perform toBase64 table w =
      if w = walletId then none else table w :=
  Function.update_apply ..

theorem written_encryptedManifestB64 (c : PutCall) (table : ManifestTable) :
    (c.written toBase64 table).encryptedManifestB64 = c.encryptedManifestB64 toBase64 := by
  unfold PutCall.written
  split <;> rfl

theorem written_createdAt (c : PutCall) (table : ManifestTable) :
    (c.written toBase64 table).createdAt =
      ((table c.walletId).map fun r => r.createdAt).getD c.now := by
  unfold PutCall.written
  split
  · next existing h => rw [h]; rfl
  · next h => rw [h]; rfl

theorem written_manifestCid (c : PutCall) (table : ManifestTable) :
    (c.written toBase64 table).manifestCid =
      c.manifestCid.or ((table c.walletId).bind fun r => r.manifestCid) := by
  unfold PutCall.written
  split
  · next existing h => rw [h]; rfl
  · next h => rw [h]; simp [PutCall.record]

/-! ### Content and times -/

/-- The record of a wallet has the manifest of the last put and the time of the first. -/
structure Tracked (toBase64 : Bytes → String) (record : Option ManifestRecord)
    (puts : List PutCall) : Prop where
  missing : record = none ↔ puts = []
  last : ∀ r, record = some r → puts.getLast?.map (fun c => c.encryptedManifestB64 toBase64) =
    some r.encryptedManifestB64
  first : ∀ r, record = some r → puts.head?.map (fun c => c.now) = some r.createdAt

theorem Tracked.none : Tracked toBase64 none [] where
  missing := by simp
  last r hr := by cases hr
  first r hr := by cases hr

theorem Tracked.put {table : ManifestTable} {puts : List PutCall} {c : PutCall}
    (h : Tracked toBase64 (table c.walletId) puts) :
    Tracked toBase64 (some (c.written toBase64 table)) (puts ++ [c]) where
  missing := by simp
  last r hr := by
    cases hr
    rw [List.getLast?_concat, Option.map_some, written_encryptedManifestB64]
  first r hr := by
    cases hr
    rw [written_createdAt]
    cases hrecord : table c.walletId with
    | none =>
      rw [h.missing.mp hrecord]
      rfl
    | some existing =>
      have hfirst := h.first existing hrecord
      cases puts with
      | nil => cases hfirst
      | cons p ps => exact hfirst

theorem tracked (calls : List StorageCall) (walletId : String) :
    Tracked toBase64 (performAll toBase64 calls walletId) (putsSince walletId calls) := by
  induction calls using List.reverseRecOn with
  | nil => exact .none
  | append_singleton calls call ih =>
    rw [performAll_append, putsSince_append]
    cases call with
    | put c =>
      rw [perform_put_apply, StorageCall.track]
      by_cases hw : walletId = c.walletId
      · subst hw
        rw [if_pos rfl, if_pos rfl]
        exact ih.put
      · rw [if_neg hw, if_neg (Ne.symm hw)]
        exact ih
    | get w => exact ih
    | delete w =>
      rw [perform_delete_apply, StorageCall.track]
      by_cases hw : walletId = w
      · rw [if_pos hw, if_pos hw.symm]
        exact .none
      · rw [if_neg hw, if_neg (Ne.symm hw)]
        exact ih

/-! ### CIDs -/

theorem Uploaded.mono {m cid : String} (h : Uploaded toBase64 calls m cid) (call : StorageCall) :
    Uploaded toBase64 (calls ++ [call]) m cid := by
  obtain ⟨c, hc, hm, hcid⟩ := h
  exact ⟨c, List.mem_append_left _ hc, hm, hcid⟩

/-- Every record has no CID or one that was put with its manifest. -/
def CidsUploaded (toBase64 : Bytes → String) (calls : List StorageCall) : Prop :=
  ∀ w r cid, performAll toBase64 calls w = some r → r.manifestCid = some cid →
    Uploaded toBase64 calls r.encryptedManifestB64 cid

theorem current_iff :
    (∀ walletId, Current toBase64 calls walletId) ↔ CidsUploaded toBase64 calls := by
  constructor
  · intro h w r cid hr hcid
    exact (h w).manifestCid r.toPayload cid (by rw [getManifest, hr]; rfl) hcid
  · intro h walletId
    have ht : Tracked toBase64 (performAll toBase64 calls walletId) (putsSince walletId calls) :=
      tracked calls walletId
    have hpayload : ∀ payload, getManifest walletId (performAll toBase64 calls) = some payload →
        ∃ r, performAll toBase64 calls walletId = some r ∧ r.toPayload = payload :=
      fun payload hp => Option.map_eq_some_iff.mp hp
    refine ⟨Option.map_eq_none_iff.trans ht.missing, fun payload hp => ?_, fun payload hp => ?_,
      fun payload cid hp hcid => ?_⟩
    · obtain ⟨r, hr, rfl⟩ := hpayload payload hp
      exact ht.last r hr
    · obtain ⟨r, hr, rfl⟩ := hpayload payload hp
      exact ht.first r hr
    · obtain ⟨r, hr, rfl⟩ := hpayload payload hp
      exact h walletId r cid hr hcid

/-- A put that keeps a CID for its own manifest only, keeps this so of all records, and no other
put does. -/
theorem cidsUploaded_put (h : CidsUploaded toBase64 calls) (c : PutCall) :
    CidsUploaded toBase64 (calls ++ [.put c]) ↔ KeepsOwnCid toBase64 calls c := by
  constructor
  · intro hnext hnone existing cid hexisting hcid
    have hrecord : performAll toBase64 (calls ++ [.put c]) c.walletId =
        some (c.written toBase64 (performAll toBase64 calls)) := by
      rw [performAll_append, perform_put_apply, if_pos rfl]
    obtain ⟨c', hc', hm, hcid'⟩ := hnext _ _ cid hrecord (by
      rw [written_manifestCid, hnone, hexisting]
      exact hcid)
    rw [written_encryptedManifestB64] at hm
    rcases List.mem_append.mp hc' with hc' | hc'
    · exact ⟨c', hc', hm, hcid'⟩
    · cases List.mem_singleton.mp hc'
      rw [hnone] at hcid'
      cases hcid'
  · intro hkeeps w r cid hr hcid
    rw [performAll_append, perform_put_apply] at hr
    by_cases hw : w = c.walletId
    · rw [if_pos hw] at hr
      cases hr
      rw [written_manifestCid] at hcid
      rw [written_encryptedManifestB64]
      cases hc : c.manifestCid with
      | some cid' =>
        rw [hc, Option.some_or, Option.some_inj] at hcid
        exact ⟨c, by simp, rfl, by rw [hc, hcid]⟩
      | none =>
        rw [hc, Option.none_or] at hcid
        obtain ⟨existing, hexisting, hcid⟩ := Option.bind_eq_some_iff.mp hcid
        exact (hkeeps hc existing cid hexisting hcid).mono _
    · rw [if_neg hw] at hr
      exact (h w r cid hr hcid).mono _

theorem cidsUploaded_get (h : CidsUploaded toBase64 calls) (w : String) :
    CidsUploaded toBase64 (calls ++ [.get w]) := by
  intro w' r cid hr hcid
  rw [performAll_append] at hr
  exact (h w' r cid hr hcid).mono _

theorem cidsUploaded_delete (h : CidsUploaded toBase64 calls) (w : String) :
    CidsUploaded toBase64 (calls ++ [.delete w]) := by
  intro w' r cid hr hcid
  rw [performAll_append, perform_delete_apply] at hr
  split at hr
  · cases hr
  · exact (h w' r cid hr hcid).mono _

/-- `getManifest` follows the history after every call exactly when each put without a CID keeps a
CID for its own manifest only. -/
theorem followsHistory_iff (toBase64 : Bytes → String) (calls : List StorageCall) :
    FollowsHistory toBase64 calls ↔
      ∀ earlier c, earlier ++ [.put c] <+: calls → KeepsOwnCid toBase64 earlier c := by
  simp only [FollowsHistory, current_iff]
  constructor
  · intro h earlier c hprefix
    exact (cidsUploaded_put (h earlier ((List.prefix_append _ _).trans hprefix)) c).mp (h _ hprefix)
  · intro h earlier hprefix
    induction earlier using List.reverseRecOn with
    | nil => exact fun w r cid hr _ => by cases hr
    | append_singleton earlier call ih =>
      have hbefore := ih ((List.prefix_append _ _).trans hprefix)
      cases call with
      | put c => exact (cidsUploaded_put hbefore c).mpr (h earlier c hprefix)
      | get w => exact cidsUploaded_get hbefore w
      | delete w => exact cidsUploaded_delete hbefore w

/-- A manifest with its CID, and a later one without. -/
def sampleCalls : List StorageCall :=
  [.put ⟨"Wa11et", .base64 "TTE=", some "bafy1", "2024-01-01T00:00:00.000Z"⟩,
    .put ⟨"Wa11et", .base64 "TTI=", none, "2024-01-02T00:00:00.000Z"⟩]

/-- The record has the later manifest with the CID of the earlier one. -/
theorem not_followsHistory :
    getManifest "Wa11et" (performAll Base64.encode sampleCalls) = some ⟨"Wa11et", "TTI=",
        some "bafy1", "2024-01-01T00:00:00.000Z", "2024-01-02T00:00:00.000Z"⟩ ∧
      ¬FollowsHistory Base64.encode sampleCalls := by
  have hpayload : getManifest "Wa11et" (performAll Base64.encode sampleCalls) = some ⟨"Wa11et",
      "TTI=", some "bafy1", "2024-01-01T00:00:00.000Z", "2024-01-02T00:00:00.000Z"⟩ := rfl
  refine ⟨hpayload, fun h => ?_⟩
  obtain ⟨c, hc, hm, hcid⟩ := (h sampleCalls (List.prefix_refl _) "Wa11et").manifestCid _ "bafy1"
    hpayload rfl
  simp only [sampleCalls, List.mem_cons, StorageCall.put.injEq, List.not_mem_nil, or_false] at hc
  rcases hc with rfl | rfl
  · exact absurd hm (by decide)
  · cases hcid

end SovereignJedi.Storage
