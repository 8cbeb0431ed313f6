import SovereignJedi.Manifest.Exclusive
import SovereignJedi.Manifest.Guardrail

/-! Concurrent appends are serialisable. The calls for one wallet take effect one after the other,
in the order in which they were issued, whatever the calls for other wallets do in between, and
whichever operations fail. -/

namespace SovereignJedi.Manifest

open SovereignJedi.Js SovereignJedi.Crypto SovereignJedi.Async

variable {P : Platform} {α β : Type}

/-! ### Tasks on one pointer -/

/-- The pointers of the other wallets are as before. -/
def OthersKept (P : Platform) (w : WalletPubKey) (b b' : Browser) : Prop :=
  ∀ w', w' ≠ w → manifestCid P w' b' = manifestCid P w' b

theorem OthersKept.refl (w : WalletPubKey) (b : Browser) : OthersKept P w b b := fun _ _ => rfl

theorem OthersKept.trans {w : WalletPubKey} {b b' b'' : Browser} (h : OthersKept P w b b')
    (h' : OthersKept P w b' b'') : OthersKept P w b b'' :=
  fun w' hw => (h' w' hw).trans (h w' hw)

/-- Of the pointers, the task reads and sets that of `w` only, and it never waits for a state. -/
structure OnPointer (P : Platform) (w : WalletPubKey) (t : ServiceTask α) : Prop where
  confined : t.Confined (manifestCid P w)
  updates : t.Updates (OthersKept P w)
  unblocked : t.NeverBlocks

namespace OnPointer

variable {w : WalletPubKey}

theorem bind {t : ServiceTask α} {k : α → ServiceTask β} (ht : OnPointer P w t)
    (hk : ∀ a, OnPointer P w (k a)) : OnPointer P w (t.bind k) where
  confined := ht.confined.bind fun a => (hk a).confined
  updates := ht.updates.bind fun a => (hk a).updates
  unblocked := ht.unblocked.bind fun a => (hk a).unblocked

theorem done (r : Result α) : OnPointer P w (.done r) :=
  ⟨Task.Confined.done r, Task.Updates.done r, Task.NeverBlocks.done r⟩

theorem awaited {t : ServiceTask α} (ht : OnPointer P w t) (p : AwaitPoint) :
    OnPointer P w (t.awaited p) :=
  ⟨ht.confined.awaited, ht.updates.awaited, ht.unblocked.awaited⟩

theorem step (point : Step → AwaitPoint) (fault : Faults) (s : Step) (r : Result α) :
    OnPointer P w (step point fault s r) :=
  ⟨Task.Confined.op _ _, Task.Updates.op _ _, Task.NeverBlocks.op _ _⟩

theorem readManifestCid : OnPointer P w (readManifestCid P w.val) where
  confined := .atomically (fun cid => .ok (cid, cid)) fun b => by
    simp [getManifestCid_val, manifestCid, Except.map]
  updates := .atomically (OthersKept.refl w) fun b b' cid h => by
    simp only [getManifestCid_val, ok_bind, result_pure, Except.ok.injEq, Prod.mk.injEq] at h
    obtain ⟨rfl, -⟩ := h
    exact fun w' _ => manifestCid_migrated w' w b
  unblocked := .atomically _

theorem storeManifestCid (cid : String) : OnPointer P w (storeManifestCid P w.val cid) where
  confined := .atomically
    (fun _ => if trim cid = "" then .error (.error "setManifestCid: cid must be a non-empty string")
      else .ok (cidFound (some (trim cid)), ())) fun b => by
    by_cases h : trim cid = ""
    · simp [setManifestCid, h, Except.map]
    · simp [setManifestCid, h, manifestCid, pointer_setItem_scoped, Except.map]
  updates := .atomically (OthersKept.refl w) fun b b' u h => by
    by_cases hblank : trim cid = ""
    · simp [setManifestCid, hblank] at h
    · simp only [setManifestCid, hblank, if_false, canonicalizeWalletPubKey_val,
        buildManifestStorageKey_val, ok_bind, result_pure, Except.ok.injEq, Prod.mk.injEq] at h
      obtain ⟨rfl, -⟩ := h
      exact fun w' hw => pointer_set_ne _ hw _ _
  unblocked := .atomically _

theorem addBytes (point : Step → AwaitPoint) (fault : Faults) (bytes : Bytes) :
    OnPointer P w (addBytes P point fault bytes) :=
  (step ..).bind fun _ => bind ⟨.modify fun _ _ h => h, .modify fun _ _ _ => rfl, .modify _⟩
    fun _ => done _

theorem persist (point : Step → AwaitPoint) (fault : Faults) (draws : SealDraws)
    (kek manifestKey : Bytes) (manifest : Json) :
    OnPointer P w (persist P point fault draws w.val kek manifestKey manifest) :=
  (step ..).bind fun _ => (step ..).bind fun _ => (addBytes ..).bind fun _ =>
    (storeManifestCid _).bind fun _ => done _

theorem readManifest (point : Step → AwaitPoint) (fault : Faults) (signatureBytes : Bytes)
    (cid invalidJson : String) :
    OnPointer P w (readManifest P point fault w.val signatureBytes cid invalidJson) :=
  (step ..).bind fun _ => (done _).bind fun _ => (step ..).bind fun _ => (step ..).bind fun _ =>
    done _

theorem initManifest (p : LoadParams) : OnPointer P w (initManifest P w.val p) :=
  (step ..).bind fun _ => (step ..).bind fun _ => (step ..).bind fun _ => (persist ..).bind fun _ =>
    done _

theorem loadManifest (p : LoadParams) (cid : String) : OnPointer P w (loadManifest P w.val p cid) :=
  (readManifest ..).bind fun _ => done _

theorem loadManifestOrInit {p : LoadParams} (hw : trim p.walletPubKey = w.val) :
    OnPointer P w (loadManifestOrInit P p) := by
  unfold Manifest.loadManifestOrInit
  rw [hw]
  refine (done _).bind fun _ => (done _).bind fun _ => readManifestCid.bind fun cid => ?_
  cases cid with
  | some cid => exact loadManifest p cid
  | none =>
    show OnPointer P w (if _ then _ else _)
    split
    · exact done _
    · exact initManifest p

theorem ensureManifest (p : AppendParams) (cid : Option String) :
    OnPointer P w (ensureManifest P p w.val cid) := by
  cases cid with
  | some cid => exact done _
  | none =>
    have hinit := loadManifestOrInit (P := P) (p := p.toInit w.val) w.trim_val
    rw [Manifest.ensureManifest, Task.bind_def]
    refine (hinit.awaited .init).bind fun r => ?_
    cases r <;> exact done _

theorem appendTo (p : AppendParams) (cid : String) : OnPointer P w (appendTo P p w.val cid) :=
  (readManifest ..).bind fun (_, _) => (done _).bind fun _ => (step ..).bind fun _ =>
    (step ..).bind fun _ => (persist ..).bind fun _ => done _

theorem appendSection {p : AppendParams} (hw : trim p.walletPubKey = w.val) :
    OnPointer P w (appendSection P p) := by
  unfold Manifest.appendSection
  rw [hw]
  refine readManifestCid.bind fun cid => (ensureManifest p cid).bind fun _ =>
    readManifestCid.bind fun cid' => ?_
  cases cid' with
  | some cid' => exact appendTo p cid'
  | none => exact done _

end OnPointer

/-- An append runs alone when its mutex is free. -/
theorem runsAlone_appendEntryAndPersist {w : WalletPubKey} {p : AppendParams}
    (hw : trim p.walletPubKey = w.val) {s : WalletTab} (hfree : s.Free) :
    (appendEntryAndPersist P p).RunsAlone s := by
  have hsection := OnPointer.appendSection (P := P) hw
  unfold appendEntryAndPersist
  split
  · trivial
  · exact runsAlone_runExclusive _ _ _ (hfree _) hsection.unblocked

/-! ### Appends by wallet -/

/-- The wallet whose mutex an append takes, unless it is rejected before. -/
def appendLock (p : AppendParams) : Option String :=
  match appendChecks p with
  | .ok () => some (trim p.walletPubKey)
  | .error _ => none

/-- What an append runs under the mutex, or instead of it. -/
def appendCode (P : Platform) (p : AppendParams) : ServiceTask (Json × String) :=
  match appendChecks p with
  | .ok () => appendSection P p
  | .error e => .done (.error e)

theorem appendEntryAndPersist_eq (P : Platform) :
    appendEntryAndPersist P = exclusive appendLock (appendCode P) .previous .exclusive := by
  funext p
  unfold appendEntryAndPersist exclusive appendLock appendCode
  cases appendChecks p <;> rfl

theorem appendLock_ok {p : AppendParams} (h : appendChecks p = .ok ()) :
    appendLock p = some (trim p.walletPubKey) := by rw [appendLock, h]

theorem appendLock_error {p : AppendParams} {e : JsError} (h : appendChecks p = .error e) :
    appendLock p = none := by rw [appendLock, h]

theorem appendCode_ok {p : AppendParams} (h : appendChecks p = .ok ()) :
    appendCode P p = appendSection P p := by rw [appendCode, h]

theorem appendCode_error {p : AppendParams} {e : JsError} (h : appendChecks p = .error e) :
    appendCode P p = .done (.error e) := by rw [appendCode, h]

theorem appendLock_ne {p : AppendParams} {k : String} (h : trim p.walletPubKey ≠ k) :
    appendLock p ≠ some k := by
  unfold appendLock
  split
  · exact fun hk => h (Option.some.inj hk)
  · exact fun hk => by cases hk

/-- The data that a call leaves when it runs alone. -/
@[irreducible] def after (P : Platform) (b : Browser) (p : AppendParams) : Browser :=
  ((appendEntryAndPersist P p).run (Tab.fresh b)).1.data

/-- The outcome of a call that runs alone. -/
@[irreducible] def outcome (P : Platform) (b : Browser) (p : AppendParams) : Result (Json × String) :=
  ((appendEntryAndPersist P p).run (Tab.fresh b)).2

/-- The data after the calls of a list, one after the other. -/
def sequential (P : Platform) (b : Browser) (cs : List AppendParams) : Browser :=
  cs.foldl (after P) b

/-- The calls for `w`, in order. -/
def callsFor (w : WalletPubKey) (cs : List AppendParams) : List AppendParams :=
  cs.filter fun p => trim p.walletPubKey = w.val

theorem after_eq (b : Browser) (p : AppendParams) : after P b p = ((appendCode P p).run b).1 := by
  cases h : appendChecks p with
  | ok u => rw [after, run_appendEntryAndPersist_data (P := P) h (Tab.fresh b), appendCode_ok h]; rfl
  | error e => rw [after, appendEntryAndPersist_error h, appendCode_error h]; rfl

theorem outcome_eq (b : Browser) (p : AppendParams) :
    outcome P b p = ((appendCode P p).run b).2 := by
  cases h : appendChecks p with
  | ok u => rw [outcome, run_appendEntryAndPersist_result (P := P) h (Tab.fresh b), appendCode_ok h]; rfl
  | error e => rw [outcome, appendEntryAndPersist_error h, appendCode_error h]; rfl

theorem after_error {b : Browser} {p : AppendParams} {e : JsError} (h : appendChecks p = .error e) :
    after P b p = b := by
  rw [after_eq, appendCode_error h, Task.run_done]

theorem outcome_error {b : Browser} {p : AppendParams} {e : JsError}
    (h : appendChecks p = .error e) : outcome P b p = .error e := by
  rw [outcome_eq, appendCode_error h, Task.run_done]

theorem sequential_concat (b : Browser) (cs : List AppendParams) (p : AppendParams) :
    sequential P b (cs ++ [p]) = after P (sequential P b cs) p := by
  simp [sequential]

/-- The calls that take no mutex make no difference. -/
theorem sequential_callsFor (w : WalletPubKey) (b : Browser) (cs : List AppendParams) :
    sequential P b (callsFor w cs) = sequential P b (queued appendLock w.val cs) := by
  induction cs using List.reverseRecOn with
  | nil => simp [callsFor, queued]
  | append_singleton cs p ih =>
    rw [queued_append, callsFor, List.filter_append, ← callsFor, List.filter_singleton]
    by_cases hw : trim p.walletPubKey = w.val
    · cases h : appendChecks p with
      | ok u => simp [hw, appendLock_ok h, sequential_concat, ih]
      | error e => simp [hw, appendLock_error h, sequential_concat, after_error h, ih]
    · simp [hw, appendLock_ne hw, ih]

/-! ### The discipline of appends -/

/-- An append counts on the pointer of its own wallet and keeps the others. When no append of a
wallet is under way, its pointer is as the earlier appends, run one after the other, have left
it. -/
def appendDiscipline (P : Platform) (b : Browser) :
    Discipline AppendParams String AwaitPoint Browser JsError (Json × String) where
  rely l d d' := ∀ w : WalletPubKey, l = some w.val → manifestCid P w d' = manifestCid P w d
  guar l d d' := ∀ w : WalletPubKey, l ≠ some w.val → manifestCid P w d' = manifestCid P w d
  resumed _ _ _ := True
  res k cs d := ∀ w : WalletPubKey, k = w.val →
    manifestCid P w d = manifestCid P w (sequential P b cs)
  post before p r _ := r = outcome P (sequential P b before) p

/-- The call is for a wallet public key. -/
def AppendParams.ForWallet (p : AppendParams) : Prop :=
  ∃ w : WalletPubKey, trim p.walletPubKey = w.val

theorem appendDiscipline_keeps {b : Browser} {p : AppendParams} (hp : p.ForWallet)
    (before : List AppendParams) (d : Browser)
    (hres : ∀ k, appendLock p = some k → (appendDiscipline P b).res k before d) :
    (Discipline.inner appendLock (appendCode P) .exclusive p).wp
      ((appendDiscipline P b).contract appendLock p) ((appendDiscipline P b).ends appendLock before p)
      d d := by
  obtain ⟨w, hw⟩ := hp
  cases hcheck : appendChecks p with
  | error e =>
    have hl := appendLock_error hcheck
    simp only [Discipline.inner, hl, appendCode_error hcheck, Task.wp_done]
    refine ⟨fun _ _ => rfl, ?_, fun k hk => ?_⟩
    · exact (outcome_error hcheck).symm
    · rw [hl] at hk
      cases hk
  | ok u =>
    have hl := appendLock_ok hcheck
    rw [hw] at hl
    have hview : manifestCid P w d = manifestCid P w (sequential P b before) := hres _ hl w rfl
    have htask := (OnPointer.appendSection (P := P) hw).awaited .exclusive
    simp only [Discipline.inner, hl, appendCode_ok hcheck, Discipline.contract]
    refine Task.wp_mono ?_ (htask.confined.wp_run ?_ (fun _ _ _ => rfl) ?_ ?_
      (fun _ => trivial) (fun _ _ => rfl))
    · rintro r s₀ s ⟨hg, hr, hs⟩
      have hcongr := (OnPointer.appendSection (P := P) hw).confined.run_congr hview
      rw [Task.run_awaited] at hr hs
      refine ⟨hl ▸ hg, ?_, fun k hk w' hw' => ?_⟩
      · show r = outcome P (sequential P b before) p
        rw [outcome_eq, appendCode_ok hcheck, hr, hcongr.1]
      · obtain rfl : k = w.val := Option.some.inj (hk.symm.trans hl)
        obtain rfl : w = w' := WalletPubKey.val_injective hw'
        rw [sequential_concat, after_eq, appendCode_ok hcheck, hs, hcongr.2]
    · exact fun s s' h => (h w rfl).symm
    · exact fun s s' s'' h h' w' hw' => (h' w' hw').trans (h w' hw')
    · refine htask.updates.mono fun s s' h w' hw' => h w' fun hw'' => hw' ?_
      rw [hw'']

theorem appendDiscipline_sound (P : Platform) (b : Browser) :
    (appendDiscipline P b).Sound appendLock (appendCode P) .exclusive AppendParams.ForWallet where
  keeps p hp before d hres := appendDiscipline_keeps hp before d hres
  unblocked p hp := by
    obtain ⟨w, hw⟩ := hp
    cases hcheck : appendChecks p with
    | error e => rw [appendCode_error hcheck]; exact Task.NeverBlocks.done _
    | ok u => rw [appendCode_ok hcheck]; exact (OnPointer.appendSection hw).unblocked
  rely_guar l l' d d' hne hg w hw := hg w fun h => by
    rw [hne (h.trans hw.symm)] at h
    cases h
  post_guar _ _ _ _ _ _ _ hpost := hpost
  res_rely k before d d' hr hres w hw := (hr w (congrArg some hw)).trans (hres w hw)

/-! ### Rejected calls -/

/-- A call that is rejected leaves a pointer that is there as it is. -/
theorem manifestCid_after_rejected (hP : P.Lawful) {w : WalletPubKey} {b : Browser}
    {p : AppendParams} (hw : trim p.walletPubKey = w.val) (hcid : manifestCid P w b ≠ none)
    {e : JsError} (h : outcome P b p = .error e) :
    manifestCid P w (after P b p) = manifestCid P w b := by
  have hguard := (guarded_appendEntryAndPersist_iff hP hw (Tab.fresh b)).mpr
    fun _ hnone => absurd hnone hcid
  rw [outcome] at h
  rw [after]
  exact (hguard e h).1

theorem manifestCid_after_ne_none (hP : P.Lawful) {w : WalletPubKey} {b : Browser}
    {p : AppendParams} (hw : trim p.walletPubKey = w.val) (hcid : manifestCid P w b ≠ none) :
    manifestCid P w (after P b p) ≠ none := by
  cases h : outcome P b p with
  | error e => rwa [manifestCid_after_rejected hP hw hcid h]
  | ok r =>
    cases hcheck : appendChecks p with
    | error e =>
      rw [outcome_error hcheck] at h
      cases h
    | ok u =>
      rw [outcome_eq, appendCode_ok hcheck] at h
      rw [after_eq, appendCode_ok hcheck]
      have hsection := run_appendSection hP hw (hasUnlock_of_appendChecks hcheck) b
      rw [hsection] at h ⊢
      obtain ⟨cid, hdesignated, -⟩ := sectionOutcome_ok hP (Prod.ext rfl h)
      rw [hdesignated]
      simp

theorem manifestCid_sequential_ne_none (hP : P.Lawful) {w : WalletPubKey} {b : Browser}
    (hcid : manifestCid P w b ≠ none) (cs : List AppendParams) :
    manifestCid P w (sequential P b (callsFor w cs)) ≠ none := by
  induction cs using List.reverseRecOn with
  | nil => exact hcid
  | append_singleton cs p ih =>
    rw [callsFor, List.filter_append, ← callsFor, List.filter_singleton]
    by_cases hw : trim p.walletPubKey = w.val
    · simpa [hw, sequential_concat] using manifestCid_after_ne_none hP hw ih
    · simpa [hw] using ih

/-! ### Serialisability -/

/-- A tab with its calls of `appendEntryAndPersist`. -/
abbrev AppendPool := Pool AppendParams AwaitPoint WalletTab JsError (Json × String)

/-- Any number of appends, for any wallets, issued and run at any interleaving. -/
abbrev AppendRun (P : Platform) (b : Browser) (q : AppendPool) : Prop :=
  Pool.Run (appendEntryAndPersist P) (fun p _ => p.ForWallet) (fun _ _ _ => True)
    (.init (Tab.fresh b)) q

/-- The appends of `q`, begun on `b`, have the effect of each wallet's calls run one after the other
in the order in which they were issued. -/
structure Serialisable (P : Platform) (b : Browser) (q : AppendPool) : Prop where
  /-- A settled call has the outcome of its own sequential step. -/
  outcome_eq : ∀ (i : Nat) (p : AppendParams) (r : Result (Json × String)) (w : WalletPubKey),
    q.threads[i]? = some (p, .done r) → trim p.walletPubKey = w.val →
      r = outcome P (sequential P b (callsFor w (q.calls.take i))) p
  /-- The sequential step of a rejected call leaves the pointer, and so the manifest, as it is. -/
  rejected : ∀ (i : Nat) (p : AppendParams) (e : JsError) (w : WalletPubKey),
    q.threads[i]? = some (p, .done (.error e)) → trim p.walletPubKey = w.val →
      manifestCid P w (sequential P b (callsFor w (q.calls.take (i + 1)))) =
        manifestCid P w (sequential P b (callsFor w (q.calls.take i)))
  /-- When all calls have settled, each pointer is as after the wallet's calls in order. -/
  final : q.Settled → ∀ w : WalletPubKey,
    manifestCid P w q.state.data = manifestCid P w (sequential P b (callsFor w q.calls)) ∧
      ∀ sig m, Designates P w sig q.state.data m ↔
        Designates P w sig (sequential P b (callsFor w q.calls)) m
  /-- Issuing a call for another wallet changes no pointer but that wallet's. -/
  call_other : ∀ (p : AppendParams) (w : WalletPubKey), p.ForWallet → trim p.walletPubKey ≠ w.val →
    manifestCid P w (q.call (appendEntryAndPersist P) p).state.data = manifestCid P w q.state.data
  /-- Nor does resuming one. -/
  resume_other : ∀ (i : Nat) (p : AppendParams) (point : AwaitPoint) (ready : WalletTab → Bool)
    (next : Task AwaitPoint WalletTab JsError (Json × String)) (w : WalletPubKey),
    q.threads[i]? = some (p, .await point ready next) → ready q.state = true →
      trim p.walletPubKey ≠ w.val →
        manifestCid P w (q.resume i p next).state.data = manifestCid P w q.state.data
  /-- No call is stuck. -/
  progress : q.Settled ∨ q.Resumable

/-- The outcome of a call depends on the earlier calls for its wallet only. -/
theorem outcome_earlier {w : WalletPubKey} {p : AppendParams} (hw : trim p.walletPubKey = w.val)
    (b : Browser) (cs : List AppendParams) (i : Nat) :
    outcome P (sequential P b (earlier appendLock cs i p)) p =
      outcome P (sequential P b (callsFor w (cs.take i))) p := by
  cases hcheck : appendChecks p with
  | ok u =>
    have hl : appendLock p = some w.val := by rw [appendLock_ok hcheck, hw]
    rw [sequential_callsFor, earlier, hl, queued]
  | error e => rw [outcome_error hcheck, outcome_error hcheck]

theorem appendPool_inv {b : Browser} {q : AppendPool} (hrun : AppendRun P b q) :
    ∃ served active, (appendDiscipline P b).Inv appendLock (appendCode P) .previous .exclusive
      AppendParams.ForWallet q served active := by
  rw [AppendRun, appendEntryAndPersist_eq] at hrun
  exact Discipline.Inv.of_run (appendDiscipline_sound P b) (fun k w hw => rfl) hrun

/-- Whatever has run so far, the calls can be run until all have settled. -/
theorem exists_settled {b : Browser} {q : AppendPool} (hrun : AppendRun P b q) :
    ∃ q', AppendRun P b q' ∧ q'.Settled ∧ q'.calls = q.calls := by
  obtain ⟨served, active, hI⟩ := appendPool_inv hrun
  obtain ⟨q', hrun', hq'⟩ := hI.exists_settled (appendDiscipline_sound P b) fun _ _ _ => trivial
  rw [← appendEntryAndPersist_eq] at hrun'
  exact ⟨q', hrun.trans hrun', hq'⟩

/-- Concurrent appends are serialisable in call order. -/
theorem appends_serialisable (hP : P.Lawful) {b : Browser} {q : AppendPool}
    (hrun : AppendRun P b q)
    (hpresent : ∀ w : WalletPubKey, callsFor w q.calls ≠ [] → manifestCid P w b ≠ none) :
    Serialisable P b q := by
  have hS := appendDiscipline_sound P b
  obtain ⟨served, active, hI⟩ := appendPool_inv hrun
  have hout : ∀ (i : Nat) (p : AppendParams) (r : Result (Json × String)) (w : WalletPubKey),
      q.threads[i]? = some (p, .done r) → trim p.walletPubKey = w.val →
        r = outcome P (sequential P b (callsFor w (q.calls.take i))) p := by
    intro i p r w hi hw
    rw [← outcome_earlier hw]
    exact hI.post hi
  refine ⟨hout, ?_, ?_, ?_, ?_, hI.settled_or_resumable⟩
  · intro i p e w hi hw
    have hcall := Pool.calls_getElem? hi
    obtain ⟨hlt, hget⟩ := List.getElem?_eq_some_iff.mp hcall
    have hmem : p ∈ callsFor w q.calls :=
      List.mem_filter.mpr ⟨List.mem_of_getElem? hcall, by simpa using hw⟩
    have hcid := hpresent w (List.ne_nil_of_mem hmem)
    have htake : callsFor w (q.calls.take (i + 1)) = callsFor w (q.calls.take i) ++ [p] := by
      rw [List.take_add_one, hcall, callsFor, List.filter_append, ← callsFor]
      simp [hw]
    rw [htake, sequential_concat]
    exact manifestCid_after_rejected hP hw (manifestCid_sequential_ne_none hP hcid _)
      (hout i p _ w hi hw).symm
  · intro hsettled w
    have hres : manifestCid P w q.state.data =
        manifestCid P w (sequential P b (queued appendLock w.val q.calls)) :=
      hI.res_of_settled hsettled w.val w rfl
    rw [← sequential_callsFor] at hres
    exact ⟨hres, fun sig m => by rw [Designates, Designates, hres]⟩
  · intro p w hp hw
    have hguar := Discipline.call_guar .previous hS (fun l d w h => rfl) hp q
    rw [← appendEntryAndPersist_eq] at hguar
    exact hguar w (appendLock_ne hw)
  · intro i p point ready next w hi hready hw
    exact hI.resume_guar hS hi hready trivial w (appendLock_ne hw)

/-- An append and one that is rejected, issued together and run to the end. -/
theorem appends_serialisable_sample : ∃ (b : Browser) (q : AppendPool),
    AppendRun symbolic b q ∧ q.calls = [sampleAppend, blankAppend] ∧ q.Settled ∧
      Serialisable symbolic b q := by
  obtain ⟨b, hinit⟩ := exists_sample_init
  have hsample : sampleAppend.ForWallet := ⟨sampleWallet, sampleWallet.trim_val⟩
  have hblank : blankAppend.ForWallet := ⟨sampleWallet, sampleWallet.trim_val⟩
  have hissued : AppendRun symbolic b
      (((Pool.init (Tab.fresh b)).call (appendEntryAndPersist symbolic)
        sampleAppend).call (appendEntryAndPersist symbolic) blankAppend) :=
    .tail (.single (.call sampleAppend hsample)) (.call blankAppend hblank)
  obtain ⟨q, hrun, hsettled, hcalls⟩ := exists_settled hissued
  have hcalls' : q.calls = [sampleAppend, blankAppend] := by
    rw [hcalls, Pool.calls_call, Pool.calls_call, Pool.calls_init]
    rfl
  refine ⟨b, q, hrun, hcalls', hsettled, appends_serialisable symbolic_lawful hrun fun w hw => ?_⟩
  have hval : sampleWallet.val = w.val := by
    by_contra hne
    refine hw (List.filter_eq_nil_iff.mpr fun p hp => ?_)
    rw [hcalls'] at hp
    have htrim : trim p.walletPubKey = sampleWallet.val := by
      simp only [List.mem_cons, List.not_mem_nil, or_false] at hp
      rcases hp with rfl | rfl
      · exact sampleWallet.trim_val
      · exact sampleWallet.trim_val
    simpa [htrim] using hne
  obtain rfl := WalletPubKey.val_injective hval
  obtain ⟨cid, hcid, -⟩ := hinit.designates symbolic_lawful
  rw [hcid]
  simp

end SovereignJedi.Manifest
