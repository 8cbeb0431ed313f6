import SovereignJedi.Manifest.Bounded

/-! Loads and appends for one wallet in one tab. The appends exclude each other, but a load that
found no pointer creates its manifest outside the mutex, and may set the pointer to it after an
append has stored an entry. Unless a load does so, no entry of a resolved append is ever lost. -/

namespace SovereignJedi.Manifest

open SovereignJedi.Js SovereignJedi.Crypto SovereignJedi.Async

variable {P : Platform} {w : WalletPubKey}

/-! ### Entries held by the pointer -/

def manifestEntries (m : Json) : List Json :=
  match entriesOf m with
  | .ok es => es
  | .error _ => []

/-- The manifest that the pointer designates contains `x`. -/
def Holds (P : Platform) (w : WalletPubKey) (b : Browser) (x : Json) : Prop :=
  ∃ sig m, Designates P w sig b m ∧ x ∈ manifestEntries m

def HoldsNothing (P : Platform) (w : WalletPubKey) (b : Browser) : Prop := ∀ x, ¬ Holds P w b x

/-- No entry is lost. -/
def Keeps (P : Platform) (w : WalletPubKey) (b b' : Browser) : Prop :=
  ∀ x, Holds P w b x → Holds P w b' x

/-- `x` is the entry that the append adds, or one that it takes for it. -/
def AppendParams.Added (p : AppendParams) (x : Json) : Prop :=
  x = newEntry p ∨ sameEntry p x = .ok true

theorem manifestEntries_ok {m : Json} {es : List Json} (h : entriesOf m = .ok es) :
    manifestEntries m = es := by rw [manifestEntries, h]

@[simp] theorem manifestEntries_emptyManifest (walletPubKey createdAt : String) :
    manifestEntries (emptyManifest walletPubKey createdAt) = [] := rfl

theorem Keeps.refl (b : Browser) : Keeps P w b b := fun _ h => h

theorem Keeps.trans {b b' b'' : Browser} (h : Keeps P w b b') (h' : Keeps P w b' b'') :
    Keeps P w b b'' := fun x hx => h' x (h x hx)

theorem keeps_of_manifestCid_eq {b b' : Browser} (h : manifestCid P w b' = manifestCid P w b) :
    Keeps P w b b' := by
  rintro x ⟨sig, m, ⟨cid, hcid, hopen⟩, hx⟩
  exact ⟨sig, m, ⟨cid, h.trans hcid, hopen⟩, hx⟩

theorem holdsNothing_of_none {b : Browser} (h : manifestCid P w b = none) : HoldsNothing P w b := by
  rintro x ⟨sig, m, ⟨cid, hcid, -⟩, -⟩
  rw [h] at hcid
  cases hcid

theorem holds_stored (hP : P.Lawful) {sig bytes : Bytes} {m x : Json}
    (hopen : openManifest P w.val sig bytes = .ok m) (hx : x ∈ manifestEntries m) (b : Browser) :
    Holds P w (b.stored P w bytes) x :=
  ⟨sig, m, Designates.stored hP hopen b, hx⟩

/-- What a stored object holds are the entries of the one manifest that it opens to. -/
theorem mem_of_holds_stored (hP : P.Lawful) (hA : P.IdealAead) {sig bytes : Bytes} {m x : Json}
    (hopen : openManifest P w.val sig bytes = .ok m) {b : Browser}
    (h : Holds P w (b.stored P w bytes) x) : x ∈ manifestEntries m := by
  obtain ⟨sig', m', ⟨cid, hcid, hopen'⟩, hx⟩ := h
  rw [manifestCid_stored_same hP] at hcid
  obtain rfl := Option.some.inj hcid
  rw [hP.content_cidOf] at hopen'
  exact openManifest_unique hA hopen hopen' ▸ hx

theorem holdsNothing_stored_empty (hP : P.Lawful) (hA : P.IdealAead) {p : LoadParams}
    {bytes : Bytes} (h : sealEmpty P w.val p = .ok bytes) (b : Browser) :
    HoldsNothing P w (b.stored P w bytes) := fun x hx => by
  simpa using mem_of_holds_stored hP hA (openManifest_sealEmpty hP h) hx

theorem DesignatesEmpty.holdsNothing (hA : P.IdealAead) {b : Browser} (h : DesignatesEmpty P w b) :
    HoldsNothing P w b := by
  obtain ⟨sig, m, ⟨cid, hcid, hopen⟩, hempty⟩ := h
  rintro x ⟨sig', m', ⟨cid', hcid', hopen'⟩, hx⟩
  obtain rfl := Option.some.inj (hcid.symm.trans hcid')
  obtain rfl := openManifest_unique hA hopen hopen'
  rw [manifestEntries_ok hempty] at hx
  cases hx

theorem exists_sameEntry {p : AppendParams} {es : List Json} (h : someEntry p es = .ok true) :
    ∃ x ∈ es, sameEntry p x = .ok true := by
  induction es with
  | nil => simp [someEntry] at h
  | cons e es ih =>
    simp only [someEntry, bind_eq_ok] at h
    obtain ⟨same, hsame, h⟩ := h
    cases same with
    | true => exact ⟨e, List.mem_cons_self, hsame⟩
    | false =>
      obtain ⟨x, hx, hx'⟩ := ih (by simpa using h)
      exact ⟨x, List.mem_cons_of_mem e hx, hx'⟩

/-- Merging keeps the entries that are there, and ends with the call's own entry among them. -/
theorem mergeEntry_entries {p : AppendParams} {m m' : Json} (h : mergeEntry p m = .ok m') :
    (∀ x ∈ manifestEntries m, x ∈ manifestEntries m') ∧ ∃ x ∈ manifestEntries m', p.Added x := by
  simp only [mergeEntry, bind_eq_ok, require_eq_ok, exists_const, result_pure, Except.ok.injEq] at h
  obtain ⟨-, -, es, hes, dup, hdup, rfl⟩ := h
  have hget : ∀ (j : Json) (es' : List Json), j.get "entries" = some (.arr es') →
      manifestEntries (j.set "updatedAt" (.str p.env.updatedAtNow)) = es' := by
    intro j es' hj
    exact manifestEntries_ok (entriesOf_eq_ok.mpr (by rw [Json.get_set_ne (by decide), hj]))
  rw [manifestEntries_ok hes]
  cases dup with
  | true =>
    obtain ⟨x, hx, hsame⟩ := exists_sameEntry hdup
    simp only [if_true, hget m es (entriesOf_eq_ok.mp hes)]
    exact ⟨fun x hx => hx, x, hx, Or.inr hsame⟩
  | false =>
    obtain ⟨fs, rfl⟩ := Json.exists_obj_of_get (entriesOf_eq_ok.mp hes)
    have hmerged := hget _ _ (Json.get_set_same fs "entries" (.arr (es ++ [newEntry p])))
    simp only [Bool.false_eq_true, if_false, hmerged, List.mem_append, List.mem_singleton]
    exact ⟨fun x hx => Or.inl hx, newEntry p, Or.inr rfl, Or.inl rfl⟩

/-! ### Appends -/

/-- The pointer is as before, or it holds nothing now and was replaced where `I` held. -/
def SameOrEmpty (P : Platform) (w : WalletPubKey) (I : Browser → Prop) (b b' : Browser) : Prop :=
  manifestCid P w b' = manifestCid P w b ∨ I b ∧ HoldsNothing P w b'

theorem SameOrEmpty.keeps {I : Browser → Prop} (hI : ∀ b, I b → HoldsNothing P w b) {b b' : Browser}
    (h : SameOrEmpty P w I b b') : Keeps P w b b' := by
  rcases h with h | ⟨h, -⟩
  · exact keeps_of_manifestCid_eq h
  · exact fun x hx => absurd hx (hI b h x)

/-- The pointer is as before, or it holds nothing now. -/
def SameOrCleared (P : Platform) (w : WalletPubKey) (b b' : Browser) : Prop :=
  manifestCid P w b' = manifestCid P w b ∨ HoldsNothing P w b'

theorem SameOrEmpty.cleared {I : Browser → Prop} {b b' : Browser} (h : SameOrEmpty P w I b b') :
    SameOrCleared P w b b' := h.imp_right And.right

theorem SameOrCleared.holdsNothing {b b' : Browser} (h : SameOrCleared P w b b')
    (hb : HoldsNothing P w b) : HoldsNothing P w b' := by
  rcases h with h | h
  · exact fun x hx => hb x (keeps_of_manifestCid_eq h.symm x hx)
  · exact h

/-- No other entries are held than those of the manifest at `cid`. -/
def HeldAt (P : Platform) (w : WalletPubKey) (cid : String) (b : Browser) : Prop :=
  ∀ x, Holds P w b x → ∃ sig m, openManifest P w.val sig (P.content cid) = .ok m ∧
    x ∈ manifestEntries m

section Append

variable {K : Contract AwaitPoint Browser} {p : AppendParams}
  {Q : Result (Json × String) → Browser → Browser → Prop} {b₀ b : Browser}

theorem holdsNothing_stable (hrely : ∀ b b', K.rely b b' → SameOrCleared P w b b') :
    K.Stable (HoldsNothing P w) := fun b b' hr hb => (hrely b b' hr).holdsNothing hb

theorem heldAt_stable (hrely : ∀ b b', K.rely b b' → SameOrCleared P w b b') (cid : String) :
    K.Stable (HeldAt P w cid) := by
  rintro b b' hr hb x hx
  rcases hrely b b' hr with h | h
  · exact hb x (keeps_of_manifestCid_eq h.symm x hx)
  · exact absurd hx (h x)

theorem heldAt_of_manifestCid {cid : String} (h : manifestCid P w b = some cid) :
    HeldAt P w cid b := by
  rintro x ⟨sig, m, ⟨cid', hcid', hopen⟩, hx⟩
  obtain rfl := Option.some.inj (h.symm.trans hcid')
  exact ⟨sig, m, hopen, hx⟩

/-- An append on the manifest at `cid` adds its entry to what the pointer holds. -/
theorem wp_appendTo_held (hP : P.Lawful) (hA : P.IdealAead)
    (hrely : ∀ b b', K.rely b b' → SameOrCleared P w b b') (hrefl : ∀ b, K.guar b b)
    (hs : ∀ pt, K.suspends pt) (hfail : ∀ e b₀ b, K.guar b₀ b → Q (.error e) b₀ b)
    (hok : ∀ r b b' x, Keeps P w b b' → p.Added x → Holds P w b' x → Q (.ok r) b b') {cid : String}
    (h₀ : K.guar b₀ b) (hb : HeldAt P w cid b) : (appendTo P p w.val cid).wp K Q b₀ b := by
  refine wp_appendTo hP (heldAt_stable hrely cid) hrefl hs (fun e b₀ b h _ => hfail e b₀ b h) h₀ hb
    fun m m' bytes b' hopen hmerge hopen' hb' => ?_
  obtain ⟨hmono, x, hx, hadded⟩ := mergeEntry_entries hmerge
  refine hok _ b' _ x (fun y hy => ?_) hadded (holds_stored hP hopen' hx b')
  -- whatever is held now was in the manifest that was read
  obtain ⟨sig, m₀, hopen₀, hy⟩ := hb' y hy
  obtain rfl := openManifest_unique hA hopen hopen₀
  exact holds_stored hP hopen' (hmono y hy) b'

/-- An append up to its second read of the pointer: an init takes place where `I` holds. -/
theorem wp_ensureManifest_bind {I : Browser → Prop} (hP : P.Lawful) (hI : K.Stable I)
    (hnone : ∀ b, manifestCid P w b = none → I b)
    (hstored : ∀ bytes b, sealEmpty P w.val (p.toInit w.val) = .ok bytes → I b →
      K.guar b (b.stored P w bytes))
    (hrefl : ∀ b, K.guar b b) (hs : ∀ pt, K.suspends pt)
    (hfail : ∀ e b₀ b, K.guar b₀ b → Q (.error e) b₀ b) {cid : Option String}
    (hcid : manifestCid P w b = cid) {k : Unit → ServiceTask (Json × String)}
    (h₀ : K.guar b₀ b) (h₁ : K.guar b₀ (b.migrated P w))
    (hk : ∀ b₀ b, K.guar b₀ b → (k ()).wp K Q b₀ b) :
    ((ensureManifest P p w.val cid).bind k).wp K Q b₀ b := by
  cases cid with
  | some cid => exact hk b₀ b h₀
  | none =>
    rw [ensureManifest, Task.bind_def, Task.bind_bind]
    refine Task.wp_bind.mpr (Task.wp_awaited.mpr ?_)
    refine wp_loadManifestOrInit (p := p.toInit w.val) hP hI hrefl w.trim_val hs ?_ h₀
      (hnone b hcid) h₁ (hnone _ (by rw [manifestCid_migrated, hcid])) ?_ ?_ ?_
    · exact fun e b₀ b h _ => ⟨⟨hs _, h⟩, fun b' _ _ => hfail e b' b' (hrefl b')⟩
    · exact fun _ => ⟨⟨hs _, h₁⟩, fun b' _ _ => (Task.wp_done ..).mpr (hfail _ b' b' (hrefl b'))⟩
    · exact fun m cid b' _ => ⟨⟨hs _, hrefl b'⟩, fun b'' _ _ => hk b'' b'' (hrefl b'')⟩
    · intro bytes b' _ hseal hb' _
      exact ⟨⟨hs _, hstored bytes b' hseal hb'⟩, fun b'' _ _ => hk b'' b'' (hrefl b'')⟩

/-- An append, by its init and by what it does on the manifest that it then finds. -/
theorem wp_appendSection {I : Browser → Prop} (hP : P.Lawful) (hI : K.Stable I)
    (hnone : ∀ b, manifestCid P w b = none → I b)
    (hstored : ∀ bytes b, sealEmpty P w.val (p.toInit w.val) = .ok bytes → I b →
      K.guar b (b.stored P w bytes))
    (hrefl : ∀ b, K.guar b b) (hmigrated : ∀ b₀ b, K.guar b₀ b → K.guar b₀ (b.migrated P w))
    (hw : trim p.walletPubKey = w.val) (hs : ∀ pt, K.suspends pt)
    (hfail : ∀ e b₀ b, K.guar b₀ b → Q (.error e) b₀ b)
    (happend : ∀ cid b₀ b, K.guar b₀ b → manifestCid P w b = some cid →
      (appendTo P p w.val cid).wp K Q b₀ b) :
    (appendSection P p).wp K Q b b := by
  rw [appendSection, hw]
  refine wp_readManifestCid_bind ?_
  refine wp_ensureManifest_bind hP hI hnone hstored hrefl hs hfail (manifestCid_migrated w w b)
    (hmigrated b b (hrefl b)) (hmigrated _ _ (hmigrated b b (hrefl b))) ?_
  intro b₀ b' h₀
  refine wp_readManifestCid_bind ?_
  cases hcid : manifestCid P w b' with
  | some cid => exact happend cid b₀ _ (hmigrated _ _ h₀) ((manifestCid_migrated w w b').trans hcid)
  | none => exact (Task.wp_done ..).mpr (hfail _ _ _ (hmigrated _ _ h₀))

/-- Under what keeps the pointer, or leaves it to hold nothing, an append keeps what is held, and
adds its entry. -/
theorem wp_appendSection_held (hP : P.Lawful) (hA : P.IdealAead)
    (hrely : ∀ b b', K.rely b b' → SameOrCleared P w b b')
    (hguar : ∀ b b', K.guar b b' ↔ Keeps P w b b') (hw : trim p.walletPubKey = w.val)
    (hs : ∀ pt, K.suspends pt)
    (hfail : ∀ e b₀ b, K.guar b₀ b → Q (.error e) b₀ b)
    (hok : ∀ r b b' x, Keeps P w b b' → p.Added x → Holds P w b' x → Q (.ok r) b b') :
    (appendSection P p).wp K Q b b := by
  have hrefl : ∀ b, K.guar b b := fun b => (hguar b b).mpr (Keeps.refl b)
  have hmigrated : ∀ b₀ b, K.guar b₀ b → K.guar b₀ (b.migrated P w) := by
    intro b₀ b h
    exact (hguar _ _).mpr (((hguar _ _).mp h).trans (keeps_of_manifestCid_eq (by simp)))
  exact wp_appendSection hP (holdsNothing_stable hrely) (fun _ => holdsNothing_of_none)
    (fun bytes b _ hb => (hguar _ _).mpr fun x hx => absurd hx (hb x)) hrefl hmigrated hw hs hfail
    fun cid b₀ b h₀ hcid =>
      wp_appendTo_held hP hA hrely hrefl hs hfail hok h₀ (heldAt_of_manifestCid hcid)

end Append

/-! ### Loads and appends together -/

/-- A call of the service, and what it returns. -/
inductive Call where
  | load (p : LoadParams)
  | append (p : AppendParams)

inductive Reply where
  | load (r : LoadResult)
  | append (manifest : Json) (manifestCid : String)

def Call.body (P : Platform) : Call → Task AwaitPoint WalletTab JsError Reply
  | .load p => (onData (loadManifestOrInit P p)).map .load
  | .append p => (appendEntryAndPersist P p).map fun r => .append r.1 r.2

/-- A load takes no mutex. -/
def Call.lock : Call → Option String
  | .load _ => none
  | .append p => appendLock p

def Call.code (P : Platform) : Call → ServiceTask Reply
  | .load p => (loadManifestOrInit P p).map .load
  | .append p => (appendCode P p).map fun r => .append r.1 r.2

theorem body_eq (P : Platform) : Call.body P = exclusive Call.lock (Call.code P) .previous .exclusive := by
  funext c
  cases c with
  | load p => exact (Task.zoom_map ..).symm
  | append p =>
    rw [Call.body, appendEntryAndPersist_eq]
    unfold exclusive
    rw [Call.lock, Call.code]
    cases appendLock p with
    | none => exact (Task.zoom_map ..).symm
    | some k => exact (runExclusive_map ..).symm

/-- The wallet that a call is for, as it is given. -/
def Call.walletPubKey : Call → String
  | .load p => p.walletPubKey
  | .append p => p.walletPubKey

/-- The call is for the public key of a wallet. -/
def Call.ForWallet (c : Call) : Prop := ∃ w : WalletPubKey, trim c.walletPubKey = w.val

/-- The call is for `w`, with no on-chain head. -/
def Call.For (w : WalletPubKey) : Call → Prop
  | .load p => trim p.walletPubKey = w.val ∧ onChainHead p.onChainLatestManifestCid = false
  | .append p => trim p.walletPubKey = w.val ∧ onChainHead p.onChainLatestManifestCid = false

/-- A load whose upload succeeds, and which will then set the pointer to its new manifest, is
resumed only where the pointer holds no entries. -/
def OverwritesNothing (P : Platform) (w : WalletPubKey) : Call → AwaitPoint → Browser → Prop
  | .load p, .load .addBytes, b => p.env.fault .addBytes = none → HoldsNothing P w b
  | _, _, _ => True

theorem Call.For.trim {c : Call} (h : c.For w) : Js.trim c.walletPubKey = w.val := by
  cases c <;> exact h.1

/-- A load for `w` whose upload succeeds, and which will then set the pointer to its new manifest, is
resumed only where `I` holds. -/
def InitsWhere (w : WalletPubKey) (I : Browser → Prop) (c : Call) (pt : AwaitPoint) (b : Browser) :
    Prop :=
  ∀ p, c = .load p → trim p.walletPubKey = w.val → pt = .load .addBytes →
    p.env.fault .addBytes = none → I b

theorem OverwritesNothing.initsWhere {c : Call} {pt : AwaitPoint} {b : Browser}
    (h : OverwritesNothing P w c pt b) : InitsWhere w (HoldsNothing P w) c pt b := by
  rintro p rfl - rfl hfault
  exact h hfault

/-- The entry of a resolved append for `w` is held. -/
def EntryHeld (P : Platform) (w : WalletPubKey) (c : Call) (r : Result Reply) (b : Browser) : Prop :=
  ∀ p m cid, c = .append p → trim p.walletPubKey = w.val → r = .ok (.append m cid) →
    ∃ x, p.Added x ∧ Holds P w b x

/-- The calls for any wallets, as they bear on the pointer of `w`. An append for `w` counts on the
others to keep the pointer, or to leave it to hold nothing where `I` held, and keeps what is held
itself. -/
def callDiscipline (P : Platform) (w : WalletPubKey) (I : Browser → Prop) :
    Discipline Call String AwaitPoint Browser JsError Reply where
  rely l b b' := l = some w.val → SameOrEmpty P w I b b'
  guar l b b' := (l ≠ some w.val → SameOrEmpty P w I b b') ∧ (l = some w.val → Keeps P w b b')
  resumed := InitsWhere w I
  res _ _ _ := True
  post _ c r b := (∀ b, I b → HoldsNothing P w b) → EntryHeld P w c r b

section Discipline

variable {I : Browser → Prop}

theorem entryHeld_load (p : LoadParams) (r : Result Reply) (b : Browser) :
    EntryHeld P w (.load p) r b := by
  intro p' m cid hc
  cases hc

theorem entryHeld_error (c : Call) (e : JsError) (b : Browser) : EntryHeld P w c (.error e) b := by
  intro p m cid _ _ hr
  cases hr

theorem guar_of_same (l : Option String) {b b' : Browser}
    (h : manifestCid P w b' = manifestCid P w b) : (callDiscipline P w I).guar l b b' :=
  ⟨fun _ => Or.inl h, fun _ => keeps_of_manifestCid_eq h⟩

theorem callDiscipline_load (hP : P.Lawful) (hA : P.IdealAead) {p : LoadParams}
    (hw : trim p.walletPubKey = w.val) (before : List Call) (b : Browser) :
    ((Call.load p).code P).wp ((callDiscipline P w I).contract Call.lock (.load p))
      ((callDiscipline P w I).ends Call.lock before (.load p)) b b := by
  have hends : ∀ r b₀ b, (callDiscipline P w I).guar none b₀ b →
      (callDiscipline P w I).ends Call.lock before (.load p) r b₀ b :=
    fun r b₀ b h => ⟨h, fun _ => entryHeld_load p r b, fun _ _ => trivial⟩
  have hsame : ∀ b, (callDiscipline P w I).guar none b b := fun b => guar_of_same none rfl
  have hmigrated : (callDiscipline P w I).guar none b (b.migrated P w) :=
    guar_of_same none (manifestCid_migrated w w b)
  refine Task.wp_map.mpr (wp_loadManifestOrInit (I := fun _ => True) hP (fun _ _ _ _ => trivial)
    hsame hw (fun _ => trivial) (fun e b₀ b h _ => hends _ _ _ h) (hsame b) trivial hmigrated trivial
    (fun _ => hends _ _ _ hmigrated) (fun m cid b' _ => hends _ _ _ (hsame b')) ?_)
  intro bytes b' _ hseal _ hresumed
  have hfault := (exists_sealEmpty_iff hP w).mp ⟨bytes, hseal⟩ .addBytes (by decide)
  have hheld : I b' := hresumed p rfl hw rfl hfault
  have hnothing := holdsNothing_stored_empty hP hA hseal b'
  exact hends _ _ _ ⟨fun _ => Or.inr ⟨hheld, hnothing⟩, fun h => by cases h⟩

theorem callDiscipline_append (hP : P.Lawful) (hA : P.IdealAead) {p : AppendParams}
    (hw : trim p.walletPubKey = w.val) (before : List Call) (b : Browser) :
    (Discipline.inner Call.lock (Call.code P) .exclusive (.append p)).wp
      ((callDiscipline P w I).contract Call.lock (.append p))
      ((callDiscipline P w I).ends Call.lock before (.append p)) b b := by
  cases hcheck : appendChecks p with
  | error e =>
    have hl : Call.lock (.append p) = none := appendLock_error hcheck
    have hcode : Call.code P (.append p) = .done (.error e) := by
      rw [Call.code, appendCode_error hcheck]
      rfl
    simp only [Discipline.inner, hl, hcode, Task.wp_done]
    exact ⟨guar_of_same _ rfl, fun _ => entryHeld_error _ e b, fun _ _ => trivial⟩
  | ok u =>
    have hl : Call.lock (.append p) = some w.val := by rw [Call.lock, appendLock_ok hcheck, hw]
    have hguar : ∀ b b', ((callDiscipline P w I).contract Call.lock (.append p)).guar b b' ↔
        Keeps P w b b' := by
      intro b b'
      simp [Discipline.contract, hl, callDiscipline]
    have hends : ∀ r b₀ b, Keeps P w b₀ b → (callDiscipline P w I).post before (.append p) r b →
        (callDiscipline P w I).ends Call.lock before (.append p) r b₀ b :=
      fun r b₀ b h hpost => ⟨(hguar _ _).mpr h, hpost, fun _ _ => trivial⟩
    have hrely : ∀ b b', ((callDiscipline P w I).contract Call.lock (.append p)).rely b b' →
        SameOrEmpty P w I b b' := fun b b' h => h hl
    simp only [Discipline.inner, hl, Call.code, appendCode_ok hcheck]
    refine Task.wp_awaited.mpr (Task.wp_map.mpr (wp_appendSection_held hP hA
      (fun b b' h => (hrely b b' h).cleared) hguar hw (fun _ => trivial) ?_ ?_))
    · exact fun e b₀ b h => ⟨⟨trivial, h⟩, fun b' _ _ =>
        hends _ _ _ (Keeps.refl b') fun _ => entryHeld_error _ e b'⟩
    · intro r b₀ b₁ x hkeeps hadded hx
      refine ⟨⟨trivial, (hguar _ _).mpr hkeeps⟩, fun b' hb' _ => hends _ _ _ (Keeps.refl b') ?_⟩
      rintro hI p' m cid hc - -
      obtain rfl := Call.append.inj hc
      have hstable : ((callDiscipline P w I).contract Call.lock (.append p)).Stable
          fun b => Holds P w b x := fun b b' h => (hrely b b' h).keeps hI x
      exact ⟨x, hadded, hstable.closure hb' hx⟩

/-- A call for another wallet keeps the pointer. -/
theorem callDiscipline_other (hP : P.Lawful) {c : Call} {w' : WalletPubKey}
    (hw : trim c.walletPubKey = w'.val) (hne : w ≠ w') (before : List Call) (b : Browser) :
    (Discipline.inner Call.lock (Call.code P) .exclusive c).wp
      ((callDiscipline P w I).contract Call.lock c)
      ((callDiscipline P w I).ends Call.lock before c) b b := by
  obtain ⟨fault, hwithin⟩ : ∃ fault, (Discipline.inner Call.lock (Call.code P) .exclusive c).Within
      (pointerBounds P w' fault) none := by
    cases c with
    | load p => exact ⟨_, (code_within_pointerBounds hP hw none).map⟩
    | append p =>
      refine ⟨p.env.init.fault .addBytes, ?_⟩
      cases hcheck : appendChecks p with
      | error e =>
        simp only [Discipline.inner, Call.lock, appendLock_error hcheck, Call.code,
          appendCode_error hcheck]
        exact Task.Within.done _
      | ok u =>
        simp only [Discipline.inner, Call.lock, appendLock_ok hcheck, Call.code, appendCode_ok hcheck]
        exact (section_within_pointerBounds hP hw none).map.awaited trivial
  refine hwithin.wp (pointerBounds_composes fault) (fun _ _ _ _ => trivial) (fun _ _ => trivial)
    (fun b b' h => guar_of_same _ (h.1 w hne)) (fun r b b' h => ⟨guar_of_same _ (h.1 w hne), ?_,
      fun _ _ => trivial⟩) trivial ((pointerBounds_composes fault).refl b)
  rintro - p m cid rfl hw'
  exact absurd (WalletPubKey.val_injective (hw'.symm.trans hw)) hne

theorem callDiscipline_sound (hP : P.Lawful) (hA : P.IdealAead) (w : WalletPubKey)
    (I : Browser → Prop) :
    (callDiscipline P w I).Sound Call.lock (Call.code P) .exclusive Call.ForWallet where
  keeps c hc before b _ := by
    obtain ⟨w', hw'⟩ := hc
    by_cases hne : w = w'
    · subst hne
      cases c with
      | load p => exact callDiscipline_load hP hA hw' before b
      | append p => exact callDiscipline_append hP hA hw' before b
    · exact callDiscipline_other hP hw' hne before b
  unblocked c hc := by
    obtain ⟨w', hw'⟩ := hc
    cases c with
    | load p => exact (OnPointer.loadManifestOrInit hw').unblocked.map _
    | append p =>
      cases hcheck : appendChecks p with
      | error e =>
        rw [Call.code, appendCode_error hcheck]
        exact (Task.NeverBlocks.done _).map _
      | ok u =>
        rw [Call.code, appendCode_ok hcheck]
        exact (OnPointer.appendSection hw').unblocked.map _
  rely_guar l l' b b' hne hg hl' := by
    refine hg.1 fun hl => ?_
    cases (hne (hl.trans hl'.symm)).symm.trans hl
  post_guar l b b' before c r hg hpost hI p m cid hc hw hr := by
    obtain ⟨x, hadded, hx⟩ := hpost hI p m cid hc hw hr
    by_cases hl : l = some w.val
    · exact ⟨x, hadded, hg.2 hl x hx⟩
    · exact ⟨x, hadded, (hg.1 hl).keeps hI x hx⟩
  res_rely _ _ _ _ _ _ := trivial

end Discipline

/-! ### Runs -/

/-- A tab with its calls. -/
abbrev CallPool := Pool Call AwaitPoint WalletTab JsError Reply

/-- A turn of a tab that makes calls for any wallets, which are resumed only as `resumable` allows, and
reads pointers outside of them. -/
inductive TabStep (P : Platform) (resumable : Call → AwaitPoint → Browser → Prop) :
    CallPool → CallPool → Prop
  | turn {p q : CallPool} (h : Pool.Step (Call.body P) (fun c _ => c.ForWallet)
      (fun c point s => resumable c point s.data) p q) : TabStep P resumable p q
  | reads {p : CallPool} {b : Browser} (h : SamePointers P p.state.data b) :
      TabStep P resumable p ⟨p.state.setData b, p.threads⟩

abbrev TabRun (P : Platform) (resumable : Call → AwaitPoint → Browser → Prop) (b : Browser)
    (q : CallPool) : Prop :=
  Relation.ReflTransGen (TabStep P resumable) (.init (Tab.fresh b)) q

section Runs

variable {I : Browser → Prop} {b : Browser} {p q : CallPool}

theorem TabRun.mono {resumable resumable' : Call → AwaitPoint → Browser → Prop}
    (h : ∀ c pt b, resumable c pt b → resumable' c pt b) (hrun : TabRun P resumable b q) :
    TabRun P resumable' b q := by
  refine Relation.ReflTransGen.mono (fun p q hstep => ?_) _ _ hrun
  cases hstep with
  | turn hturn => exact .turn (hturn.mono (fun _ _ => id) fun c pt (s : WalletTab) => h c pt s.data)
  | reads hsame => exact .reads hsame

theorem TabStep.done {resumable : Call → AwaitPoint → Browser → Prop} (h : TabStep P resumable p q)
    {i : Nat} {c : Call} {r : Result Reply} (hi : p.threads[i]? = some (c, .done r)) :
    q.threads[i]? = some (c, .done r) := by
  cases h with
  | turn h => exact h.done hi
  | reads h => exact hi

theorem inv_of_tabRun (hP : P.Lawful) (hA : P.IdealAead) (hrun : TabRun P (InitsWhere w I) b q) :
    ∃ served active, (callDiscipline P w I).Inv Call.lock (Call.code P) .previous .exclusive
      Call.ForWallet q served active := by
  have hS := callDiscipline_sound hP hA w I
  induction hrun with
  | refl => exact ⟨_, _, Discipline.inv_init b fun _ => trivial⟩
  | tail _ hstep ih =>
    obtain ⟨served, active, hI⟩ := ih
    cases hstep with
    | turn h => exact hI.step hS (by rwa [← body_eq])
    | reads h => exact ⟨served, active, hI.outside hS (guar_of_same none (h w))⟩

/-- Where no load overwrites a pointer that holds entries, the entry of every append for `w` that has
resolved is held. -/
theorem entryHeld_of_tabRun (hP : P.Lawful) (hA : P.IdealAead)
    (hrun : TabRun P (InitsWhere w (HoldsNothing P w)) b q) {i : Nat} {c : Call} {r : Result Reply}
    (hi : q.threads[i]? = some (c, .done r)) : EntryHeld P w c r q.state.data := by
  obtain ⟨served, active, hI⟩ := inv_of_tabRun hP hA hrun
  exact hI.post hi fun _ => id

/-- An append that is suspended has passed its checks. -/
theorem appendLock_of_await {resumable : Call → AwaitPoint → Browser → Prop}
    (hrun : TabRun P resumable b q) {i : Nat} {a : AppendParams} {pt : AwaitPoint}
    {ready : WalletTab → Bool} {next : Task AwaitPoint WalletTab JsError Reply}
    (hi : q.threads[i]? = some (.append a, .await pt ready next)) :
    appendLock a = some (trim a.walletPubKey) := by
  induction hrun generalizing i pt ready next with
  | refl => simp [Pool.init] at hi
  | tail _ hstep ih =>
    cases hstep with
    | turn h =>
      cases h with
      | call c hc =>
        rcases Pool.getElem?_call hi with hold | ⟨-, rfl, hnew⟩
        · exact ih hold
        · cases hcheck : appendChecks a with
          | ok u => exact appendLock_ok hcheck
          | error e =>
            rw [Call.body, appendEntryAndPersist_error hcheck] at hnew
            cases hnew
      | resume j c point ready next hj hready hr =>
        rcases Pool.getElem?_resume hj hi with ⟨-, hold⟩ | ⟨-, rfl, -⟩
        · exact ih hold
        · exact ih hj
    | reads h => exact ih hi

/-- No append ever loses an entry: whatever the loads do, a turn of an append keeps what the pointer
of its wallet holds. -/
theorem append_keeps (hP : P.Lawful) (hA : P.IdealAead) (hrun : TabRun P (fun _ _ _ => True) b q)
    {i : Nat} {a : AppendParams} {pt : AwaitPoint} {ready : WalletTab → Bool}
    {next : Task AwaitPoint WalletTab JsError Reply} (hw : trim a.walletPubKey = w.val)
    (hi : q.threads[i]? = some (.append a, .await pt ready next)) (hready : ready q.state = true) :
    Keeps P w q.state.data (next.seg q.state).1.data := by
  obtain ⟨served, active, hI⟩ := inv_of_tabRun (w := w) (I := fun _ => True) hP hA
    (hrun.mono fun _ _ _ _ _ _ _ _ _ => trivial)
  have hguar := hI.resume_guar (callDiscipline_sound hP hA w _) hi hready fun _ _ _ _ _ => trivial
  have hlock : Call.lock (.append a) = some w.val := by rw [Call.lock, appendLock_of_await hrun hi, hw]
  exact hguar.2 hlock

end Runs

/-! ### Calls for one wallet -/

/-- Any number of loads and appends for `w`, with no on-chain head, issued and run at any
interleaving, except that calls are resumed only as `resumable` allows. -/
abbrev CallRun (P : Platform) (w : WalletPubKey) (resumable : Call → AwaitPoint → Browser → Prop)
    (b : Browser) (q : CallPool) : Prop :=
  Pool.Run (Call.body P) (fun c _ => c.For w) (fun c point s => resumable c point s.data)
    (.init (Tab.fresh b)) q

/-- The manifest that the pointer designates contains the entry of every append that has
resolved. -/
def NoLostEntries (P : Platform) (w : WalletPubKey) (q : CallPool) : Prop :=
  ∀ (i : Nat) (p : AppendParams) (m : Json) (cid : String),
    q.threads[i]? = some (.append p, .done (.ok (.append m cid))) →
      ∃ x, p.Added x ∧ Holds P w q.state.data x

/-- In a run in which no load overwrites a pointer that holds entries, no entry is lost. -/
theorem no_lost_entries (hP : P.Lawful) (hA : P.IdealAead) {b : Browser} {q : CallPool}
    (hrun : CallRun P w (OverwritesNothing P w) b q) : NoLostEntries P w q := by
  have htab : TabRun P (InitsWhere w (HoldsNothing P w)) b q := by
    refine Relation.ReflTransGen.mono (fun p q hstep => ?_) _ _ hrun
    exact .turn (hstep.mono (fun c _ hc => ⟨w, hc.trim⟩) fun c pt s h => h.initsWhere)
  intro i p m cid hi
  have hfor : (Call.append p).For w :=
    Pool.Run.calls hrun (by simp) _ (List.mem_of_getElem? (Pool.calls_getElem? hi))
  exact entryHeld_of_tabRun hP hA htab hi p m cid rfl hfor.1 rfl

/-! ### A load that found no pointer -/

/-- A load without a pointer is suspended first inside the init. -/
theorem seg_loadManifestOrInit_none {p : LoadParams} (hw : trim p.walletPubKey = w.val)
    (hunlock : hasUnlock p.unlock = true)
    (hchain : onChainHead p.onChainLatestManifestCid = false) {b : Browser}
    (hcid : manifestCid P w b = none) :
    (loadManifestOrInit P p).seg b = (b.migrated P w, initManifest P w.val p) := by
  have hread : (readManifestCid P w.val).seg b = (b.migrated P w, .done (.ok none)) := by
    refine Task.seg_atomically ?_
    rw [getManifestCid_val, show pointer P.cluster w b.localStorage = none from hcid]
    rfl
  simp only [loadManifestOrInit, hw, isBlank_val, hunlock, check, Bool.not_false, require_true,
    Task.bind_def, Task.done_ok_bind, Task.seg_bind_ok hread, hchain]
  rfl

theorem seg_body_load {p : LoadParams} (hw : trim p.walletPubKey = w.val)
    (hunlock : hasUnlock p.unlock = true)
    (hchain : onChainHead p.onChainLatestManifestCid = false) {b : Browser}
    (hcid : manifestCid P w b = none) :
    (Call.body P (.load p)).seg (Tab.fresh b) =
      (Tab.fresh (b.migrated P w), (onData (initManifest P w.val p)).map .load) := by
  rw [Call.body, Task.seg_map, seg_onData, Tab.fresh_data,
    seg_loadManifestOrInit_none hw hunlock hchain hcid]
  rfl

/-- What is left of such a load can run to its end, and then the pointer is set to an empty
manifest, whatever it was by then. -/
theorem exists_load_end (hP : P.Lawful) {p : LoadParams} {bytes : Bytes}
    (hseal : sealEmpty P w.val p = .ok bytes) {b : Browser} {q : CallPool} {i : Nat}
    (hrun : CallRun P w (fun _ _ _ => True) b q)
    (hi : q.threads[i]? = some (.load p, (onData (initManifest P w.val p)).map .load)) :
    ∃ r q', CallRun P w (fun _ _ _ => True) b q' ∧
      q'.state.data = q.state.data.stored P w bytes ∧
      q'.threads = q.threads.set i (.load p, .done r) := by
  have hn : ((onData (initManifest P w.val p)).map Reply.load : Task AwaitPoint WalletTab JsError
      Reply).NeverBlocks := ((OnPointer.initManifest p).unblocked.zoom _ _).map _
  have hseg : ((onData (initManifest P w.val p)).map Reply.load).seg q.state =
      (q.state, (onData (initManifest P w.val p)).map Reply.load) := rfl
  have hdrive : CallRun P w (fun _ _ _ => True) b _ :=
    hrun.trans (Pool.Run.drive (fun _ _ => trivial) hn q.state q (by rw [hseg]; exact hi))
  rw [hseg] at hdrive
  refine ⟨_, _, hdrive, ?_, rfl⟩
  rw [Task.run_map, run_onData, Tab.setData_data, run_initManifest hP, hseal]

/-- In a fresh browser the sample load is issued; while it is suspended, the sample append is issued
and runs to its end. -/
theorem exists_append_during_load (resumable : Call → AwaitPoint → Browser → Prop)
    (hr : ∀ pt b, resumable (.append sampleAppend) pt b) :
    ∃ s m cid, CallRun symbolic sampleWallet resumable emptyBrowser
      ⟨s, [(.load sampleLoad, (onData (initManifest symbolic sampleWallet.val sampleLoad)).map .load),
        (.append sampleAppend, .done (.ok (.append m cid)))]⟩ := by
  have hw : trim sampleAppend.walletPubKey = sampleWallet.val := sampleWallet.trim_val
  have hcheck : appendChecks sampleAppend = .ok () := appendChecks_ok hw rfl
  have hcid : manifestCid symbolic sampleWallet (emptyBrowser.migrated symbolic sampleWallet) = none :=
    manifestCid_migrated ..
  have hissue : CallRun symbolic sampleWallet resumable emptyBrowser
      ⟨Tab.fresh (emptyBrowser.migrated symbolic sampleWallet), [(.load sampleLoad,
        (onData (initManifest symbolic sampleWallet.val sampleLoad)).map .load)]⟩ := by
    have hstep : Pool.Step (Call.body symbolic) (fun c _ => c.For sampleWallet)
        (fun c point s => resumable c point s.data) (.init (Tab.fresh emptyBrowser))
        ((Pool.init (Tab.fresh emptyBrowser)).call (Call.body symbolic) (.load sampleLoad)) :=
      Pool.Step.call (Call.load sampleLoad) ⟨hw, rfl⟩
    have hseg := seg_body_load (P := symbolic) (w := sampleWallet) (p := sampleLoad)
      (b := emptyBrowser) hw rfl rfl rfl
    rw [Pool.call, Pool.init, hseg] at hstep
    exact .single hstep
  obtain ⟨⟨m, cid⟩, hresult⟩ := sectionOutcome_succeeds symbolic_lawful (p := sampleAppend) hcid rfl
    (fun _ _ => rfl) ⟨rfl, rfl⟩ fun _ _ => rfl
  have hcode : ((Call.code symbolic (.append sampleAppend)).run
      (emptyBrowser.migrated symbolic sampleWallet)).2 = .ok (.append m cid) := by
    rw [Call.code, appendCode_ok hcheck, Task.run_map,
      run_appendSection symbolic_lawful hw rfl, hresult]
    rfl
  have hn : (Call.code symbolic (.append sampleAppend)).NeverBlocks := by
    rw [Call.code, appendCode_ok hcheck]
    exact (OnPointer.appendSection hw).unblocked.map _
  have hlock : Call.lock (.append sampleAppend) = some sampleWallet.val := by
    rw [Call.lock, appendLock_ok hcheck, hw]
  obtain ⟨s, happend⟩ : ∃ s, Pool.Run (Call.body symbolic) (fun c _ => c.For sampleWallet)
      (fun c point s => resumable c point s.data)
      ⟨Tab.fresh (emptyBrowser.migrated symbolic sampleWallet), [(.load sampleLoad,
        (onData (initManifest symbolic sampleWallet.val sampleLoad)).map .load)]⟩
      ⟨s, [(.load sampleLoad,
        (onData (initManifest symbolic sampleWallet.val sampleLoad)).map .load),
        (.append sampleAppend, .done (.ok (.append m cid)))]⟩ := by
    rw [body_eq, ← hcode]
    exact (run_exclusive_at_once ⟨hw, rfl⟩ (fun pt s => hr pt s.data) hlock hn rfl).imp
      fun _ h => h.1
  exact ⟨s, m, cid, hissue.trans happend⟩

/-- A load and an append: as long as the load is suspended, the entry is there. -/
theorem no_lost_entries_sample : ∃ q : CallPool,
    CallRun symbolic sampleWallet (OverwritesNothing symbolic sampleWallet) emptyBrowser q ∧
      (∃ m cid, q.threads[1]? = some (.append sampleAppend, .done (.ok (.append m cid)))) ∧
      NoLostEntries symbolic sampleWallet q := by
  obtain ⟨s, m, cid, hrun⟩ := exists_append_during_load
    (OverwritesNothing symbolic sampleWallet) fun _ _ => trivial
  exact ⟨_, hrun, ⟨m, cid, rfl⟩, no_lost_entries symbolic_lawful symbolic_idealAead hrun⟩

/-- When the load goes on, it sets the pointer to its own, empty manifest. -/
theorem load_loses_entry : ¬ ∀ q : CallPool,
    CallRun symbolic sampleWallet (fun _ _ _ => True) emptyBrowser q →
      NoLostEntries symbolic sampleWallet q := by
  intro hclaim
  obtain ⟨s, m, cid, hrun⟩ := exists_append_during_load (fun _ _ _ => True) fun _ _ => trivial
  obtain ⟨bytes, hseal⟩ := (exists_sealEmpty_iff symbolic_lawful sampleWallet (p := sampleLoad)).mpr
    fun _ _ => rfl
  obtain ⟨r, q, hq, hdata, hthreads⟩ := exists_load_end symbolic_lawful hseal hrun (i := 0) rfl
  obtain ⟨x, -, hx⟩ := hclaim q hq 1 sampleAppend m cid (by rw [hthreads]; rfl)
  rw [hdata] at hx
  exact holdsNothing_stored_empty symbolic_lawful symbolic_idealAead hseal s.data x hx

end SovereignJedi.Manifest
