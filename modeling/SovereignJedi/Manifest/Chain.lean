import SovereignJedi.Manifest.Concurrent

/-! The chain of a wallet's manifests. Loads and appends under one signature, one after the other,
set the pointer to an empty manifest once, and then to manifests that each extend the one before. -/

namespace SovereignJedi.Manifest

open SovereignJedi.Js SovereignJedi.Crypto SovereignJedi.Async

/-! ### Manifests that extend each other -/

/-- Two entries with different ids, and not of the same file added at the same time. -/
def DistinctEntries (e e' : Json) : Prop :=
  e.get "entryId" ≠ e'.get "entryId" ∧
    (e.get "fileCid", e.get "addedAt") ≠ (e'.get "fileCid", e'.get "addedAt")

/-- The entries of the manifest, no two of them alike. -/
def Listed (m : Json) : Prop :=
  ∃ es, m.get "entries" = some (.arr es) ∧ es.Pairwise DistinctEntries

/-- `m'` was created when `m` was, and its entries begin with those of `m`. -/
def Extends (m m' : Json) : Prop :=
  m'.get "createdAt" = m.get "createdAt" ∧ manifestEntries m <+: manifestEntries m'

/-- `x` is the entry that the append would add. -/
def AppendParams.SameAs (p : AppendParams) (x : Json) : Prop :=
  x.get "entryId" = some (.str p.entryId) ∨
    x.get "fileCid" = some (.str p.entry.fileCid) ∧ x.get "addedAt" = some (.str p.addedAt)

/-- The entry of the append is in the manifest already. -/
def AppendParams.Present (p : AppendParams) (m : Json) : Prop := ∃ x ∈ manifestEntries m, p.SameAs x

/-- `m'` extends `m` by the entry of the append at most, unless `m` has it. -/
def AppendParams.Extends (p : AppendParams) (m m' : Json) : Prop :=
  Manifest.Extends m m' ∧ (p.Present m → manifestEntries m' = manifestEntries m)

theorem Extends.refl (m : Json) : Extends m m := ⟨rfl, List.prefix_refl _⟩

theorem Extends.trans {m m' m'' : Json} (h : Extends m m') (h' : Extends m' m'') : Extends m m'' :=
  ⟨h'.1.trans h.1, h.2.trans h'.2⟩

theorem AppendParams.Extends.refl (p : AppendParams) (m : Json) : p.Extends m m :=
  ⟨Manifest.Extends.refl m, fun _ => rfl⟩

theorem AppendParams.Extends.trans {p : AppendParams} {m m' m'' : Json} (h : p.Extends m m')
    (h' : p.Extends m' m'') : p.Extends m m'' := by
  refine ⟨h.1.trans h'.1, fun hpresent => ?_⟩
  have hsame := h.2 hpresent
  exact (h'.2 (by rwa [AppendParams.Present, hsame])).trans hsame

theorem sameEntry_eq_ok {p : AppendParams} {x : Json} {same : Bool}
    (h : sameEntry p x = .ok same) : same = true ↔ p.SameAs x := by
  simp only [sameEntry, bind_eq_ok] at h
  obtain ⟨id, hid, h⟩ := h
  have hget : ∀ {k : String} {v : Value}, prop (some x) k = .ok v → x.get k = v := by
    intro k v hv
    cases x <;> simp_all [prop]
  rw [AppendParams.SameAs, hget hid, ← isStr_iff]
  cases hsame : isStr id p.entryId with
  | true =>
    rw [hsame] at h
    obtain rfl := Except.ok.inj h
    exact iff_of_true rfl (Or.inl rfl)
  | false =>
    rw [hsame] at h
    simp only [Bool.false_eq_true, if_false, bind_eq_ok, result_pure, Except.ok.injEq] at h
    obtain ⟨cid, hcid, addedAt, haddedAt, rfl⟩ := h
    rw [hget hcid, hget haddedAt, ← isStr_iff, ← isStr_iff, Bool.and_eq_true]
    simp

theorem someEntry_false {p : AppendParams} {es : List Json} (h : someEntry p es = .ok false) :
    ∀ x ∈ es, ¬ p.SameAs x := by
  induction es with
  | nil => simp
  | cons e es ih =>
    simp only [someEntry, bind_eq_ok] at h
    obtain ⟨same, hsame, h⟩ := h
    cases same with
    | true => simp at h
    | false =>
      rintro x hx his
      rcases List.mem_cons.mp hx with rfl | hx
      · exact absurd ((sameEntry_eq_ok hsame).mpr his) (by decide)
      · exact ih (by simpa using h) x hx his

theorem listed_set {m : Json} (h : Listed m) (v : Json) {k : String} (hk : k ≠ "entries") :
    Listed (m.set k v) ∧ manifestEntries (m.set k v) = manifestEntries m := by
  obtain ⟨es, hes, hdistinct⟩ := h
  have hset : (m.set k v).get "entries" = some (.arr es) := by
    rw [Json.get_set_ne (Ne.symm hk), hes]
  exact ⟨⟨es, hset, hdistinct⟩, by
    rw [manifestEntries_ok (entriesOf_eq_ok.mpr hset), manifestEntries_ok (entriesOf_eq_ok.mpr hes)]⟩

theorem distinct_newEntry {p : AppendParams} {x : Json} (h : ¬ p.SameAs x) :
    DistinctEntries x (newEntry p) := by
  have hid : (newEntry p).get "entryId" = some (.str p.entryId) := rfl
  have hcid : (newEntry p).get "fileCid" = some (.str p.entry.fileCid) := rfl
  have haddedAt : (newEntry p).get "addedAt" = some (.str p.addedAt) := rfl
  rw [AppendParams.SameAs, not_or] at h
  rw [DistinctEntries, hid, hcid, haddedAt]
  exact ⟨h.1, fun hsame => h.2 ⟨congrArg Prod.fst hsame, congrArg Prod.snd hsame⟩⟩

/-- A merge extends the manifest, and keeps its entries apart. -/
theorem mergeEntry_listed {p : AppendParams} {m m' : Json} (h : mergeEntry p m = .ok m')
    (hm : Listed m) : Listed m' ∧ p.Extends m m' := by
  simp only [mergeEntry, bind_eq_ok, require_eq_ok, exists_const, result_pure, Except.ok.injEq] at h
  obtain ⟨-, -, es, hes, dup, hdup, rfl⟩ := h
  have hget := entriesOf_eq_ok.mp hes
  cases dup with
  | true =>
    obtain ⟨hlisted, hsame⟩ := listed_set hm (.str p.env.updatedAtNow) (k := "updatedAt") (by decide)
    simp only [if_true]
    have hprefix : manifestEntries m <+:
        manifestEntries (m.set "updatedAt" (.str p.env.updatedAtNow)) :=
      hsame.symm ▸ List.prefix_refl (manifestEntries m)
    exact ⟨hlisted, ⟨Json.get_set_ne (by decide) _ _, hprefix⟩, fun _ => hsame⟩
  | false =>
    have hnone := someEntry_false hdup
    obtain ⟨es', hes', hdistinct⟩ := hm
    obtain rfl : es' = es := Json.arr.inj (Option.some.inj (hes'.symm.trans hget))
    obtain ⟨fs, rfl⟩ := Json.exists_obj_of_get hget
    have hmerged := Json.get_set_same fs "entries" (.arr (es' ++ [newEntry p]))
    have hlisted : Listed ((Json.obj fs).set "entries" (.arr (es' ++ [newEntry p]))) := by
      refine ⟨_, hmerged, List.pairwise_append.mpr ⟨hdistinct, List.pairwise_singleton .., ?_⟩⟩
      intro x hx y hy
      obtain rfl := List.mem_singleton.mp hy
      exact distinct_newEntry (hnone x hx)
    obtain ⟨hlisted', hsame⟩ :=
      listed_set hlisted (.str p.env.updatedAtNow) (k := "updatedAt") (by decide)
    have hold := manifestEntries_ok hes
    have hnew := hsame.trans (manifestEntries_ok (entriesOf_eq_ok.mpr hmerged))
    simp only [Bool.false_eq_true, if_false]
    refine ⟨hlisted', ⟨?_, ?_⟩, ?_⟩
    · rw [Json.get_set_ne (by decide), Json.get_set_ne (by decide)]
    · rw [hold, hnew]
      exact List.prefix_append ..
    · rintro ⟨x, hx, his⟩
      rw [hold] at hx
      exact absurd his (hnone x hx)

/-! ### What a call does to the pointer -/

section Pointer

variable (P : Platform) (w : WalletPubKey) (sig : Bytes)

/-- The pointer is as it was, or it is set to the first manifest, or to one that goes on from the one
before as `R` says. -/
structure Grows (R : Json → Json → Prop) (b b' : Browser) : Prop where
  first : manifestCid P w b = none →
    manifestCid P w b' = none ∨ ∃ m, Designates P w sig b' m ∧ Listed m
  next : ∀ m, Designates P w sig b m → Listed m →
    ∃ m', Designates P w sig b' m' ∧ Listed m' ∧ R m m'

/-- The manifest at the pointer: it opens under the signature, and is of version 1 for its wallet,
under an envelope of the vault root template. -/
structure ManifestAt (b : Browser) (m : Json) : Prop where
  opens : Designates P w sig b m
  version : m.get "version" = some (.num 1)
  wallet : m.get "walletPubKey" = some (.str w.val)
  listed : Listed m
  template : ∃ cid encrypted, manifestCid P w b = some cid ∧
    P.decodeBytesToJson (P.content cid) = .ok encrypted ∧
    optProp (optProp (encrypted.get "envelope") "kekDerivation") "messageTemplateId" =
      some (.str "SJ_VAULT_ROOT_V1")

/-- A call for `w` under `sig`, with whatever else it is given. -/
def Call.Under : Call → Prop
  | .load p => trim p.walletPubKey = w.val ∧ p.signatureBytes = sig
  | .append p => trim p.walletPubKey = w.val ∧ p.signatureBytes = sig

/-- The data that are seen while calls are made one after the other, from those before the first. -/
def manifestHistory (calls : List Call) (s : WalletTab) : List Browser :=
  s.data :: (history (Call.body P) calls s).map Tab.data

/-- The manifests that the pointer designates in the history of these calls: each is as it should be,
each extends all before it, and an append of an entry that is there leaves the entries as they
are. -/
structure ManifestChain (calls : List Call) (s : WalletTab) : Prop where
  valid : ∀ b ∈ manifestHistory P calls s,
    manifestCid P w b = none ∨ ∃ m, ManifestAt P w sig b m
  extends_earlier : (manifestHistory P calls s).Pairwise fun b b' =>
    ∀ m, Designates P w sig b m → ∃ m', Designates P w sig b' m' ∧ Extends m m'
  append_again : ∀ before p after, calls = before ++ .append p :: after →
    ∀ m, Designates P w sig (afterCalls (Call.body P) before s).data m → p.Present m →
      ∀ b ∈ manifestHistory P [.append p] (afterCalls (Call.body P) before s),
        ∃ m', Designates P w sig b m' ∧ manifestEntries m' = manifestEntries m

end Pointer

variable {P : Platform} {w : WalletPubKey} {sig : Bytes} {R : Json → Json → Prop}

theorem Designates.unique {b : Browser} {m m' : Json} (h : Designates P w sig b m)
    (h' : Designates P w sig b m') : m = m' := by
  obtain ⟨cid, hcid, hopen⟩ := h
  obtain ⟨cid', hcid', hopen'⟩ := h'
  obtain rfl := Option.some.inj (hcid.symm.trans hcid')
  exact Except.ok.inj (hopen.symm.trans hopen')

theorem not_designates {b : Browser} {m : Json} (hb : manifestCid P w b = none) :
    ¬ Designates P w sig b m := by
  rintro ⟨cid, hcid, -⟩
  rw [hb] at hcid
  cases hcid

/-- What opens names the template of the vault root. -/
theorem unwrapManifestKey_template {encrypted : Json} {key : Bytes} {walletPubKey : String}
    (h : unwrapManifestKey P encrypted walletPubKey sig = .ok key) :
    optProp (optProp (encrypted.get "envelope") "kekDerivation") "messageTemplateId" =
      some (.str "SJ_VAULT_ROOT_V1") := by
  simp only [unwrapManifestKey, bind_eq_ok, require_eq_ok, exists_const] at h
  obtain ⟨env, henv, -, -, -, htemplate, -⟩ := h
  have hget : encrypted.get "envelope" = env := by
    cases encrypted <;> simp_all [prop]
  rw [hget]
  have hstr := isStr_iff.mp htemplate
  cases htpl : optProp (optProp env "kekDerivation") "messageTemplateId" with
  | none => simp [htpl, orElse] at hstr
  | some tpl => cases tpl <;> simp_all [orElse]

theorem Designates.manifestAt (hP : P.Lawful) {b : Browser} {m : Json} (h : Designates P w sig b m)
    (hm : Listed m) : ManifestAt P w sig b m := by
  obtain ⟨cid, hcid, hopen⟩ := h
  have hmanifest := openManifest_isManifest hP hopen
  refine ⟨⟨cid, hcid, hopen⟩, hmanifest.version, hmanifest.wallet, hm, ?_⟩
  simp only [openManifest, bind_eq_ok] at hopen
  obtain ⟨encrypted, hparse, key, hkey, -⟩ := hopen
  exact ⟨cid, encrypted, hcid, hparse, unwrapManifestKey_template hkey⟩

theorem Grows.of_manifestCid_eq (hR : ∀ m, R m m) {b b' : Browser}
    (h : manifestCid P w b' = manifestCid P w b) : Grows P w sig R b b' where
  first hb := Or.inl (h.trans hb)
  next m hm hlisted := by
    obtain ⟨cid, hcid, hopen⟩ := hm
    exact ⟨m, ⟨cid, h.trans hcid, hopen⟩, hlisted, hR m⟩

theorem Grows.trans (hR : ∀ m m' m'', R m m' → R m' m'' → R m m'') {b b' b'' : Browser}
    (h : Grows P w sig R b b') (h' : Grows P w sig R b' b'') : Grows P w sig R b b'' where
  first hb := by
    rcases h.first hb with hnone | ⟨m, hm, hlisted⟩
    · exact h'.first hnone
    · obtain ⟨m', hm', hlisted', -⟩ := h'.next m hm hlisted
      exact Or.inr ⟨m', hm', hlisted'⟩
  next m hm hlisted := by
    obtain ⟨m', hm', hlisted', hr⟩ := h.next m hm hlisted
    obtain ⟨m'', hm'', hlisted'', hr'⟩ := h'.next m' hm' hlisted'
    exact ⟨m'', hm'', hlisted'', hR m m' m'' hr hr'⟩

theorem grows_created (hP : P.Lawful) {p : LoadParams} (hsig : p.signatureBytes = sig)
    {bytes : Bytes} (hseal : sealEmpty P w.val p = .ok bytes) {b : Browser}
    (hb : manifestCid P w b = none) : Grows P w sig R b (b.stored P w bytes) where
  first _ := by
    refine Or.inr ⟨_, Designates.stored hP (hsig ▸ openManifest_sealEmpty hP hseal) b, [], rfl, ?_⟩
    exact List.Pairwise.nil
  next m hm _ := absurd hm (not_designates hb)

theorem grows_appended (hP : P.Lawful) {p : AppendParams}
    (hR : ∀ m m', mergeEntry p m = .ok m' → Listed m → R m m') {cid : String} {m m' : Json}
    {bytes : Bytes} (hopen : openManifest P w.val sig (P.content cid) = .ok m)
    (hmerge : mergeEntry p m = .ok m') (hopen' : openManifest P w.val sig bytes = .ok m')
    {b : Browser} (hb : manifestCid P w b = some cid) : Grows P w sig R b (b.stored P w bytes) where
  first hnone := by
    rw [hb] at hnone
    cases hnone
  next m₀ hm₀ hlisted := by
    obtain rfl := hm₀.unique ⟨cid, hb, hopen⟩
    exact ⟨m', Designates.stored hP hopen' b, (mergeEntry_listed hmerge hlisted).1,
      hR m₀ m' hmerge hlisted⟩

/-! ### Calls -/

section Calls

variable (hP : P.Lawful) (hrefl : ∀ m, R m m) {b₀ b : Browser}

include hP hrefl

theorem wp_load_grows {p : LoadParams} (hw : trim p.walletPubKey = w.val)
    (hsig : p.signatureBytes = sig) {Q : Result LoadResult → Browser → Browser → Prop}
    (hQ : ∀ r b₀ b, Grows P w sig R b₀ b → Q r b₀ b) (h₀ : Grows P w sig R b₀ b)
    (h₁ : Grows P w sig R b₀ (b.migrated P w)) :
    (loadManifestOrInit P p).wp (.alone (Grows P w sig R)) Q b₀ b := by
  have hsame : ∀ b, Grows P w sig R b b := fun b => .of_manifestCid_eq hrefl rfl
  -- nobody else sets the pointer while the call is suspended
  refine wp_loadManifestOrInit (I := fun b' => manifestCid P w b' = manifestCid P w b) hP
    (Contract.alone_stable _ _) hsame hw (fun _ => trivial) (fun e b₀ b h _ => hQ _ _ _ h) h₀ rfl h₁
    (by simp) (fun _ => hQ _ _ _ h₁) (fun m cid b' _ => hQ _ _ _ (hsame b')) ?_
  intro bytes b' hnone hseal hb' _
  exact hQ _ _ _ (grows_created hP hsig hseal (hb'.trans hnone))

/-- What follows the init of an append, in a segment that has not changed the pointer: `k` appends to
the manifest at the pointer that it is given, or fails. -/
theorem wp_appendRest_grows {p : AppendParams} (hsig : p.signatureBytes = sig)
    (hR : ∀ m m', mergeEntry p m = .ok m' → Listed m → R m m')
    (h : manifestCid P w b = manifestCid P w b₀)
    {k : Option String → ServiceTask (Json × String)}
    (hsome : ∀ cid, k (some cid) = appendTo P p w.val cid) (hnone : ∃ e, k none = .done (.error e)) :
    ((readManifestCid P w.val).bind k).wp (.alone (Grows P w sig R)) (fun _ => Grows P w sig R)
      b₀ b := by
  have hsame : ∀ b, Grows P w sig R b b := fun b => .of_manifestCid_eq hrefl rfl
  have hmigrated : Grows P w sig R b₀ (b.migrated P w) :=
    .of_manifestCid_eq hrefl ((manifestCid_migrated w w b).trans h)
  refine wp_readManifestCid_bind ?_
  cases hcid : manifestCid P w b with
  | none =>
    obtain ⟨e, he⟩ := hnone
    rw [he]
    exact (Task.wp_done ..).mpr hmigrated
  | some cid =>
    rw [hsome]
    refine wp_appendTo (I := fun b' => manifestCid P w b' = some cid) hP
      (Contract.alone_stable _ _) hsame (fun _ => trivial) (fun _ _ _ hg _ => hg) hmigrated
      (by simp [hcid]) fun m m' bytes b' hopen hmerge hopen' hb' => ?_
    exact grows_appended hP hR (hsig ▸ hopen) hmerge (hsig ▸ hopen') hb'

theorem wp_appendSection_grows {p : AppendParams} (hw : trim p.walletPubKey = w.val)
    (hsig : p.signatureBytes = sig) (hR : ∀ m m', mergeEntry p m = .ok m' → Listed m → R m m')
    (b : Browser) :
    (appendSection P p).wp (.alone (Grows P w sig R)) (fun _ => Grows P w sig R) b b := by
  have hsame : ∀ b, Grows P w sig R b b := fun b => .of_manifestCid_eq hrefl rfl
  have hmigrated : Grows P w sig R b (b.migrated P w) :=
    .of_manifestCid_eq hrefl (manifestCid_migrated ..)
  rw [appendSection, hw]
  refine wp_readManifestCid_bind ?_
  cases hcid : manifestCid P w b with
  | some cid =>
    exact wp_appendRest_grows hP hrefl hsig hR (manifestCid_migrated ..) (fun _ => rfl) ⟨_, rfl⟩
  | none =>
    simp only [ensureManifest, Task.bind_def, Task.bind_bind]
    refine Task.wp_bind.mpr (Task.wp_awaited.mpr ?_)
    refine wp_load_grows hP hrefl (p := p.toInit w.val) w.trim_val hsig ?_ hmigrated
      (.of_manifestCid_eq hrefl (by simp only [manifestCid_migrated]))
    rintro r b₀ b₁ hg
    refine ⟨⟨trivial, hg⟩, fun b' hb' _ => ?_⟩
    rcases r with e | (_ | _ | _)
    · exact hsame b'
    · exact wp_appendRest_grows hP hrefl hsig hR rfl (fun _ => rfl) ⟨_, rfl⟩
    · exact wp_appendRest_grows hP hrefl hsig hR rfl (fun _ => rfl) ⟨_, rfl⟩
    · exact (Task.wp_done ..).mpr (hsame b')

/-- Each state that a call shows goes on from the one before. -/
theorem chain_call {c : Call} (hc : c.Under w sig)
    (hR : ∀ p, c = .append p → ∀ m m', mergeEntry p m = .ok m' → Listed m → R m m')
    (s : WalletTab) :
    (s.data :: ((c.body P).visited s).map Tab.data).IsChain (Grows P w sig R) := by
  have hsame : ∀ b, Grows P w sig R b b := fun b => .of_manifestCid_eq hrefl rfl
  cases c with
  | load p =>
    obtain ⟨hw, hsig⟩ := hc
    have hload : ((onData (loadManifestOrInit P p) : Task AwaitPoint WalletTab JsError
        LoadResult).visited s).map Tab.data = (loadManifestOrInit P p).visited s.data :=
      Task.map_visited_zoom (fun d s => Tab.setData_data s d) _ s
    rw [Call.body, Task.visited_map, hload]
    exact Task.visited_chain (OnPointer.loadManifestOrInit hw).unblocked
      (wp_load_grows hP hrefl hw hsig (fun _ _ _ h => h) (hsame _)
        (.of_manifestCid_eq hrefl (manifestCid_migrated ..)))
  | append p =>
    obtain ⟨hw, hsig⟩ := hc
    rw [Call.body, Task.visited_map]
    cases hcheck : appendChecks p with
    | error e =>
      rw [appendEntryAndPersist_error hcheck]
      exact List.isChain_pair.mpr (hsame _)
    | ok u =>
      rw [appendEntryAndPersist_ok hcheck]
      exact chain_runExclusive hsame _ _ _ (Task.visited_chain
        (OnPointer.appendSection hw).unblocked
        (wp_appendSection_grows hP hrefl hw hsig (hR p rfl) s.data))

end Calls

/-- Whatever is seen later goes on from what was seen before. -/
theorem pairwise_grows (hP : P.Lawful) (hrefl : ∀ m, R m m)
    (htrans : ∀ m m' m'', R m m' → R m' m'' → R m m'') {calls : List Call}
    (hcalls : ∀ c ∈ calls, c.Under w sig)
    (hR : ∀ p, .append p ∈ calls → ∀ m m', mergeEntry p m = .ok m' → Listed m → R m m')
    (s : WalletTab) : (manifestHistory P calls s).Pairwise (Grows P w sig R) := by
  have htrans' : Trans (Grows P w sig R) (Grows P w sig R) (Grows P w sig R) :=
    ⟨fun h h' => h.trans htrans h'⟩
  refine List.isChain_iff_pairwise.mp (history_chain (fun c hc s => ?_) s)
  exact chain_call hP hrefl (hcalls c hc) (fun p hp => hR p (hp ▸ hc)) s

theorem valid_history (hP : P.Lawful) {calls : List Call} (hcalls : ∀ c ∈ calls, c.Under w sig)
    {s : WalletTab} (hs : manifestCid P w s.data = none) :
    ∀ b ∈ manifestHistory P calls s, manifestCid P w b = none ∨ ∃ m, ManifestAt P w sig b m := by
  intro b hb
  have hgrows := pairwise_grows hP (R := fun _ _ => True) (fun _ => trivial)
    (fun _ _ _ _ _ => trivial) hcalls (fun _ _ _ _ _ _ => trivial) s
  rcases List.mem_cons.mp hb with rfl | hb
  · exact Or.inl hs
  · refine (((List.pairwise_cons.mp hgrows).1 b hb).first hs).imp_right ?_
    rintro ⟨m, hm, hlisted⟩
    exact ⟨m, hm.manifestAt hP hlisted⟩

/-- What the pointer designates in the history is listed. -/
theorem Designates.listed {b : Browser} {m : Json} (h : Designates P w sig b m)
    (hvalid : manifestCid P w b = none ∨ ∃ m, ManifestAt P w sig b m) : Listed m := by
  rcases hvalid with hnone | ⟨m', hm'⟩
  · exact absurd h (not_designates hnone)
  · obtain rfl := h.unique hm'.opens
    exact hm'.listed

/-- Loads and appends for a wallet under one signature, one after the other from no pointer, make a
chain of manifests. -/
theorem manifest_chain (hP : P.Lawful) {calls : List Call} (hcalls : ∀ c ∈ calls, c.Under w sig)
    {b : Browser} (hb : manifestCid P w b = none) :
    ManifestChain P w sig calls (Tab.fresh b) := by
  have hvalid := valid_history hP hcalls (s := Tab.fresh b) hb
  refine ⟨hvalid, ?_, ?_⟩
  · refine (pairwise_grows hP Extends.refl (fun _ _ _ => Extends.trans) hcalls
      (fun p _ m m' h hm => (mergeEntry_listed h hm).2.1) _).imp_of_mem ?_
    intro b₁ b₂ hb₁ _ hgrows m hm
    obtain ⟨m', hm', -, hextends⟩ := hgrows.next m hm (hm.listed (hvalid b₁ hb₁))
    exact ⟨m', hm', hextends⟩
  · rintro before p after rfl m hm hpresent b' hb'
    have hbefore : ∀ c ∈ before, c.Under w sig := fun c hc => hcalls c (List.mem_append_left _ hc)
    have hp : ∀ c ∈ [Call.append p], c.Under w sig := by
      intro c hc
      obtain rfl := List.mem_singleton.mp hc
      exact hcalls _ (by simp)
    have hlisted : Listed m := hm.listed (valid_history hP hbefore (s := Tab.fresh b) hb _
      (List.mem_map_of_mem (f := Tab.data) (afterCalls_mem before (Tab.fresh b))))
    have hgrows := pairwise_grows hP (AppendParams.Extends.refl p)
      (fun _ _ _ => AppendParams.Extends.trans) hp (fun p' hp' m m' h hm => by
        obtain rfl := Call.append.inj (List.mem_singleton.mp hp')
        exact (mergeEntry_listed h hm).2) (afterCalls (Call.body P) before (Tab.fresh b))
    rcases List.mem_cons.mp hb' with rfl | hb'
    · exact ⟨m, hm, rfl⟩
    · obtain ⟨m', hm', -, hextends⟩ :=
        ((List.pairwise_cons.mp hgrows).1 b' hb').next m hm hlisted
      exact ⟨m', hm', hextends.2 hpresent⟩

/-- An init and an append that succeed. -/
theorem designates_after (hP : P.Lawful) {p : LoadParams} {q : AppendParams} {b : Browser} {m : Json}
    (hp : (Call.load p).Under w sig) (hq : (Call.append q).Under w sig)
    (hunlock : hasUnlock p.unlock = true) (hchecks : appendChecks q = .ok ())
    (hfault : p.env.fault.NoneOf initSteps) (hfault' : q.env.fault.NoneOf appendSteps)
    (hcid : manifestCid P w b = none) (hchain : onChainHead p.onChainLatestManifestCid = false)
    (hmerge : mergeEntry q (emptyManifest w.val p.env.nowIso) = .ok m) :
    Designates P w sig
      (afterCalls (Call.body P) [.load p, .append q] (Tab.fresh b)).data m := by
  obtain ⟨b', cid, hload⟩ := run_load_creates hP hp.1 hunlock hfault hcid hchain
  have hinit : Persisted P w sig b' (emptyManifest w.val p.env.nowIso) := .init hp.1 hp.2 hload
  obtain ⟨s', cid', happend⟩ := run_append_succeeds (s := Tab.setData b' (Tab.fresh b)) hP hchecks
    hq.1 hfault' (hq.2 ▸ hinit.designates hP) hmerge
  have hbody : ((Call.body P (.load p)).run (Tab.fresh b)).1 = Tab.setData b' (Tab.fresh b) := by
    rw [Call.body, Task.run_map, run_onData, Tab.fresh_data, hload]
  have hbody' : ((Call.body P (.append q)).run (Tab.setData b' (Tab.fresh b))).1 = s' := by
    rw [Call.body, Task.run_map, happend]
  rw [afterCalls, List.foldl_cons, List.foldl_cons, List.foldl_nil, hbody, hbody']
  exact (Persisted.append (s := Tab.setData b' (Tab.fresh b)) hinit hq.1 hq.2 happend).designates hP

/-- An init and two appends of the same entry. -/
theorem manifest_chain_sample :
    Designates symbolic sampleWallet sampleSignature (afterCalls (Call.body symbolic)
      [.load sampleLoad, .append sampleAppend] (Tab.fresh emptyBrowser)).data sampleManifest ∧
    sampleAppend.Present sampleManifest ∧
    ManifestChain symbolic sampleWallet sampleSignature
      [.load sampleLoad, .append sampleAppend, .append sampleAppend] (Tab.fresh emptyBrowser) := by
  have hload : (Call.load sampleLoad).Under sampleWallet sampleSignature :=
    ⟨sampleWallet.trim_val, rfl⟩
  have happend : (Call.append sampleAppend).Under sampleWallet sampleSignature :=
    ⟨sampleWallet.trim_val, rfl⟩
  have hcid : manifestCid symbolic sampleWallet emptyBrowser = none := rfl
  refine ⟨designates_after symbolic_lawful hload happend rfl (appendChecks_ok happend.1 rfl)
    (fun _ _ => rfl) (fun _ _ => rfl) hcid rfl
    (show mergeEntry sampleAppend _ = .ok sampleManifest from rfl), ?_, ?_⟩
  · exact ⟨newEntry sampleAppend, List.mem_singleton_self _, Or.inl rfl⟩
  · refine manifest_chain symbolic_lawful ?_ hcid
    simp only [List.forall_mem_cons, List.not_mem_nil, false_implies, implies_true, and_true]
    exact ⟨hload, happend, happend⟩

end SovereignJedi.Manifest
