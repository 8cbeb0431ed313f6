import SovereignJedi.Async.Bounds
import SovereignJedi.Manifest.Rules

/-! The service's calls for a wallet within bounds. They keep the pointers of the other wallets and
never remove one; a load returns what its pointer designates; and the INIT branch is entered only
where there is neither a pointer nor an on-chain head. -/

namespace SovereignJedi.Manifest

open SovereignJedi.Js SovereignJedi.Crypto SovereignJedi.Async

variable {P : Platform} {w : WalletPubKey}

abbrev ServiceBounds := Bounds AwaitPoint Browser

/-- The bounds on the data of a tab. -/
abbrev onTab (B : ServiceBounds) : Bounds AwaitPoint WalletTab := B.onPart Tab.data

/-- The data after the wallet's pointer was set to the CID of `bytes`. -/
def Browser.pointed (P : Platform) (w : WalletPubKey) (bytes : Bytes) (b : Browser) : Browser :=
  { b with localStorage := setItem b.localStorage (scopedKey P.cluster w.val) (P.cidOf bytes) }

/-- The suspension points of the INIT branch. -/
def AwaitPoint.InInit (pt : AwaitPoint) : Prop := ∃ s ∈ initSteps, pt = .load s

/-- The bounds admit what every call for `w` does but for setting the pointer. -/
structure Admits (P : Platform) (w : WalletPubKey) (B : ServiceBounds) : Prop where
  composes : B.Composes
  migrated : ∀ p b, B.inv b → B.Allows p b (b.migrated P w)
  uploaded : ∀ p b bytes, B.inv b → B.Allows p b { b with uploads := b.uploads ++ [bytes] }
  suspends : ∀ pt : AwaitPoint, ¬ pt.InInit → B.suspends pt

/-- The bounds admit setting the pointer in a segment that was resumed at `pt`. -/
structure AdmitsStore (P : Platform) (w : WalletPubKey) (B : ServiceBounds) (pt : AwaitPoint)
    (bytes : Bytes) : Prop where
  inv : ∀ b, B.inv b → B.inv (b.pointed P w bytes)
  update : ∀ b, B.inv b → B.update b (b.pointed P w bytes)
  tentative : ∀ b, B.inv b → B.tentative (some pt) b (b.pointed P w bytes) ∨ B.commits

/-- The bounds admit the INIT branch. -/
structure AdmitsInit (P : Platform) (w : WalletPubKey) (B : ServiceBounds) (p : LoadParams) : Prop where
  suspends : ∀ s ∈ initSteps, B.suspends (.load s)
  store : ∀ bytes, sealEmpty P w.val p = .ok bytes → AdmitsStore P w B (.load .addBytes) bytes

theorem Admits.strict {B : ServiceBounds} (h : Admits P w B) : Admits P w B.strict where
  composes := ⟨h.composes.refl, h.composes.trans, h.composes.tentative_refl, h.composes.tentative_trans⟩
  migrated p b hb := ⟨(h.migrated p b hb).inv, (h.migrated p b hb).update, (h.migrated p b hb).tentative⟩
  uploaded p b bytes hb := ⟨(h.uploaded p b bytes hb).inv, (h.uploaded p b bytes hb).update,
    (h.uploaded p b bytes hb).tentative⟩
  suspends := h.suspends

/-! ### Within the bounds -/

section Within

variable {B : ServiceBounds} {q : Option AwaitPoint} {α : Type}

theorem within_readManifestCid_bind (hB : Admits P w B) {k : Option String → ServiceTask α}
    (hk : ∀ b, B.inv b → (k (manifestCid P w b)).Within B q) :
    ((readManifestCid P w.val).bind k).Within B q := by
  refine Task.Within.atomically_bind hB.composes fun b b' cid hb h => ?_
  rw [getManifestCid_val] at h
  obtain ⟨rfl, rfl⟩ : b.migrated P w = b' ∧ manifestCid P w b = cid := by
    simpa [Browser.migrated, manifestCid] using h
  have hallows := hB.migrated q b hb
  exact ⟨hallows.inv, hallows.update, hk b hb, Or.inl hallows.tentative⟩

theorem within_persist (hP : P.Lawful) (hB : Admits P w B) {point : Step → AwaitPoint} {fault : Faults}
    {draws : SealDraws} {kek manifestKey : Bytes} {manifest : Json}
    (hsuspends : ∀ s ∈ sealSteps, B.suspends (point s))
    (hstore : ∀ bytes, sealManifest P fault draws w.val kek manifestKey manifest = .ok bytes →
      AdmitsStore P w B (point .addBytes) bytes) :
    (persist P point fault draws w.val kek manifestKey manifest).Within B q := by
  refine Task.Within.op_bind (hsuspends .wrap (by decide)) fun envelope henvelope => ?_
  refine Task.Within.op_bind (hsuspends .encrypt (by decide)) fun encrypted hencrypted => ?_
  rw [addBytes, Task.bind_def, Task.bind_def, Task.bind_bind]
  refine Task.Within.op_bind (hsuspends .addBytes (by decide)) fun _ hadd => ?_
  have hseal : sealManifest P fault draws w.val kek manifestKey manifest =
      .ok (P.encodeJsonToBytes encrypted) := by
    rw [attempt_eq_ok] at hadd
    simp [sealManifest, henvelope, hencrypted, hadd.1]
  have hadmits := hstore _ hseal
  rw [Task.bind_def, Task.bind_bind]
  refine Task.Within.modify_bind (fun b hb => hB.uploaded _ b _ hb) ?_
  refine Task.Within.atomically_bind hB.composes fun b b' u hb h => ?_
  rw [setManifestCid_val P.cluster w (hP.cidOf_trim _) (hP.cidOf_ne _)] at h
  obtain rfl : b.pointed P w (P.encodeJsonToBytes encrypted) = b' := by
    simpa [Browser.pointed] using h
  refine ⟨hadmits.inv b hb, hadmits.update b hb, Task.Within.done _, ?_⟩
  exact (hadmits.tentative b hb).imp_right fun hcommits => ⟨hcommits, (Task.returns_done _).mpr ⟨_, rfl⟩⟩

theorem within_readManifest {point : Step → AwaitPoint} {fault : Faults} {signatureBytes : Bytes}
    {cid invalidJson : String} (hsuspends : ∀ s ∈ readSteps, B.suspends (point s)) :
    (readManifest P point fault w.val signatureBytes cid invalidJson).Within B q := by
  refine Task.Within.op_bind (hsuspends .catBytes (by decide)) fun bytes _ => ?_
  refine Task.Within.bind (Task.Within.done _) fun encrypted _ => ?_
  refine Task.Within.op_bind (hsuspends .unwrap (by decide)) fun manifestKey _ => ?_
  exact Task.Within.op_bind (hsuspends .decrypt (by decide)) fun manifest _ => Task.Within.done _

theorem Admits.suspends_load (hB : Admits P w B) : ∀ s ∈ readSteps, B.suspends (.load s) := by
  have hdisjoint : ∀ s ∈ readSteps, s ∉ initSteps := by decide
  refine fun s hs => hB.suspends _ fun ⟨s', hs', h⟩ => hdisjoint s hs ?_
  rwa [AwaitPoint.load.inj h]

theorem Admits.suspends_append (hB : Admits P w B) (s : Step) : B.suspends (.append s) :=
  hB.suspends _ fun ⟨_, _, h⟩ => by cases h

theorem within_loadManifest (hB : Admits P w B) (p : LoadParams) (cid : String) :
    (loadManifest P w.val p cid).Within B q :=
  Task.Within.bind (within_readManifest hB.strict.suspends_load) fun _ _ => Task.Within.done _

theorem within_initManifest (hP : P.Lawful) (hB : Admits P w B) {p : LoadParams}
    (hinit : AdmitsInit P w B p) : (initManifest P w.val p).Within B q := by
  refine Task.Within.op_bind (hinit.suspends .deriveKek (by decide)) fun kek hkek => ?_
  refine Task.Within.op_bind (hinit.suspends .deriveManifestKey (by decide)) fun key hkey => ?_
  refine Task.Within.op_bind (hinit.suspends .sodium (by decide)) fun _ hsodium => ?_
  have hseal : ∀ s ∈ sealSteps, B.suspends (.load s) := fun s h =>
    hinit.suspends s (List.mem_append_right _ h)
  refine Task.Within.bind_succeeds (within_persist hP hB hseal fun bytes h => hinit.store bytes ?_)
    (fun _ _ => Task.Within.done _) fun _ => (Task.returns_done _).mpr ⟨_, rfl⟩
  simp [sealEmpty, hkek, hkey, hsodium, h]

/-- A load is within the bounds when they admit an init wherever there is no pointer and no on-chain
head. -/
theorem within_loadManifestOrInit (hP : P.Lawful) (hB : Admits P w B) {p : LoadParams}
    (hw : trim p.walletPubKey = w.val)
    (hinit : ∀ b, B.inv b → manifestCid P w b = none →
      onChainHead p.onChainLatestManifestCid = false → AdmitsInit P w B p) :
    (loadManifestOrInit P p).Within B q := by
  rw [loadManifestOrInit, hw]
  refine Task.Within.bind (Task.Within.done _) fun _ q => ?_
  refine Task.Within.bind (Task.Within.done _) fun _ q => ?_
  refine within_readManifestCid_bind hB fun b hb => ?_
  cases hcid : manifestCid P w b with
  | some cid => exact within_loadManifest hB p cid
  | none =>
    cases hchain : onChainHead p.onChainLatestManifestCid with
    | true => exact Task.Within.done _
    | false => exact within_initManifest hP hB (hinit b hb hcid hchain)

theorem within_ensureManifest (hP : P.Lawful) (hB : Admits P w B) {p : AppendParams}
    {cid : Option String} (hinit : ∀ b, B.inv b → manifestCid P w b = none →
      onChainHead p.onChainLatestManifestCid = false → AdmitsInit P w B.strict (p.toInit w.val)) :
    (ensureManifest P p w.val cid).Within B q := by
  cases cid with
  | some cid => exact Task.Within.done _
  | none =>
    have hload : (loadManifestOrInit P (p.toInit w.val)).Within B.strict q :=
      within_loadManifestOrInit hP hB.strict w.trim_val hinit
    have hpoint : B.strict.suspends .init := hB.suspends _ fun ⟨_, _, h⟩ => by cases h
    refine Task.Within.bind (hload.awaited hpoint) fun r q => ?_
    cases r <;> exact Task.Within.done _

theorem within_appendTo (hP : P.Lawful) (hB : Admits P w B) {p : AppendParams} {cid : String}
    (hstore : ∀ bytes, AdmitsStore P w B (.append .addBytes) bytes) :
    (appendTo P p w.val cid).Within B q := by
  have hsuspends := hB.suspends_append
  refine Task.Within.bind (within_readManifest fun s _ => hsuspends s) fun (key, m) q => ?_
  refine Task.Within.bind (Task.Within.done _) fun m' q => ?_
  refine Task.Within.op_bind (hsuspends _) fun _ _ => Task.Within.op_bind (hsuspends _) fun kek _ => ?_
  exact Task.Within.bind_succeeds (within_persist hP hB (fun s _ => hsuspends s) fun bytes _ =>
    hstore bytes) (fun _ _ => Task.Within.done _) fun _ => (Task.returns_done _).mpr ⟨_, rfl⟩

theorem within_appendSection (hP : P.Lawful) (hB : Admits P w B) {p : AppendParams}
    (hw : trim p.walletPubKey = w.val)
    (hinit : ∀ b, B.inv b → manifestCid P w b = none →
      onChainHead p.onChainLatestManifestCid = false → AdmitsInit P w B.strict (p.toInit w.val))
    (hstore : ∀ bytes, AdmitsStore P w B (.append .addBytes) bytes) :
    (appendSection P p).Within B q := by
  rw [appendSection, hw]
  refine within_readManifestCid_bind hB fun b hb => ?_
  refine Task.Within.bind (within_ensureManifest hP hB.strict hinit) fun _ q => ?_
  refine within_readManifestCid_bind hB fun b _ => ?_
  cases manifestCid P w b with
  | some cid => exact within_appendTo hP hB hstore
  | none => exact Task.Within.done _

/-- Queueing and releasing leave the data as they are. -/
theorem within_runExclusive (hB : Admits P w B) {k : String} {fn : ServiceTask α}
    (hfn : ∀ q, fn.Within B q) : (runExclusive k .previous .exclusive fn : Task AwaitPoint WalletTab
      JsError α).Within (onTab B) q := by
  have hC := hB.composes
  have hmutex : ∀ (q : Option AwaitPoint) (s : WalletTab) (m : Mutex), B.inv s.data →
      (onTab B).Allows q s (s.setMutex k m) := fun q s m hs =>
    ⟨hs, hC.refl s.data, hC.tentative_refl q s.data⟩
  have hsection : ∀ n q, (section_ k n (fn.awaited .exclusive)).Within (onTab B) q := by
    intro n q
    have hresult : B.suspends .exclusive := hB.suspends _ fun ⟨_, _, h⟩ => by cases h
    exact (((hfn q).awaited hresult).zoom fun _ _ => rfl).finish fun q s hs => hmutex q s _ hs
  refine Task.Within.sync (fun s hs => hmutex q s _ hs) fun s => Task.within_await.mpr ⟨?_, hsection _ _⟩
  exact hB.suspends _ fun ⟨_, _, h⟩ => by cases h

theorem within_appendEntryAndPersist (hP : P.Lawful) (hB : Admits P w B) {p : AppendParams}
    (hw : trim p.walletPubKey = w.val)
    (hinit : ∀ b, B.inv b → manifestCid P w b = none →
      onChainHead p.onChainLatestManifestCid = false → AdmitsInit P w B.strict (p.toInit w.val))
    (hstore : ∀ bytes, AdmitsStore P w B (.append .addBytes) bytes) :
    (appendEntryAndPersist P p).Within (onTab B) q := by
  unfold appendEntryAndPersist
  cases appendChecks p with
  | error e => exact Task.Within.done _
  | ok u => exact within_runExclusive hB fun q => within_appendSection hP hB hw hinit hstore

theorem within_onData {t : ServiceTask α} (h : t.Within B q) :
    (onData t : Task AwaitPoint WalletTab JsError α).Within (onTab B) q :=
  h.zoom fun _ _ => rfl

end Within

/-! ### Pointers -/

/-- The wallet's pointer designates a manifest without entries. -/
def DesignatesEmpty (P : Platform) (w : WalletPubKey) (b : Browser) : Prop :=
  ∃ sig m, Designates P w sig b m ∧ entriesOf m = .ok []

/-- No pointer changes. -/
def SamePointers (P : Platform) (b b' : Browser) : Prop := ∀ w, manifestCid P w b' = manifestCid P w b

theorem SamePointers.trans {a b d : Browser} (h : SamePointers P a b) (h' : SamePointers P b d) :
    SamePointers P a d := fun w => (h' w).trans (h w)

/-- No pointer is removed. -/
def PointersKept (P : Platform) (b b' : Browser) : Prop :=
  ∀ w, (manifestCid P w b).isSome → (manifestCid P w b').isSome

/-- A call for `w` keeps the pointers of the others and removes none. Until it can only succeed, it
changes its own only by an init, whose upload may fail with `fault`. -/
def pointerBounds (P : Platform) (w : WalletPubKey) (fault : Option JsError) : ServiceBounds where
  inv _ := True
  suspends _ := True
  update b b' := OthersKept P w b b' ∧ PointersKept P b b'
  tentative pt b b' := manifestCid P w b' = manifestCid P w b ∨
    pt = some (.load .addBytes) ∧ fault = none ∧ DesignatesEmpty P w b'
  commits := True

theorem PointersKept.of_eq {b b' : Browser} (h : SamePointers P b b') : PointersKept P b b' := by
  intro w hw
  rwa [h w]

/-- A blank pointer counts as none. -/
theorem manifestCid_ne_empty (w : WalletPubKey) (b : Browser) : manifestCid P w b ≠ some "" := by
  intro h
  obtain ⟨raw, -, hraw⟩ := Option.bind_eq_some_iff.mp h
  split at hraw
  · cases hraw
  · rename_i hne
    exact hne (Option.some.inj hraw)

theorem manifestCid_pointed_same (hP : P.Lawful) (w : WalletPubKey) (bytes : Bytes) (b : Browser) :
    manifestCid P w (b.pointed P w bytes) = some (P.cidOf bytes) :=
  pointer_set_same _ w (hP.cidOf_trim bytes) (hP.cidOf_ne bytes) _

theorem manifestCid_pointed_ne {w w' : WalletPubKey} (h : w' ≠ w) (bytes : Bytes) (b : Browser) :
    manifestCid P w' (b.pointed P w bytes) = manifestCid P w' b :=
  pointer_set_ne _ h _ _

theorem pointersKept_pointed (hP : P.Lawful) (w : WalletPubKey) (bytes : Bytes) (b : Browser) :
    PointersKept P b (b.pointed P w bytes) := by
  intro w' hw'
  by_cases h : w' = w
  · rw [h, manifestCid_pointed_same hP]
    rfl
  · rwa [manifestCid_pointed_ne h]

theorem DesignatesEmpty.congr {b b' : Browser} (h : DesignatesEmpty P w b)
    (hcid : manifestCid P w b' = manifestCid P w b) : DesignatesEmpty P w b' := by
  obtain ⟨sig, m, ⟨cid, hb, hopen⟩, hm⟩ := h
  exact ⟨sig, m, ⟨cid, hcid.trans hb, hopen⟩, hm⟩

theorem pointerBounds_composes (fault : Option JsError) : (pointerBounds P w fault).Composes where
  refl b := ⟨OthersKept.refl w b, fun _ h => h⟩
  trans a b c h h' := ⟨h.1.trans h'.1, fun w hw => h'.2 w (h.2 w hw)⟩
  tentative_refl _ _ := Or.inl rfl
  tentative_trans pt a b c h h' := by
    rcases h' with h' | h'
    · exact h.imp h'.trans fun ⟨hpt, hfault, hempty⟩ => ⟨hpt, hfault, hempty.congr h'⟩
    · exact Or.inr h'

theorem admits_pointerBounds (fault : Option JsError) : Admits P w (pointerBounds P w fault) := by
  have hsame : ∀ (p : Option AwaitPoint) (b b' : Browser),
      (∀ w', manifestCid P w' b' = manifestCid P w' b) → (pointerBounds P w fault).Allows p b b' :=
    fun p b b' h => ⟨trivial, ⟨fun w' _ => h w', PointersKept.of_eq h⟩, Or.inl (h w)⟩
  exact ⟨pointerBounds_composes fault, fun p b _ => hsame _ _ _ fun w' => manifestCid_migrated w' w b,
    fun p b bytes _ => hsame _ _ _ fun _ => rfl, fun _ _ => trivial⟩

theorem kept_pointed (hP : P.Lawful) (bytes : Bytes) (b : Browser) :
    OthersKept P w b (b.pointed P w bytes) ∧ PointersKept P b (b.pointed P w bytes) :=
  ⟨fun _ h => manifestCid_pointed_ne h bytes b, pointersKept_pointed hP w bytes b⟩

theorem designates_pointed (hP : P.Lawful) {sig bytes : Bytes} {m : Json}
    (h : openManifest P w.val sig bytes = .ok m) (b : Browser) :
    Designates P w sig (b.pointed P w bytes) m :=
  ⟨P.cidOf bytes, manifestCid_pointed_same hP w bytes b, by rwa [hP.content_cidOf]⟩

theorem admitsInit_pointerBounds (hP : P.Lawful) {p : LoadParams} :
    AdmitsInit P w (pointerBounds P w (p.env.fault .addBytes)).strict p where
  suspends _ _ := trivial
  store bytes hseal := by
    have hfault := (exists_sealEmpty_iff hP w).mp ⟨bytes, hseal⟩ .addBytes (by decide)
    exact ⟨fun _ _ => trivial, fun b _ => kept_pointed hP bytes b, fun b _ => Or.inl (Or.inr
      ⟨rfl, hfault, _, _, designates_pointed hP (openManifest_sealEmpty hP hseal) b, rfl⟩)⟩

theorem stores_pointerBounds (hP : P.Lawful) {fault : Option JsError} (bytes : Bytes) :
    AdmitsStore P w (pointerBounds P w fault) (.append .addBytes) bytes :=
  ⟨fun _ _ => trivial, fun b _ => kept_pointed hP bytes b, fun _ _ => Or.inr trivial⟩

/-- An append keeps to the bounds of its wallet. -/
theorem append_within_pointerBounds (hP : P.Lawful) {p : AppendParams}
    (hw : trim p.walletPubKey = w.val) (q : Option AwaitPoint) : (appendEntryAndPersist P p).Within
      (onTab (pointerBounds P w (p.env.init.fault .addBytes))) q := by
  refine within_appendEntryAndPersist hP (admits_pointerBounds _) hw ?_ (stores_pointerBounds hP)
  exact fun _ _ _ _ => admitsInit_pointerBounds hP (p := p.toInit w.val)

theorem section_within_pointerBounds (hP : P.Lawful) {p : AppendParams}
    (hw : trim p.walletPubKey = w.val) (q : Option AwaitPoint) :
    (appendSection P p).Within (pointerBounds P w (p.env.init.fault .addBytes)) q := by
  refine within_appendSection hP (admits_pointerBounds _) hw ?_ (stores_pointerBounds hP)
  exact fun _ _ _ _ => admitsInit_pointerBounds hP (p := p.toInit w.val)

theorem code_within_pointerBounds (hP : P.Lawful) {p : LoadParams} (hw : trim p.walletPubKey = w.val)
    (q : Option AwaitPoint) :
    (loadManifestOrInit P p).Within (pointerBounds P w (p.env.fault .addBytes)) q :=
  Task.Within.of_strict (within_loadManifestOrInit hP (admits_pointerBounds _).strict hw
    fun _ _ _ _ => admitsInit_pointerBounds hP)

theorem load_within_pointerBounds (hP : P.Lawful) {p : LoadParams} (hw : trim p.walletPubKey = w.val)
    (q : Option AwaitPoint) : (onData (loadManifestOrInit P p)).Within
      (onTab (pointerBounds P w (p.env.fault .addBytes))) q :=
  within_onData (code_within_pointerBounds hP hw q)

/-! ### Results of a load -/

/-- What a load that read the pointer `read` may return: the manifest there, or one that it has
created. -/
def LoadedFrom (P : Platform) (w : WalletPubKey) (sig : Bytes) (read : Option String) :
    Result LoadResult → Prop
  | .ok (.loaded m cid) => read = some cid ∧ openManifest P w.val sig (P.content cid) = .ok m
  | .ok (.created m cid) => openManifest P w.val sig (P.content cid) = .ok m ∧ entriesOf m = .ok []
  | .ok .restoreRequired => True
  | .error _ => True

theorem returns_readManifest (point : Step → AwaitPoint) (fault : Faults) (walletPubKey : String)
    (signatureBytes : Bytes) (cid invalidJson : String) :
    (readManifest P point fault walletPubKey signatureBytes cid invalidJson).Returns fun r =>
      ∀ x, r = .ok x → fetchManifest P fault walletPubKey signatureBytes cid invalidJson = .ok x := by
  refine Task.Returns.bind ((Task.returns_op ..).mpr ⟨by simp, fun bytes hcat => ?_⟩)
  refine Task.Returns.bind ((Task.returns_done _).mpr ⟨by simp, fun encrypted hparse => ?_⟩)
  refine Task.Returns.bind ((Task.returns_op ..).mpr ⟨by simp, fun key hunwrap => ?_⟩)
  refine Task.Returns.bind ((Task.returns_op ..).mpr ⟨by simp, fun m hdecrypt => ?_⟩)
  refine (Task.returns_done _).mpr ?_
  rintro _ ⟨⟩
  simp [fetchManifest, hcat, hparse, hunwrap, hdecrypt]

theorem returns_loadManifest (p : LoadParams) (cid : String) :
    (loadManifest P w.val p cid).Returns (LoadedFrom P w p.signatureBytes (some cid)) := by
  refine Task.Returns.bind ((returns_readManifest ..).mono fun r hr => ⟨fun _ _ => trivial, ?_⟩)
  rintro ⟨key, m⟩ rfl
  exact (Task.returns_done _).mpr ⟨rfl, (fetchManifest_eq_ok (hr _ rfl)).1⟩

theorem returns_persist (point : Step → AwaitPoint) (fault : Faults)
    (draws : SealDraws) (kek key : Bytes) (manifest : Json) :
    (persist P point fault draws w.val kek key manifest).Returns fun r => ∀ cid, r = .ok cid →
      ∃ bytes, sealManifest P fault draws w.val kek key manifest = .ok bytes ∧ cid = P.cidOf bytes := by
  refine Task.Returns.bind ((Task.returns_op ..).mpr ⟨by simp, fun envelope henvelope => ?_⟩)
  refine Task.Returns.bind ((Task.returns_op ..).mpr ⟨by simp, fun encrypted hencrypted => ?_⟩)
  rw [addBytes, Task.bind_def, Task.bind_def, Task.bind_bind]
  refine Task.Returns.bind ((Task.returns_op ..).mpr ⟨by simp, fun _ hadd => ?_⟩)
  rw [attempt_eq_ok] at hadd
  have hseal : sealManifest P fault draws w.val kek key manifest =
      .ok (P.encodeJsonToBytes encrypted) := by
    simp [sealManifest, henvelope, hencrypted, hadd.1]
  rw [Task.bind_def, Task.bind_bind]
  refine Task.Returns.modify_bind (Task.Returns.atomically_bind (by simp) fun _ => ?_)
  refine (Task.returns_done _).mpr ?_
  rintro _ ⟨⟩
  exact ⟨_, hseal, rfl⟩

theorem returns_initManifest (hP : P.Lawful) (p : LoadParams) (read : Option String) :
    (initManifest P w.val p).Returns (LoadedFrom P w p.signatureBytes read) := by
  refine Task.Returns.bind ((Task.returns_op ..).mpr ⟨fun _ _ => trivial, fun kek hkek => ?_⟩)
  refine Task.Returns.bind ((Task.returns_op ..).mpr ⟨fun _ _ => trivial, fun key hkey => ?_⟩)
  refine Task.Returns.bind ((Task.returns_op ..).mpr ⟨fun _ _ => trivial, fun _ hsodium => ?_⟩)
  refine Task.Returns.bind ((returns_persist ..).mono fun r hr => ⟨fun _ _ => trivial, ?_⟩)
  rintro cid rfl
  obtain ⟨bytes, hseal, rfl⟩ := hr cid rfl
  have hempty : sealEmpty P w.val p = .ok bytes := by
    simp [sealEmpty, hkek, hkey, hsodium, hseal]
  refine (Task.returns_done _).mpr ⟨?_, rfl⟩
  rw [hP.content_cidOf]
  exact openManifest_sealEmpty hP hempty

/-- After its first segment, a load returns what the pointer designated then, or what it creates. -/
theorem returns_seg_loadManifestOrInit (hP : P.Lawful) {p : LoadParams}
    (hw : trim p.walletPubKey = w.val) (b : Browser) : ((loadManifestOrInit P p).seg b).2.Returns
      (LoadedFrom P w p.signatureBytes (manifestCid P w b)) := by
  have hread : (readManifestCid P w.val).seg b =
      (b.migrated P w, .done (.ok (manifestCid P w b))) := by
    refine Task.seg_atomically ?_
    rw [getManifestCid_val]
    rfl
  by_cases hunlock : hasUnlock p.unlock = true
  · simp only [loadManifestOrInit, hw, isBlank_val, hunlock, check, Bool.not_false, require_true,
      Task.bind_def, Task.done_ok_bind, Task.seg_bind_ok hread]
    refine Task.Returns.seg ?_ _
    cases manifestCid P w b with
    | some cid => exact returns_loadManifest p cid
    | none =>
      cases hchain : onChainHead p.onChainLatestManifestCid with
      | true => exact (Task.returns_done _).mpr trivial
      | false => exact returns_initManifest hP p none
  · rw [Bool.not_eq_true] at hunlock
    simp only [loadManifestOrInit, hw, isBlank_val, hunlock, check, Bool.not_false, require_true,
      Task.bind_def, Task.done_ok_bind]
    exact (Task.returns_done _).mpr trivial

/-! ### Avoiding the INIT branch -/

/-- A call with this on-chain head does not reach the INIT branch. -/
def Covered (P : Platform) (w : WalletPubKey) (head : Option String) (b : Browser) : Prop :=
  onChainHead head = true ∨ (manifestCid P w b).isSome

theorem Covered.mono {head : Option String} {b b' : Browser} (h : Covered P w head b)
    (hkept : PointersKept P b b') : Covered P w head b' := h.imp_right (hkept w)

/-- A covered call is never suspended in the INIT branch. -/
def coveredBounds (P : Platform) (w : WalletPubKey) (head : Option String) : ServiceBounds where
  inv := Covered P w head
  suspends pt := ¬ pt.InInit
  update _ _ := True
  tentative _ _ _ := True
  commits := True

theorem admits_coveredBounds (head : Option String) : Admits P w (coveredBounds P w head) where
  composes := ⟨fun _ => trivial, fun _ _ _ _ _ => trivial, fun _ _ => trivial, fun _ _ _ _ _ _ => trivial⟩
  migrated _ b hb :=
    ⟨hb.mono (PointersKept.of_eq fun w' => manifestCid_migrated w' w b), trivial, trivial⟩
  uploaded _ _ _ hb := ⟨hb, trivial, trivial⟩
  suspends _ h := h

theorem not_reaches_init {head : Option String} {b : Browser} {C : Prop} (hb : Covered P w head b)
    (hcid : manifestCid P w b = none) (hchain : onChainHead head = false) : C := by
  rcases hb with h | h
  · cases h.symm.trans hchain
  · rw [hcid] at h
    cases h

theorem append_within_coveredBounds (hP : P.Lawful) {p : AppendParams}
    (hw : trim p.walletPubKey = w.val) (q : Option AwaitPoint) : (appendEntryAndPersist P p).Within
      (onTab (coveredBounds P w p.onChainLatestManifestCid)) q := by
  refine within_appendEntryAndPersist hP (admits_coveredBounds _) hw (fun _ => not_reaches_init)
    fun bytes => ⟨fun b hb => hb.mono (pointersKept_pointed hP w bytes b), fun _ _ => trivial,
      fun _ _ => Or.inr trivial⟩

theorem load_within_coveredBounds (hP : P.Lawful) {p : LoadParams} (hw : trim p.walletPubKey = w.val)
    (q : Option AwaitPoint) : (onData (loadManifestOrInit P p)).Within
      (onTab (coveredBounds P w p.onChainLatestManifestCid)) q :=
  within_onData (within_loadManifestOrInit hP (admits_coveredBounds _) hw fun _ => not_reaches_init)

end SovereignJedi.Manifest
