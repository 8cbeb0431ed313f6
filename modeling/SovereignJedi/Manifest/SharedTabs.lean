import SovereignJedi.Async.Parallel
import SovereignJedi.Manifest.Bounded
import SovereignJedi.Manifest.Chain

/-! Loads and appends in several tabs of one browser. The tabs share `localStorage` and IPFS, but
each has mutexes of its own, so that an append may go on from a manifest that another tab has
replaced meanwhile. Still every manifest that a pointer ever designates is explained by some of the
appends, made one after the other; and every outcome is that of a manifest so explained. -/

namespace SovereignJedi.Manifest

open SovereignJedi.Js SovereignJedi.Crypto SovereignJedi.Async

/-! ### Tabs -/

/-- The tabs of a browser, by number: the data that they share, and `mutexByWallet` of each. -/
structure Tabs where
  data : Browser
  mutexes : Nat → String → Option Mutex

namespace Tabs

def tab (n : Nat) (s : Tabs) : WalletTab := { data := s.data, mutexes := s.mutexes n }

def setTab (n : Nat) (t : WalletTab) (s : Tabs) : Tabs :=
  { data := t.data, mutexes := Function.update s.mutexes n t.mutexes }

/-- No call has been made in any tab. -/
def fresh (b : Browser) : Tabs := { data := b, mutexes := fun _ _ => none }

theorem tab_setTab (n : Nat) (t : WalletTab) (s : Tabs) : (s.setTab n t).tab n = t := by
  simp [tab, setTab]

end Tabs

variable {P : Platform} {w : WalletPubKey}

/-- A call in tab `c.1`. -/
def tabBody (P : Platform) (c : Nat × Call) : Task AwaitPoint Tabs JsError Reply :=
  (c.2.body P).zoom (Tabs.tab c.1) (Tabs.setTab c.1)

abbrev TabsPool := Pool (Nat × Call) AwaitPoint Tabs JsError Reply

/-- Any number of loads and appends, for any wallets and in any tabs, at any interleaving. -/
abbrev TabsRun (P : Platform) (b : Browser) (q : TabsPool) : Prop :=
  Pool.Run (tabBody P) (fun c _ => c.2.ForWallet) (fun _ _ _ => True) (.init (Tabs.fresh b)) q

/-- The call has been made, in some tab. -/
def Issued (q : TabsPool) (c : Call) : Prop := c ∈ q.calls.map Prod.snd

/-! ### Explained manifests -/

/-- `m` is what the appends `ps` make, one after the other, of `m₀`. -/
def Makes (ps : List AppendParams) (m₀ m : Json) : Prop :=
  ps.foldlM (fun m p => mergeEntry p m) m₀ = .ok m

/-- The manifest of `w` is made by some of the issued appends for `w`, of one that was there at the
start or of an empty one. -/
def Explained (base : WalletPubKey → Bytes → Json → Prop) (issued : Call → Prop) (w : WalletPubKey)
    (m : Json) : Prop :=
  ∃ m₀ ps, ((∃ sig, base w sig m₀) ∨ ∃ createdAt, m₀ = emptyManifest w.val createdAt) ∧
    (∀ p ∈ ps, issued (.append p) ∧ trim p.walletPubKey = w.val) ∧ Makes ps m₀ m

/-- Manifests of `w` are sealed with `sig`, at the start or by an issued call. -/
def Seals (base : WalletPubKey → Bytes → Json → Prop) (issued : Call → Prop) (w : WalletPubKey)
    (sig : Bytes) : Prop :=
  (∃ m, base w sig m) ∨ ∃ c, issued c ∧ c.Under w sig

theorem Makes.concat {ps : List AppendParams} {p : AppendParams} {m₀ m m' : Json}
    (h : Makes ps m₀ m) (hmerge : mergeEntry p m = .ok m') : Makes (ps ++ [p]) m₀ m' := by
  rw [Makes] at h ⊢
  rw [List.foldlM_append, h, ok_bind, List.foldlM_cons, hmerge]
  rfl

/-- Entries once made distinct stay so. -/
theorem Makes.listed {ps : List AppendParams} {m₀ m : Json} (h : Makes ps m₀ m) (hm : Listed m₀) :
    Listed m := by
  induction ps generalizing m₀ with
  | nil =>
    obtain rfl := Except.ok.inj h
    exact hm
  | cons p ps ih =>
    rw [Makes, List.foldlM_cons, bind_eq_ok] at h
    obtain ⟨m₁, hmerge, h⟩ := h
    exact ih h (mergeEntry_listed hmerge hm).1

section Explained

variable {base : WalletPubKey → Bytes → Json → Prop} {issued : Call → Prop}

theorem Explained.append {m m' : Json} (h : Explained base issued w m) {p : AppendParams}
    (hp : issued (.append p)) (hw : trim p.walletPubKey = w.val) (hmerge : mergeEntry p m = .ok m') :
    Explained base issued w m' := by
  obtain ⟨m₀, ps, hm₀, hps, hmakes⟩ := h
  refine ⟨m₀, ps ++ [p], hm₀, fun p' hp' => ?_, hmakes.concat hmerge⟩
  rcases List.mem_append.mp hp' with hp' | hp'
  · exact hps p' hp'
  · obtain rfl := List.mem_singleton.mp hp'
    exact ⟨hp, hw⟩

theorem explained_empty (base : WalletPubKey → Bytes → Json → Prop) (issued : Call → Prop)
    (w : WalletPubKey) (createdAt : String) :
    Explained base issued w (emptyManifest w.val createdAt) :=
  ⟨_, [], Or.inr ⟨createdAt, rfl⟩, by simp, rfl⟩

theorem Explained.listed {m : Json} (h : Explained base issued w m)
    (hstart : ∀ sig m₀, base w sig m₀ → Listed m₀) : Listed m := by
  obtain ⟨m₀, ps, hm₀, -, hmakes⟩ := h
  refine hmakes.listed ?_
  rcases hm₀ with ⟨sig, hm₀⟩ | ⟨createdAt, rfl⟩
  · exact hstart sig m₀ hm₀
  · exact ⟨[], rfl, List.Pairwise.nil⟩

/-- The object at `cid` is an explained manifest of `w`. -/
structure ExplainedAt (P : Platform) (base : WalletPubKey → Bytes → Json → Prop)
    (issued : Call → Prop) (w : WalletPubKey) (cid : String) (sig : Bytes) (m : Json) : Prop where
  opens : openManifest P w.val sig (P.content cid) = .ok m
  seals : Seals base issued w sig
  explained : Explained base issued w m

/-- Every pointer designates an explained manifest. -/
def PointersExplained (P : Platform) (base : WalletPubKey → Bytes → Json → Prop)
    (issued : Call → Prop) (b : Browser) : Prop :=
  ∀ w cid, manifestCid P w b = some cid → ∃ sig m, ExplainedAt P base issued w cid sig m

/-- What a segment of any call promises: that pointers stay, and stay explained, and objects stay on
IPFS. -/
structure Advances (P : Platform) (base : WalletPubKey → Bytes → Json → Prop) (issued : Call → Prop)
    (b b' : Browser) : Prop where
  explained : PointersExplained P base issued b → PointersExplained P base issued b'
  kept : PointersKept P b b'
  uploads : b.uploads <+: b'.uploads

theorem Advances.refl (b : Browser) : Advances P base issued b b :=
  ⟨id, fun _ h => h, List.prefix_refl _⟩

theorem Advances.trans {b b' b'' : Browser} (h : Advances P base issued b b')
    (h' : Advances P base issued b' b'') : Advances P base issued b b'' :=
  ⟨fun hb => h'.explained (h.explained hb), fun w hw => h'.kept w (h.kept w hw),
    h.uploads.trans h'.uploads⟩

theorem advances_migrated (w : WalletPubKey) (b : Browser) :
    Advances P base issued b (b.migrated P w) := by
  refine ⟨fun h w' cid hcid => h w' cid ?_, .of_eq fun w' => ?_, List.prefix_refl _⟩
  · rwa [manifestCid_migrated] at hcid
  · rw [manifestCid_migrated]

theorem advances_stored (hP : P.Lawful) {bytes sig : Bytes} {m : Json}
    (hopen : openManifest P w.val sig bytes = .ok m) (hsig : Seals base issued w sig)
    (hm : Explained base issued w m) (b : Browser) :
    Advances P base issued b (b.stored P w bytes) := by
  have hother : ∀ w', w' ≠ w → manifestCid P w' (b.stored P w bytes) = manifestCid P w' b :=
    fun w' hw => pointer_set_ne _ hw _ _
  refine ⟨fun h w' cid hcid => ?_, fun w' hw' => ?_, List.prefix_append ..⟩
  · by_cases hw : w' = w
    · subst hw
      rw [manifestCid_stored_same hP] at hcid
      obtain rfl := Option.some.inj hcid
      exact ⟨sig, m, by rwa [hP.content_cidOf], hsig, hm⟩
    · exact h w' cid ((hother w' hw).symm.trans hcid)
  · by_cases hw : w' = w
    · rw [hw, manifestCid_stored_same hP]
      rfl
    · rwa [hother w' hw]

end Explained

/-! ### The contract of a call -/

/-- The contract of every call. -/
def sharedContract (P : Platform) (base : WalletPubKey → Bytes → Json → Prop)
    (issued : Call → Prop) : Contract AwaitPoint Browser where
  rely := Advances P base issued
  guar := Advances P base issued
  resumed _ _ := True
  suspends _ := True

/-- What the outcome of a call for `w` is. -/
def Delivers (P : Platform) (base : WalletPubKey → Bytes → Json → Prop) (issued : Call → Prop)
    (w : WalletPubKey) : Call → Result Reply → Browser → Prop
  | .load p, .ok (.load (.loaded m cid)), _ => ExplainedAt P base issued w cid p.signatureBytes m
  | .load p, .ok (.load (.created m cid)), b =>
    ExplainedAt P base issued w cid p.signatureBytes m ∧ m = emptyManifest w.val p.env.nowIso ∧
      ∃ bytes ∈ b.uploads, cid = P.cidOf bytes
  | .append p, .ok (.append m cid), b =>
    ExplainedAt P base issued w cid p.signatureBytes m ∧ (∃ x ∈ manifestEntries m, p.Added x) ∧
      ∃ bytes ∈ b.uploads, cid = P.cidOf bytes
  | _, _, _ => True

section Contract

variable {base : WalletPubKey → Bytes → Json → Prop} {issued : Call → Prop}

theorem stable_explained : (sharedContract P base issued).Stable (PointersExplained P base issued) :=
  fun _ _ hr hb => hr.explained hb

theorem delivers_error (c : Call) (e : JsError) (b : Browser) :
    Delivers P base issued w c (.error e) b := by
  cases c <;> trivial

/-- An outcome is as good later. -/
theorem Delivers.advances {c : Call} {r : Result Reply} {b b' : Browser}
    (h : Delivers P base issued w c r b) (hb : Advances P base issued b b') :
    Delivers P base issued w c r b' := by
  have hup : ∀ {cid}, (∃ bytes ∈ b.uploads, cid = P.cidOf bytes) →
      ∃ bytes ∈ b'.uploads, cid = P.cidOf bytes := by
    rintro cid ⟨bytes, hbytes, hcid⟩
    exact ⟨bytes, hb.uploads.subset hbytes, hcid⟩
  cases c with
  | load p =>
    rcases r with e | (_ | _)
    · trivial
    · rename_i r
      cases r with
      | loaded m cid => exact h
      | created m cid => exact ⟨h.1, h.2.1, hup h.2.2⟩
      | restoreRequired => trivial
    · trivial
  | append p =>
    rcases r with e | (_ | _)
    · trivial
    · trivial
    · exact ⟨h.1, h.2.1, hup h.2.2⟩

/-- A load returns what its pointer designated, or creates an empty manifest. -/
theorem wp_load_explained (hP : P.Lawful) (hA : P.IdealAead) {p : LoadParams}
    (hw : trim p.walletPubKey = w.val) (hsig : Seals base issued w p.signatureBytes)
    {s₀ b : Browser} (h₀ : Advances P base issued s₀ b)
    (hb : PointersExplained P base issued b) {Q : Result LoadResult → Browser → Browser → Prop}
    (hfail : ∀ e b b', Advances P base issued b b' → PointersExplained P base issued b' →
      Q (.error e) b b')
    (hrestore : ∀ b b', Advances P base issued b b' → PointersExplained P base issued b' →
      Q (.ok .restoreRequired) b b')
    (hloaded : ∀ m cid b, ExplainedAt P base issued w cid p.signatureBytes m →
      PointersExplained P base issued b → Q (.ok (.loaded m cid)) b b)
    (hcreated : ∀ bytes b, sealEmpty P w.val p = .ok bytes → PointersExplained P base issued b →
      Q (.ok (.created (emptyManifest w.val p.env.nowIso) (P.cidOf bytes))) b (b.stored P w bytes)) :
    (loadManifestOrInit P p).wp (sharedContract P base issued) Q s₀ b := by
  have hI : (sharedContract P base issued).Stable (PointersExplained P base issued) := stable_explained
  have hfails : MayFail (sharedContract P base issued) (PointersExplained P base issued) Q :=
    fun e b b' hguar hb' => hfail e b b' hguar hb'
  have hmigrated := h₀.trans (advances_migrated w b)
  have hb' := (advances_migrated w b).explained hb
  rw [loadManifestOrInit, hw]
  refine wp_done_bind hfails h₀ hb fun _ _ =>
    wp_done_bind hfails h₀ hb fun _ _ => wp_readManifestCid_bind ?_
  cases hcid : manifestCid P w b with
  | some cid =>
    obtain ⟨sig, m₀, hat⟩ := hb w cid hcid
    refine Task.wp_bind.mpr (wp_readManifest hI Advances.refl (fun _ _ => trivial) (hfails.cont _)
      hmigrated hb' ?_)
    rintro ⟨key, m⟩ b' hfetch hb'
    obtain ⟨hopen, -, -⟩ := fetchManifest_eq_ok hfetch
    obtain rfl := openManifest_unique hA hopen hat.opens
    exact (Task.wp_done ..).mpr (hloaded m cid b' ⟨hopen, hsig, hat.explained⟩ hb')
  | none =>
    by_cases hchain : onChainHead p.onChainLatestManifestCid = true
    · simp only [hchain, if_true]
      exact (Task.wp_done ..).mpr (hrestore _ _ hmigrated hb')
    · simp only [hchain]
      exact wp_initManifest hP hI Advances.refl (fun _ _ => trivial) hfails hmigrated hb'
        fun bytes b' hseal hb' _ => hcreated bytes b' hseal hb'

/-- The init inside an append leaves the pointers explained. -/
theorem wp_ensure_explained (hP : P.Lawful) (hA : P.IdealAead) {p : AppendParams}
    (hsig : Seals base issued w p.signatureBytes)
    {Q : Result (Json × String) → Browser → Browser → Prop}
    (hfail : ∀ e b b', Advances P base issued b b' → PointersExplained P base issued b' →
      Q (.error e) b b')
    {cid : Option String} {k : Unit → ServiceTask (Json × String)} {b b' : Browser}
    (h₀ : Advances P base issued b b') (hb' : PointersExplained P base issued b')
    (hk : ∀ b b', Advances P base issued b b' → PointersExplained P base issued b' →
      (k ()).wp (sharedContract P base issued) Q b b') :
    ((ensureManifest P p w.val cid).bind k).wp (sharedContract P base issued) Q b b' := by
  cases cid with
  | some cid => exact hk b b' h₀ hb'
  | none =>
    -- whatever the others do while the init is awaited, the pointers stay explained
    have hI : (sharedContract P base issued).Stable (PointersExplained P base issued) := stable_explained
    have hafter : ∀ {b b' : Browser}, PointersExplained P base issued b →
        Relation.ReflTransGen (sharedContract P base issued).rely b b' →
          PointersExplained P base issued b' := fun hb hrely => hI.closure hrely hb
    rw [ensureManifest, Task.bind_def, Task.bind_bind]
    refine Task.wp_bind.mpr (Task.wp_awaited.mpr ?_)
    refine wp_load_explained (p := p.toInit w.val) hP hA w.trim_val hsig h₀ hb' ?_ ?_ ?_ ?_
    · intro e b b' h hb'
      exact ⟨⟨trivial, h⟩, fun b'' hr _ => hfail e _ _ (Advances.refl b'') (hafter hb' hr)⟩
    · intro b b' h hb'
      exact ⟨⟨trivial, h⟩, fun b'' hr _ =>
        (Task.wp_done ..).mpr (hfail _ _ _ (Advances.refl b'') (hafter hb' hr))⟩
    · intro m cid b _ hb
      exact ⟨⟨trivial, Advances.refl b⟩, fun b'' hr _ => hk _ _ (Advances.refl b'') (hafter hb hr)⟩
    · intro bytes b hseal hb
      have hstored := advances_stored hP (openManifest_sealEmpty hP hseal) hsig
        (explained_empty base issued w p.env.init.nowIso) b
      exact ⟨⟨trivial, hstored⟩, fun b'' hr _ =>
        hk _ _ (Advances.refl b'') (hafter (hstored.explained hb) hr)⟩

/-- An append ends with a manifest made of an explained one. -/
theorem wp_append_explained (hP : P.Lawful) (hA : P.IdealAead) {p : AppendParams}
    (hp : issued (.append p)) (hw : trim p.walletPubKey = w.val) {b : Browser}
    (hb : PointersExplained P base issued b) {Q : Result (Json × String) → Browser → Browser → Prop}
    (hfail : ∀ e b b', Advances P base issued b b' → PointersExplained P base issued b' →
      Q (.error e) b b')
    (hok : ∀ m bytes b, openManifest P w.val p.signatureBytes bytes = .ok m →
      Explained base issued w m → (∃ x ∈ manifestEntries m, p.Added x) →
        PointersExplained P base issued b → Q (.ok (m, P.cidOf bytes)) b (b.stored P w bytes)) :
    (appendSection P p).wp (sharedContract P base issued) Q b b := by
  have hsig : Seals base issued w p.signatureBytes := Or.inr ⟨.append p, hp, hw, rfl⟩
  rw [appendSection, hw]
  refine wp_readManifestCid_bind (wp_ensure_explained hP hA hsig hfail (advances_migrated w b)
    ((advances_migrated w b).explained hb) ?_)
  intro b₁ b₂ h₁ hb₂
  refine wp_readManifestCid_bind ?_
  have hmigrated := h₁.trans (advances_migrated w b₂)
  cases hcid : manifestCid P w b₂ with
  | none =>
    exact (Task.wp_done ..).mpr (hfail _ _ _ hmigrated ((advances_migrated w b₂).explained hb₂))
  | some cid =>
    obtain ⟨sig, m₀, hat⟩ := hb₂ w cid hcid
    refine wp_appendTo hP stable_explained Advances.refl (fun _ => trivial)
      (fun e b b' h hb' => hfail e b b' h hb') hmigrated ((advances_migrated w b₂).explained hb₂) ?_
    intro m m' bytes b' hopen hmerge hopen' hb'
    obtain rfl := openManifest_unique hA hopen hat.opens
    exact hok m' bytes b' hopen' (hat.explained.append hp hw hmerge) (mergeEntry_entries hmerge).2 hb'

/-! ### Calls in tabs -/

theorem explained_of_rely {b b' : Browser} (hb : PointersExplained P base issued b)
    (h : Relation.ReflTransGen (Advances P base issued) b b') :
    PointersExplained P base issued b' := by
  have hI : (sharedContract P base issued).Stable (PointersExplained P base issued) := stable_explained
  exact hI.closure h hb

/-- A call in a mutex keeps the contract of its code. -/
theorem wp_runExclusive_explained {α : Type} {k : String} {fn : ServiceTask α}
    {D : Result α → Browser → Prop} (hD : ∀ r b b', D r b → Advances P base issued b b' → D r b')
    (hfn : ∀ b, PointersExplained P base issued b →
      fn.wp (sharedContract P base issued) (fun r b b' => Advances P base issued b b' ∧ D r b') b b)
    {s : WalletTab} (hs : PointersExplained P base issued s.data) :
    (runExclusive k .previous .exclusive fn).wp ((sharedContract P base issued).onPart Tab.data)
      (fun r s s' => Advances P base issued s.data s'.data ∧ D r s'.data) s s := by
  rw [runExclusive, Task.wp_sync, waiting, Task.wp_await]
  refine ⟨⟨trivial, Advances.refl _⟩, fun s' hs' _ _ => ?_⟩
  have hrely : Relation.ReflTransGen (Advances P base issued)
      (s.setMutex k (s.getMutex k).enqueue).data s'.data := hs'.lift Tab.data fun _ _ h => h
  have hs'' : PointersExplained P base issued s'.data := explained_of_rely hs hrely
  rw [section_, Task.wp_finish]
  refine Task.wp_zoom (K := sharedContract P base issued)
    (Q := fun r b b' => Advances P base issued b b' ∧ D r b') (fun _ _ => rfl) (Task.wp_awaited.mpr ?_)
  refine Task.wp_mono (fun r b b' h => ?_) (hfn s'.data hs'')
  obtain ⟨hguar, hpost⟩ := h
  refine ⟨⟨trivial, hguar⟩, fun b'' hrely hp => ⟨Advances.refl b'', ?_⟩⟩
  clear hp
  induction hrely with
  | refl => exact hpost
  | tail _ hstep ih => exact hD _ _ _ ih hstep

/-- A call keeps its contract and delivers. -/
theorem wp_body_explained (hP : P.Lawful) (hA : P.IdealAead) {c : Call} (hc : issued c)
    (hw : trim c.walletPubKey = w.val) {s : WalletTab} (hs : PointersExplained P base issued s.data) :
    (c.body P).wp ((sharedContract P base issued).onPart Tab.data)
      (fun r s s' => Advances P base issued s.data s'.data ∧ Delivers P base issued w c r s'.data)
      s s := by
  cases c with
  | load p =>
    have hsig : Seals base issued w p.signatureBytes := Or.inr ⟨.load p, hc, hw, rfl⟩
    refine Task.wp_map.mpr (Task.wp_zoom (K := sharedContract P base issued)
      (Q := fun r b b' => Advances P base issued b b' ∧
        Delivers P base issued w (.load p) (r.map .load) b') (fun _ _ => rfl) ?_)
    refine wp_load_explained hP hA hw hsig (Advances.refl _) hs ?_ ?_ ?_ ?_
    · exact fun e b b' h _ => ⟨h, delivers_error ..⟩
    · exact fun b b' h _ => ⟨h, trivial⟩
    · exact fun m cid b h _ => ⟨Advances.refl b, h⟩
    · intro bytes b hseal hb
      have hopen := openManifest_sealEmpty hP hseal
      have hm := explained_empty base issued w p.env.nowIso
      refine ⟨advances_stored hP hopen hsig hm b, ⟨by rwa [hP.content_cidOf], hsig, hm⟩, rfl, bytes,
        ?_, rfl⟩
      exact List.mem_append_right _ (List.mem_singleton.mpr rfl)
  | append p =>
    have hsig : Seals base issued w p.signatureBytes := Or.inr ⟨.append p, hc, hw, rfl⟩
    refine Task.wp_map.mpr ?_
    unfold appendEntryAndPersist
    cases hcheck : appendChecks p with
    | error e => exact (Task.wp_done ..).mpr ⟨Advances.refl _, delivers_error ..⟩
    | ok u =>
      refine wp_runExclusive_explained
        (D := fun (r : Result (Json × String)) b =>
          Delivers P base issued w (.append p) (r.map fun r => .append r.1 r.2) b)
        (fun r b b' h => h.advances) (fun b hb => ?_) hs
      refine wp_append_explained hP hA hc hw hb (fun e b b' h _ => ⟨h, delivers_error ..⟩) ?_
      intro m bytes b hopen hm hadded hb
      refine ⟨advances_stored hP hopen hsig hm b, ⟨by rwa [hP.content_cidOf], hsig, hm⟩, hadded, bytes,
        ?_, rfl⟩
      exact List.mem_append_right _ (List.mem_singleton.mpr rfl)

/-- What is promised of a call in a tab. -/
def TabDelivers (P : Platform) (base : WalletPubKey → Bytes → Json → Prop) (issued : Call → Prop)
    (c : Nat × Call) (r : Result Reply) (s : Tabs) : Prop :=
  ∀ w : WalletPubKey, trim c.2.walletPubKey = w.val → Delivers P base issued w c.2 r s.data

/-- The invariant of the tabs' data, from `b` on. -/
structure Kept (P : Platform) (base : WalletPubKey → Bytes → Json → Prop) (issued : Call → Prop)
    (b b' : Browser) : Prop where
  explained : PointersExplained P base issued b'
  kept : PointersKept P b b'

theorem parallel_tabs (hP : P.Lawful) (hA : P.IdealAead) (base : WalletPubKey → Bytes → Json → Prop)
    (issued : Call → Prop) (b : Browser) :
    Parallel (tabBody P) (fun c _ => c.2.ForWallet ∧ issued c.2) (fun _ _ _ => True)
      (fun _ => (sharedContract P base issued).onPart Tabs.data)
      (fun s => Kept P base issued b s.data) (TabDelivers P base issued) where
  keeps := by
    rintro ⟨n, c⟩ s ⟨⟨w, hw⟩, hc⟩ hs
    have hbody : (tabBody P (n, c)).wp ((sharedContract P base issued).onPart Tabs.data)
        (fun r s s' => Advances P base issued s.data s'.data ∧ Delivers P base issued w c r s'.data)
        s s :=
      Task.wp_zoom (Tabs.tab_setTab n) (wp_body_explained hP hA hc hw hs.explained)
    refine Task.wp_mono (fun r s₀ s h => ⟨h.1, fun w' hw' => ?_⟩) hbody
    obtain rfl := WalletPubKey.val_injective (hw.symm.trans hw')
    exact h.2
  rely_guar _ _ _ _ h := h
  inv_guar _ _ _ h hs := ⟨h.explained hs.explained, fun w hw => h.kept w (hs.kept w hw)⟩
  post_guar _ _ _ _ _ h hpost w hw := (hpost w hw).advances h
  resumed _ _ _ _ _ := trivial

end Contract

/-- Tabs never corrupt each other's manifests. In every run of loads and appends in any tabs of a
browser whose pointers designate manifests, every pointer designates a manifest that results when
some of the issued appends are made one after the other; no pointer is removed; and a call that
resolves, however stale what it read, returns a manifest so explained, an append one with its entry,
stored on IPFS under the CID that it returns. -/
theorem tabs_explained (hP : P.Lawful) (hA : P.IdealAead) {b : Browser}
    (hstart : ∀ w cid, manifestCid P w b = some cid → ∃ sig m, Designates P w sig b m)
    {q : TabsPool} (hrun : TabsRun P b q) :
    PointersKept P b q.state.data ∧ ∀ w : WalletPubKey,
      (∀ cid, manifestCid P w q.state.data = some cid → ∃ sig m,
        ExplainedAt P (Designates P · · b) (Issued q) w cid sig m ∧
          ((∀ sig m₀, Designates P w sig b m₀ → Listed m₀) → Listed m)) ∧
      ∀ (i n : Nat) (c : Call) (r : Result Reply), q.threads[i]? = some ((n, c), .done r) →
        trim c.walletPubKey = w.val →
          Delivers P (Designates P · · b) (Issued q) w c r q.state.data := by
  have hinit : Kept P (Designates P · · b) (Issued q) b b := by
    refine ⟨fun w cid hcid => ?_, fun _ h => h⟩
    obtain ⟨sig, m, hm⟩ := hstart w cid hcid
    have ⟨cid', hcid', hopen⟩ := hm
    obtain rfl := Option.some.inj (hcid.symm.trans hcid')
    exact ⟨sig, m, hopen, Or.inl ⟨m, hm⟩, m, [], Or.inl ⟨sig, hm⟩, by simp, rfl⟩
  have hissued : Pool.Run (tabBody P) (fun c _ => c.2.ForWallet ∧ Issued q c.2)
      (fun _ _ _ => True) (.init (Tabs.fresh b)) q :=
    hrun.among_calls.imp_allowed fun c _ hc => ⟨hc.1, List.mem_map_of_mem hc.2⟩
  have hparallel := parallel_tabs hP hA (Designates P · · b) (Issued q) b
  have hinv := hparallel.run_inv hissued (Parallel.inv_init hinit)
  refine ⟨hinv.state.kept, fun w => ⟨fun cid hcid => ?_, fun i n c r hi hw => ?_⟩⟩
  · obtain ⟨sig, m, hm⟩ := hinv.state.explained w cid hcid
    exact ⟨sig, m, hm, hm.explained.listed⟩
  · exact hparallel.run_post hissued (Parallel.inv_init hinit) hi w hw

/-! ### A sample -/

theorem tabs_setTab_setTab (n : Nat) (t t' : WalletTab) (s : Tabs) :
    (s.setTab n t').setTab n t = s.setTab n t := by
  simp [Tabs.setTab]

theorem tabs_setTab_tab (n : Nat) (s : Tabs) : s.setTab n (s.tab n) = s := by
  simp [Tabs.setTab, Tabs.tab]

/-- An append in its tab. -/
theorem run_tabBody_append {p : AppendParams} (n : Nat) (s : Tabs) :
    (tabBody P (n, .append p)).run s = (s.setTab n ((appendEntryAndPersist P p).run (s.tab n)).1,
      ((appendEntryAndPersist P p).run (s.tab n)).2.map fun r => .append r.1 r.2) := by
  have hzoom : (tabBody P (n, .append p)).run s =
      (s.setTab n (((Call.append p).body P).run (s.tab n)).1,
        (((Call.append p).body P).run (s.tab n)).2) :=
    Task.run_zoom _ _ (Tabs.tab_setTab n) (tabs_setTab_setTab n) (tabs_setTab_tab n) _ s
  rw [hzoom, Call.body, Task.run_map]

/-- An append joins the queue of its mutex, and touches nothing else before its turn. -/
theorem seg_tabBody_append {p : AppendParams} (hcheck : appendChecks p = .ok ()) (n : Nat) (s : Tabs) :
    ((tabBody P (n, .append p)).seg s).1 = s.setTab n
      ((s.tab n).setMutex (trim p.walletPubKey) ((s.tab n).getMutex (trim p.walletPubKey)).enqueue) := by
  have hzoom : ((tabBody P (n, .append p)).seg s).1 =
      s.setTab n (((Call.append p).body P).seg (s.tab n)).1 :=
    congrArg Prod.fst
      (Task.seg_zoom _ _ (Tabs.tab_setTab n) (tabs_setTab_setTab n) (tabs_setTab_tab n) _ s)
  rw [hzoom, Call.body, appendEntryAndPersist_ok hcheck]
  rfl

theorem runsAlone_tabBody_append {p : AppendParams} (hw : trim p.walletPubKey = w.val) {n : Nat}
    {s : Tabs} (hfree : (s.tab n).Free) : (tabBody P (n, .append p)).RunsAlone s :=
  .zoom (Tabs.tab_setTab n) ((runsAlone_appendEntryAndPersist hw hfree).map _)

/-- A browser in which the sample wallet alone has stored a manifest, with one entry. -/
theorem exists_stored_sample : ∃ b, Persisted symbolic sampleWallet sampleSignature b sampleManifest ∧
    ∀ w', w' ≠ sampleWallet → manifestCid symbolic w' b = none := by
  have hw : trim sampleLoad.walletPubKey = sampleWallet.val := sampleWallet.trim_val
  obtain ⟨b, cid, hinit⟩ := run_load_creates symbolic_lawful (b := emptyBrowser) hw rfl
    (fun _ _ => rfl) rfl rfl
  have hpersisted : Persisted symbolic sampleWallet sampleSignature b
      (emptyManifest sampleWallet.val sampleLoadEnv.nowIso) := .init hw rfl hinit
  have hcheck : appendChecks sampleAppend = .ok () := appendChecks_ok hw rfl
  obtain ⟨s, cid', happend⟩ := run_append_succeeds (p := sampleAppend) (s := Tab.fresh b)
    symbolic_lawful hcheck hw (fun _ _ => rfl) (hpersisted.designates symbolic_lawful)
    (show mergeEntry sampleAppend _ = .ok sampleManifest from rfl)
  refine ⟨s.data, .append (p := sampleAppend) (s := Tab.fresh b) hpersisted hw rfl happend,
    fun w' hw' => ?_⟩
  have hcreated : OthersKept symbolic sampleWallet emptyBrowser b := by
    have h := (OnPointer.loadManifestOrInit (P := symbolic) hw).updates.run (OthersKept.refl _)
      (fun _ _ _ => OthersKept.trans) emptyBrowser
    rwa [hinit] at h
  have happended : OthersKept symbolic sampleWallet b s.data := by
    have hdata := run_appendEntryAndPersist_data (P := symbolic) hcheck (Tab.fresh b)
    rw [happend] at hdata
    have h := (OnPointer.appendSection (P := symbolic) (p := sampleAppend) hw).updates.run
      (OthersKept.refl _) (fun _ _ _ => OthersKept.trans) b
    exact hdata ▸ h
  exact (hcreated.trans happended) w' hw'

/-- An append of another file. -/
def nextAppend : AppendParams :=
  { sampleAppend with
    entry := { sampleEntry with fileCid := "bafynext" }
    env := { sampleAppend.env with uuid := "b" } }

def nextManifest : Json :=
  .obj [("version", .num 1), ("walletPubKey", .str sampleWallet.val),
    ("createdAt", .str sampleLoadEnv.nowIso), ("updatedAt", .str nextAppend.env.updatedAtNow),
    ("entries", .arr [newEntry sampleAppend, newEntry nextAppend])]

/-- While an append is in flight in one tab, another one resolves in a second tab. -/
theorem exists_overlapping_appends (hP : P.Lawful) {p p' : AppendParams} {b : Browser} {m m' : Json}
    (hw : trim p.walletPubKey = w.val) (hcheck : appendChecks p = .ok ())
    (hw' : trim p'.walletPubKey = w.val) (hcheck' : appendChecks p' = .ok ())
    (hfault : p'.env.fault.NoneOf appendSteps) (hm : Designates P w p'.signatureBytes b m)
    (hmerge : mergeEntry p' m = .ok m') :
    ∃ (q : TabsPool) (cid : String), TabsRun P b q ∧
      q.calls = [(0, .append p), (1, .append p')] ∧
      q.threads[1]? = some ((1, .append p'), .done (.ok (.append m' cid))) := by
  have hcall : TabsRun P b ((Pool.init (Tabs.fresh b)).call (tabBody P) (0, .append p)) :=
    .single (Pool.Step.call (0, Call.append p) ⟨w, hw⟩)
  have htab : ((Pool.init (Tabs.fresh b)).call (tabBody P) (0, Call.append p)).state.tab 1 =
      Tab.fresh b := by
    rw [Pool.call, Pool.init, seg_tabBody_append hcheck]
    rfl
  obtain ⟨s, cid, happend⟩ := run_append_succeeds (s := Tab.fresh b) hP hcheck' hw' hfault hm hmerge
  have hrun := hcall.trans (Pool.Run.call_alone (fun _ _ _ => trivial)
    (c := (1, Call.append p')) ⟨w, hw'⟩ (runsAlone_tabBody_append hw' (htab ▸ Tab.free_fresh b)))
  rw [run_tabBody_append, htab, happend] at hrun
  exact ⟨_, cid, hrun, rfl, rfl⟩

/-- With a manifest stored, an append is in flight in one tab while another one resolves in a second
tab. -/
theorem tabs_explained_sample : ∃ (b : Browser) (q : TabsPool) (cid : String),
    Persisted symbolic sampleWallet sampleSignature b sampleManifest ∧ TabsRun symbolic b q ∧
    q.calls = [(0, .append sampleAppend), (1, .append nextAppend)] ∧
    q.threads[1]? = some ((1, .append nextAppend), .done (.ok (.append nextManifest cid))) ∧
    Delivers symbolic (Designates symbolic · · b) (Issued q) sampleWallet (.append nextAppend)
      (.ok (.append nextManifest cid)) q.state.data ∧
    ∃ cid' sig m, manifestCid symbolic sampleWallet q.state.data = some cid' ∧
      ExplainedAt symbolic (Designates symbolic · · b) (Issued q) sampleWallet cid' sig m := by
  have hw : trim sampleAppend.walletPubKey = sampleWallet.val := sampleWallet.trim_val
  have hw' : trim nextAppend.walletPubKey = sampleWallet.val := sampleWallet.trim_val
  obtain ⟨b, hstored, hothers⟩ := exists_stored_sample
  have hdesignates := hstored.designates symbolic_lawful
  have hstart : ∀ w cid, manifestCid symbolic w b = some cid →
      ∃ sig m, Designates symbolic w sig b m := by
    intro w cid hcid
    by_cases h : w = sampleWallet
    · exact ⟨_, _, h ▸ hdesignates⟩
    · rw [hothers w h] at hcid
      cases hcid
  obtain ⟨q, cid, hrun, hcalls, hthread⟩ := exists_overlapping_appends symbolic_lawful hw
    (appendChecks_ok hw rfl) hw' (appendChecks_ok hw' rfl) (fun _ _ => rfl) hdesignates
    (show mergeEntry nextAppend sampleManifest = .ok nextManifest from rfl)
  obtain ⟨hkept, htabs⟩ := tabs_explained symbolic_lawful symbolic_idealAead hstart hrun
  obtain ⟨hpointer, hdelivers⟩ := htabs sampleWallet
  obtain ⟨cid₀, hcid₀, -⟩ := hdesignates
  obtain ⟨cid', hcid'⟩ := Option.isSome_iff_exists.mp (hkept sampleWallet (by rw [hcid₀]; rfl))
  obtain ⟨sig, m, hm, -⟩ := hpointer cid' hcid'
  exact ⟨b, q, cid, hstored, hrun, hcalls, hthread, hdelivers 1 1 (.append nextAppend) _ hthread hw',
    cid', sig, m, hcid', hm⟩

end SovereignJedi.Manifest
