import SovereignJedi.Manifest.Serial

/-! Rules for the service's tasks under a contract. An assertion that the others keep may be carried
from one operation to the next; what remains of a task is the one update at its end. -/

namespace SovereignJedi.Manifest

open SovereignJedi.Js SovereignJedi.Crypto SovereignJedi.Async

variable {P : Platform} {α β : Type} {K : Contract AwaitPoint Browser} {w : WalletPubKey}
  {Q : Result α → Browser → Browser → Prop} {I : Browser → Prop} {b₀ b : Browser}

/-- A segment that has done nothing yet may fail. -/
def MayFail (K : Contract AwaitPoint Browser) (I : Browser → Prop)
    (Q : Result α → Browser → Browser → Prop) : Prop :=
  ∀ e b₀ b, K.guar b₀ b → I b → Q (.error e) b₀ b

theorem wp_step_bind (hI : K.Stable I) (hrefl : ∀ b, K.guar b b) {point : Step → AwaitPoint}
    {fault : Faults} {s : Step} {r : Result β} {k : β → ServiceTask α} (hs : K.suspends (point s))
    (hfail : MayFail K I Q) (h₀ : K.guar b₀ b) (hb : I b)
    (hok : ∀ a b', attempt (fault s) r = .ok a → I b' → K.resumed (point s) b' →
      (k a).wp K Q b' b') :
    ((step point fault s r).bind k).wp K Q b₀ b := by
  refine Task.wp_bind.mpr (Task.wp_op_of_stable hI hs h₀ hb fun b' hb' hp => ?_)
  cases h : attempt (fault s) r with
  | error e => exact hfail e b' b' (hrefl b') hb'
  | ok a => exact hok a b' h hb' hp

theorem wp_done_bind {r : Result β} {k : β → ServiceTask α} (hfail : MayFail K I Q)
    (h₀ : K.guar b₀ b) (hb : I b) (hok : ∀ a, r = .ok a → (k a).wp K Q b₀ b) :
    ((Task.done r : ServiceTask β).bind k).wp K Q b₀ b := by
  cases r with
  | error e => exact (Task.wp_done ..).mpr (hfail e b₀ b h₀ hb)
  | ok a => exact hok a rfl

theorem wp_readManifestCid_bind {k : Option String → ServiceTask α}
    (h : (k (manifestCid P w b)).wp K Q b₀ (b.migrated P w)) :
    ((readManifestCid P w.val).bind k).wp K Q b₀ b := by
  have hread : getManifestCid P.cluster w.val b.localStorage =
      .ok (migrate P.cluster w.val b.localStorage, manifestCid P w b) := getManifestCid_val ..
  refine Task.wp_bind.mpr ((Task.wp_atomically _ ?_).mpr h)
  rw [hread]
  rfl

theorem wp_storeManifestCid_bind (hP : P.Lawful) (bytes : Bytes) {k : Unit → ServiceTask α}
    (h : (k ()).wp K Q b₀ { b with
      localStorage := setItem b.localStorage (scopedKey P.cluster w.val) (P.cidOf bytes) }) :
    ((storeManifestCid P w.val (P.cidOf bytes)).bind k).wp K Q b₀ b := by
  refine Task.wp_bind.mpr ((Task.wp_atomically _ ?_).mpr h)
  rw [setManifestCid_val P.cluster w (hP.cidOf_trim bytes) (hP.cidOf_ne bytes)]
  rfl

theorem MayFail.cont {Q : Result β → Browser → Browser → Prop} (hfail : MayFail K I Q)
    (k : α → ServiceTask β) : MayFail K I (Task.Cont K Q k) := hfail

/-- A sealing ends with one update: the bytes are uploaded and the pointer is set to their CID. -/
theorem wp_persist (hP : P.Lawful) (hI : K.Stable I) (hrefl : ∀ b, K.guar b b)
    {point : Step → AwaitPoint} {fault : Faults} {draws : SealDraws} {kek manifestKey : Bytes}
    {manifest : Json} {Q : Result String → Browser → Browser → Prop}
    (hs : ∀ s ∈ sealSteps, K.suspends (point s)) (hfail : MayFail K I Q) (h₀ : K.guar b₀ b) (hb : I b)
    (hok : ∀ bytes b', sealManifest P fault draws w.val kek manifestKey manifest = .ok bytes → I b' →
      K.resumed (point .addBytes) b' → Q (.ok (P.cidOf bytes)) b' (b'.stored P w bytes)) :
    (persist P point fault draws w.val kek manifestKey manifest).wp K Q b₀ b := by
  refine wp_step_bind hI hrefl (hs .wrap (by decide)) hfail h₀ hb fun envelope b₁ henv hb₁ _ => ?_
  refine wp_step_bind hI hrefl (hs .encrypt (by decide)) hfail (hrefl b₁) hb₁
    fun encrypted b₂ henc hb₂ _ => ?_
  rw [addBytes, Task.bind_def, Task.bind_def, Task.bind_bind]
  refine wp_step_bind hI hrefl (hs .addBytes (by decide)) hfail (hrefl b₂) hb₂ fun _ b₃ hadd hb₃ hp => ?_
  have hseal : sealManifest P fault draws w.val kek manifestKey manifest =
      .ok (P.encodeJsonToBytes encrypted) := by
    rw [attempt_eq_ok] at hadd
    simp [sealManifest, henv, henc, hadd.1]
  refine Task.wp_bind.mpr (Task.wp_bind.mpr ((Task.wp_modify ..).mpr ?_))
  simp only [Task.Cont_ok, Task.pure_def, Task.bind_def, Task.wp_done]
  refine wp_storeManifestCid_bind hP _ ?_
  exact (Task.wp_done ..).mpr (hok _ b₃ hseal hb₃ hp)

/-- A read of the manifest at `cid` updates nothing. -/
theorem wp_readManifest (hI : K.Stable I) (hrefl : ∀ b, K.guar b b) {point : Step → AwaitPoint}
    {fault : Faults} {signatureBytes : Bytes} {cid invalidJson : String}
    {Q : Result (Bytes × Json) → Browser → Browser → Prop}
    (hs : ∀ s ∈ readSteps, K.suspends (point s)) (hfail : MayFail K I Q) (h₀ : K.guar b₀ b) (hb : I b)
    (hok : ∀ r b', fetchManifest P fault w.val signatureBytes cid invalidJson = .ok r → I b' →
      Q (.ok r) b' b') :
    (readManifest P point fault w.val signatureBytes cid invalidJson).wp K Q b₀ b := by
  refine wp_step_bind hI hrefl (hs .catBytes (by decide)) hfail h₀ hb fun bytes b₁ hcat hb₁ _ => ?_
  refine wp_done_bind hfail (hrefl b₁) hb₁ fun encrypted hparse => ?_
  refine wp_step_bind hI hrefl (hs .unwrap (by decide)) hfail (hrefl b₁) hb₁
    fun manifestKey b₂ hunwrap hb₂ _ => ?_
  refine wp_step_bind hI hrefl (hs .decrypt (by decide)) hfail (hrefl b₂) hb₂
    fun manifest b₃ hdecrypt hb₃ _ => ?_
  refine (Task.wp_done ..).mpr (hok (manifestKey, manifest) b₃ ?_ hb₃)
  simp [fetchManifest, hcat, hparse, hunwrap, hdecrypt]

theorem wp_initManifest (hP : P.Lawful) (hI : K.Stable I) (hrefl : ∀ b, K.guar b b) {p : LoadParams}
    {Q : Result LoadResult → Browser → Browser → Prop}
    (hs : ∀ s ∈ initSteps, K.suspends (.load s)) (hfail : MayFail K I Q) (h₀ : K.guar b₀ b) (hb : I b)
    (hok : ∀ bytes b', sealEmpty P w.val p = .ok bytes → I b' →
      K.resumed (.load .addBytes) b' →
      Q (.ok (.created (emptyManifest w.val p.env.nowIso) (P.cidOf bytes))) b'
        (b'.stored P w bytes)) :
    (initManifest P w.val p).wp K Q b₀ b := by
  refine wp_step_bind hI hrefl (hs .deriveKek (by decide)) hfail h₀ hb fun kek b₁ hkek hb₁ _ => ?_
  refine wp_step_bind hI hrefl (hs .deriveManifestKey (by decide)) hfail (hrefl b₁) hb₁
    fun manifestKey b₂ hkey hb₂ _ => ?_
  refine wp_step_bind hI hrefl (hs .sodium (by decide)) hfail (hrefl b₂) hb₂
    fun _ b₃ hsodium hb₃ _ => ?_
  have hseals : ∀ s ∈ sealSteps, K.suspends (.load s) := fun s h => hs s (List.mem_append_right _ h)
  refine Task.wp_bind.mpr (wp_persist hP hI hrefl hseals (hfail.cont _) (hrefl b₃) hb₃
    fun bytes b' hseal hb' hp => (Task.wp_done ..).mpr (hok bytes b' ?_ hb' hp))
  simp [sealEmpty, hkek, hkey, hsodium, hseal]

/-- A load reads, finds that the manifest has to be restored, or ends with the update of an init. -/
theorem wp_loadManifestOrInit (hP : P.Lawful) (hI : K.Stable I) (hrefl : ∀ b, K.guar b b)
    {p : LoadParams} (hw : trim p.walletPubKey = w.val)
    {Q : Result LoadResult → Browser → Browser → Prop} (hs : ∀ pt, K.suspends pt)
    (hfail : MayFail K I Q) (h₀ : K.guar b₀ b) (hb : I b) (h₁ : K.guar b₀ (b.migrated P w))
    (hb₁ : I (b.migrated P w))
    (hrestore : onChainHead p.onChainLatestManifestCid = true →
      Q (.ok .restoreRequired) b₀ (b.migrated P w))
    (hloaded : ∀ m cid b', I b' → Q (.ok (.loaded m cid)) b' b')
    (hcreated : ∀ bytes b', manifestCid P w b = none → sealEmpty P w.val p = .ok bytes → I b' →
      K.resumed (.load .addBytes) b' →
      Q (.ok (.created (emptyManifest w.val p.env.nowIso) (P.cidOf bytes))) b'
        (b'.stored P w bytes)) :
    (loadManifestOrInit P p).wp K Q b₀ b := by
  rw [loadManifestOrInit, hw]
  refine wp_done_bind hfail h₀ hb fun _ _ => wp_done_bind hfail h₀ hb fun _ _ => ?_
  refine wp_readManifestCid_bind ?_
  cases hcid : manifestCid P w b with
  | some cid =>
    refine Task.wp_bind.mpr (wp_readManifest hI hrefl (fun _ _ => hs _) (hfail.cont _) h₁ hb₁ ?_)
    rintro ⟨key, m⟩ b' - hb'
    exact (Task.wp_done ..).mpr (hloaded m cid b' hb')
  | none =>
    by_cases hchain : onChainHead p.onChainLatestManifestCid = true
    · simp only [hchain, if_true]
      exact (Task.wp_done ..).mpr (hrestore hchain)
    · simp only [hchain]
      exact wp_initManifest hP hI hrefl (fun _ _ => hs _) hfail h₁ hb₁
        fun bytes b' => hcreated bytes b' hcid

/-- An append on the manifest at `cid` ends with the update that stores the merged one. -/
theorem wp_appendTo (hP : P.Lawful) (hI : K.Stable I) (hrefl : ∀ b, K.guar b b) {p : AppendParams}
    {cid : String} {Q : Result (Json × String) → Browser → Browser → Prop}
    (hs : ∀ pt, K.suspends pt) (hfail : MayFail K I Q) (h₀ : K.guar b₀ b) (hb : I b)
    (hok : ∀ m m' bytes b', openManifest P w.val p.signatureBytes (P.content cid) = .ok m →
      mergeEntry p m = .ok m' → openManifest P w.val p.signatureBytes bytes = .ok m' → I b' →
        Q (.ok (m', P.cidOf bytes)) b' (b'.stored P w bytes)) :
    (appendTo P p w.val cid).wp K Q b₀ b := by
  refine Task.wp_bind.mpr (wp_readManifest hI hrefl (fun _ _ => hs _) (hfail.cont _) h₀ hb ?_)
  rintro ⟨manifestKey, m⟩ b₁ hfetch hb₁
  refine wp_done_bind hfail (hrefl b₁) hb₁ fun m' hmerge => ?_
  refine wp_step_bind hI hrefl (hs _) hfail (hrefl b₁) hb₁ fun _ b₂ _ hb₂ _ => ?_
  refine wp_step_bind hI hrefl (hs _) hfail (hrefl b₂) hb₂ fun kek b₃ hkek hb₃ _ => ?_
  refine Task.wp_bind.mpr
    (wp_persist hP hI hrefl (fun _ _ => hs _) (hfail.cont _) (hrefl b₃) hb₃ ?_)
  intro bytes b' hseal hb' _
  obtain ⟨hopen, hkey, -⟩ := fetchManifest_eq_ok hfetch
  have hopen' := openManifest_sealManifest hP (attempt_eq_ok.mp hkek).2 hkey
    (mergeEntry_isManifest (openManifest_isManifest hP hopen) hmerge) hseal
  exact (Task.wp_done ..).mpr (hok m m' bytes b' hopen hmerge hopen' hb')

end SovereignJedi.Manifest
