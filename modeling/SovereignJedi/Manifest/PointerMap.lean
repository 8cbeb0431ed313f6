import SovereignJedi.Manifest.Clusters

/-! The manifest pointer as a map, for any wallet strings and any storage. The calls of `storage.ts`
behave like a map from wallets to CIDs but for two things: a removal brings a legacy item back, and
the item of one wallet can be the legacy item of another, whose name has the cluster in it. -/

namespace SovereignJedi.Manifest

open SovereignJedi.Js

/-! ### Wallet strings -/

/-- A wallet string as `canonicalizeWalletPubKey` returns it. -/
structure IsWalletKey (pk : String) : Prop where
  ne : pk ≠ ""
  plain : ∀ c ∈ pk.toList, isSpace c = false

variable {cluster : Option String} {w pk pk' : String} {s : LocalStorage}

theorem canonicalizeWalletPubKey_isWalletKey (h : canonicalizeWalletPubKey w = .ok pk) :
    IsWalletKey pk := by
  unfold canonicalizeWalletPubKey at h
  dsimp only at h
  split at h
  · cases h
  · next hne =>
    split at h
    · cases h
    · next hplain =>
      cases h
      exact ⟨hne, by simpa using hplain⟩

theorem IsWalletKey.canonicalize (h : IsWalletKey pk) : canonicalizeWalletPubKey pk = .ok pk := by
  have hplain : pk.toList.any isSpace = false := by simpa using h.plain
  simp [canonicalizeWalletPubKey, trim_of_no_space h.plain, h.ne, hplain]

theorem IsWalletKey.storageKey (h : IsWalletKey pk) :
    buildManifestStorageKey cluster pk = .ok (scopedKey cluster pk) := by
  rw [buildManifestStorageKey, h.canonicalize]
  rfl

theorem scopedKey_right_injective (h : scopedKey cluster pk = scopedKey cluster pk') :
    pk = pk' := by
  simpa [scopedKey, String.append_right_inj] using h

/-- No wallet has one key for both of its items. -/
theorem legacyKey_ne_scopedKey (cluster : Option String) (pk : String) :
    legacyKey pk ≠ scopedKey cluster pk := by
  intro h
  have hlen := congrArg (fun s => s.toList.length) h
  simp only [legacyKey, scopedKey, String.toList_append, List.length_append] at hlen
  have hcolon : (":" : String).toList.length = 1 := rfl
  omega

/-! ### Calls -/

/-- What `getManifestCid` gives for `pk`. -/
def found (cluster : Option String) (pk : String) (s : LocalStorage) : Option String :=
  cidFound ((s (scopedKey cluster pk)).or (s (legacyKey pk)))

theorem cidFound_eq_none_iff {raw : String} : cidFound (some raw) = none ↔ trim raw = "" := by
  simp [cidFound]

theorem getManifestCid_canonical (h : canonicalizeWalletPubKey w = .ok pk) :
    getManifestCid cluster w s = .ok (migrate cluster pk s, found cluster pk s) := by
  have hpk := canonicalizeWalletPubKey_isWalletKey h
  have hvalue : cidFound (migrate cluster pk s (scopedKey cluster pk)) = found cluster pk s := by
    unfold migrate found
    cases hs : s (scopedKey cluster pk) with
    | some raw => simp [hs]
    | none =>
      cases hl : s (legacyKey pk) with
      | none => simp [hs]
      | some legacy =>
        by_cases hblank : trim legacy = ""
        · simp [hs, hblank, cidFound]
        · simp [hblank, setItem]
  rw [getManifestCid, h, ok_bind, hpk.storageKey, ok_bind]
  simp [hvalue]

theorem setManifestCid_canonical {cid : String} (h : canonicalizeWalletPubKey w = .ok pk)
    (hcid : trim cid ≠ "") :
    setManifestCid cluster w cid s = .ok (setItem s (scopedKey cluster pk) (trim cid)) := by
  have hpk := canonicalizeWalletPubKey_isWalletKey h
  simp [setManifestCid, hcid, h, hpk.storageKey]

theorem removeManifestCid_canonical (hasRemoveItem : Bool) (h : canonicalizeWalletPubKey w = .ok pk) :
    removeManifestCid hasRemoveItem cluster w s =
      .ok (Function.update s (scopedKey cluster pk) (if hasRemoveItem then none else some "")) := by
  have hpk := canonicalizeWalletPubKey_isWalletKey h
  rw [removeManifestCid, h, ok_bind, hpk.storageKey, ok_bind]
  cases hasRemoveItem <;> rfl

inductive PointerOp where
  | get (wallet : String)
  | set (wallet cid : String)
  | remove (wallet : String)

section Ops

variable (hasRemoveItem : Bool) (cluster : Option String)

/-- The storage after a call. One that throws leaves it as it was. -/
def PointerOp.perform (s : LocalStorage) : PointerOp → LocalStorage
  | .get w =>
    match getManifestCid cluster w s with
    | .ok (s', _) => s'
    | .error _ => s
  | .set w cid =>
    match setManifestCid cluster w cid s with
    | .ok s' => s'
    | .error _ => s
  | .remove w =>
    match removeManifestCid hasRemoveItem cluster w s with
    | .ok s' => s'
    | .error _ => s

def performAll (s : LocalStorage) (ops : List PointerOp) : LocalStorage :=
  ops.foldl (PointerOp.perform hasRemoveItem cluster) s

end Ops

/-! ### The map -/

/-- CIDs by wallet. -/
abbrev PointerMap := String → Option String

/-- The map that a storage starts as: the item of the wallet, else its legacy item. -/
def initialPointers (cluster : Option String) (s : LocalStorage) : PointerMap := fun pk =>
  match s (scopedKey cluster pk) with
  | some raw => if trim raw = "" then none else some (trim raw)
  | none =>
    match s (legacyKey pk) with
    | some raw => if trim raw = "" then none else some (trim raw)
    | none => none

/-- What a call does to the map. -/
def PointerOp.apply (m : PointerMap) : PointerOp → PointerMap
  | .get _ => m
  | .set w cid =>
    match canonicalizeWalletPubKey w with
    | .ok pk => if trim cid = "" then m else Function.update m pk (some (trim cid))
    | .error _ => m
  | .remove w =>
    match canonicalizeWalletPubKey w with
    | .ok pk => Function.update m pk none
    | .error _ => m

def applyAll (m : PointerMap) (ops : List PointerOp) : PointerMap := ops.foldl PointerOp.apply m

/-- `getManifestCid` reads the map, for every wallet. -/
def ReadsMap (cluster : Option String) (s : LocalStorage) (m : PointerMap) : Prop :=
  ∀ w pk, canonicalizeWalletPubKey w = .ok pk → ∃ s', getManifestCid cluster w s = .ok (s', m pk)

/-- After each of the calls, every wallet has the CID that the map has for it. -/
def BehavesAsMap (hasRemoveItem : Bool) (cluster : Option String) (s : LocalStorage)
    (ops : List PointerOp) : Prop :=
  ∀ earlier, earlier <+: ops → ReadsMap cluster (performAll hasRemoveItem cluster s earlier)
    (applyAll (initialPointers cluster s) earlier)

/-- The item of `pk` is the legacy item of a wallet that has no item of its own. -/
def Shared (cluster : Option String) (s : LocalStorage) (pk : String) : Prop :=
  ∃ other, IsWalletKey other ∧ legacyKey other = scopedKey cluster pk ∧
    s (scopedKey cluster other) = none

/-- A call that finds a storage on which it acts like on a map: one that removes finds no legacy item
that would come back, and where the item of the wallet is shared, the call leaves what is read from
it. -/
def PointerOp.Regular (hasRemoveItem : Bool) (cluster : Option String) (s : LocalStorage) :
    PointerOp → Prop
  | .get w => ∀ pk, canonicalizeWalletPubKey w = .ok pk → Shared cluster s pk →
      s (scopedKey cluster pk) = none → cidFound (s (legacyKey pk)) = none
  | .set w cid => ∀ pk, canonicalizeWalletPubKey w = .ok pk → trim cid ≠ "" →
      Shared cluster s pk → cidFound (s (scopedKey cluster pk)) = some (trim cid)
  | .remove w => ∀ pk, canonicalizeWalletPubKey w = .ok pk →
      (hasRemoveItem = true → cidFound (s (legacyKey pk)) = none) ∧
        (Shared cluster s pk → cidFound (s (scopedKey cluster pk)) = none)

theorem initialPointers_eq (cluster : Option String) (s : LocalStorage) :
    initialPointers cluster s = fun pk => found cluster pk s := by
  funext pk
  unfold initialPointers found
  cases s (scopedKey cluster pk) with
  | some raw => rfl
  | none => cases s (legacyKey pk) <;> rfl

theorem readsMap_iff {m : PointerMap} :
    ReadsMap cluster s m ↔ ∀ pk, IsWalletKey pk → found cluster pk s = m pk := by
  constructor
  · intro h pk hpk
    obtain ⟨s', hget⟩ := h pk pk hpk.canonicalize
    rw [getManifestCid_canonical hpk.canonicalize] at hget
    exact congrArg Prod.snd (Except.ok.inj hget)
  · intro h w pk hw
    rw [getManifestCid_canonical hw, h pk (canonicalizeWalletPubKey_isWalletKey hw)]
    exact ⟨_, rfl⟩

/-! ### One call -/

/-- The item of `pk` is read by `pk` and, as a legacy item, by one other wallet at most. -/
theorem found_update (pk' : String) (v : Option String) :
    found cluster pk' (Function.update s (scopedKey cluster pk) v) =
      if pk' = pk then cidFound (v.or (s (legacyKey pk)))
      else if legacyKey pk' = scopedKey cluster pk ∧ s (scopedKey cluster pk') = none then cidFound v
      else found cluster pk' s := by
  unfold found
  by_cases hpk : pk' = pk
  · subst hpk
    rw [if_pos rfl, Function.update_self,
      Function.update_of_ne (legacyKey_ne_scopedKey cluster pk')]
  · rw [if_neg hpk, Function.update_of_ne fun h => hpk (scopedKey_right_injective h)]
    by_cases hlegacy : legacyKey pk' = scopedKey cluster pk
    · rw [hlegacy, Function.update_self]
      cases hs : s (scopedKey cluster pk') with
      | none => simp
      | some raw => simp
    · rw [Function.update_of_ne hlegacy, if_neg fun h => hlegacy h.1]

/-- A new item for `pk` is one change of the map when `pk` then reads it, and when another wallet
that reads it too reads what it did before. -/
theorem update_iff (cluster : Option String) (s : LocalStorage) (v r : Option String)
    (hpk : IsWalletKey pk) :
    (∀ pk', IsWalletKey pk' → found cluster pk' (Function.update s (scopedKey cluster pk) v) =
      Function.update (fun pk => found cluster pk s) pk r pk') ↔
    cidFound (v.or (s (legacyKey pk))) = r ∧
      (Shared cluster s pk → cidFound (s (scopedKey cluster pk)) = cidFound v) := by
  constructor
  · intro h
    refine ⟨?_, fun ⟨other, hother, hlegacy, hmissing⟩ => ?_⟩
    · have hself := h pk hpk
      rwa [found_update, if_pos rfl, Function.update_self] at hself
    · have hne : other ≠ pk := by
        rintro rfl
        exact legacyKey_ne_scopedKey cluster other hlegacy
      have hread := h other hother
      rw [found_update, if_neg hne, if_pos ⟨hlegacy, hmissing⟩, Function.update_of_ne hne, found,
        hmissing, hlegacy, Option.none_or] at hread
      exact hread.symm
  · rintro ⟨hself, hshared⟩ pk' hpk'
    rw [found_update]
    by_cases hne : pk' = pk
    · subst hne
      rw [if_pos rfl, Function.update_self, hself]
    · rw [if_neg hne, Function.update_of_ne hne]
      split
      · next h =>
        rw [← hshared ⟨pk', hpk', h⟩, found, h.1, h.2, Option.none_or]
      · rfl

variable {hasRemoveItem : Bool}

theorem perform_of_error {e : JsError} (h : canonicalizeWalletPubKey w = .error e) :
    (PointerOp.get w).perform hasRemoveItem cluster s = s ∧
      (PointerOp.remove w).perform hasRemoveItem cluster s = s ∧
      ∀ cid, (PointerOp.set w cid).perform hasRemoveItem cluster s = s := by
  refine ⟨?_, ?_, fun cid => ?_⟩
  · simp [PointerOp.perform, getManifestCid, h]
  · simp [PointerOp.perform, removeManifestCid, h]
  · by_cases hcid : trim cid = "" <;> simp [PointerOp.perform, setManifestCid, hcid, h]

theorem get_iff (w : String) :
    (∀ pk, IsWalletKey pk → found cluster pk ((PointerOp.get w).perform hasRemoveItem cluster s) =
      (PointerOp.get w).apply (fun pk => found cluster pk s) pk) ↔
    (PointerOp.get w).Regular hasRemoveItem cluster s := by
  cases hw : canonicalizeWalletPubKey w with
  | error e => simp [(perform_of_error hw).1, PointerOp.apply, PointerOp.Regular, hw]
  | ok pk =>
    have hpk := canonicalizeWalletPubKey_isWalletKey hw
    simp only [PointerOp.perform, getManifestCid_canonical hw, PointerOp.apply, PointerOp.Regular, hw,
      Except.ok.injEq, forall_eq']
    by_cases hadopts : s (scopedKey cluster pk) = none ∧ cidFound (s (legacyKey pk)) ≠ none
    · obtain ⟨hmissing, hlegacy⟩ := hadopts
      obtain ⟨legacy, hl, hblank⟩ : ∃ legacy, s (legacyKey pk) = some legacy ∧ trim legacy ≠ "" := by
        cases hl : s (legacyKey pk) with
        | none => simp [hl, cidFound] at hlegacy
        | some legacy =>
          refine ⟨legacy, rfl, fun h => hlegacy ?_⟩
          rw [hl]
          exact cidFound_eq_none_iff.mpr h
      have hmigrate : migrate cluster pk s =
          Function.update s (scopedKey cluster pk) (some legacy) := by
        simp [migrate, hmissing, hl, hblank, setItem]
      have hsame : (fun pk => found cluster pk s) =
          Function.update (fun pk => found cluster pk s) pk (found cluster pk s) :=
        (Function.update_eq_self pk _).symm
      have hiff := update_iff cluster s (some legacy) (found cluster pk s) hpk
      rw [← hsame] at hiff
      rw [hmigrate, hiff, found, hmissing, hl]
      simp [cidFound, hblank]
    · have hmigrate : migrate cluster pk s = s := by
        unfold migrate
        split
        · next legacy hs hl =>
          refine if_pos (cidFound_eq_none_iff.mp ?_)
          by_contra hne
          exact hadopts ⟨hs, by rwa [hl]⟩
        · rfl
      rw [hmigrate]
      refine iff_of_true (fun _ _ => rfl) fun _ hmissing => ?_
      by_contra hne
      exact hadopts ⟨hmissing, hne⟩

theorem set_iff (w cid : String) :
    (∀ pk, IsWalletKey pk → found cluster pk ((PointerOp.set w cid).perform hasRemoveItem cluster s) =
      (PointerOp.set w cid).apply (fun pk => found cluster pk s) pk) ↔
    (PointerOp.set w cid).Regular hasRemoveItem cluster s := by
  cases hw : canonicalizeWalletPubKey w with
  | error e => simp [(perform_of_error hw).2.2, PointerOp.apply, PointerOp.Regular, hw]
  | ok pk =>
    by_cases hcid : trim cid = ""
    · simp [PointerOp.perform, setManifestCid, hcid, PointerOp.apply, PointerOp.Regular, hw]
    · have hiff := update_iff cluster s (some (trim cid)) (some (trim cid))
        (canonicalizeWalletPubKey_isWalletKey hw)
      have hread : cidFound (some (trim cid)) = some (trim cid) := by
        simp [cidFound, trim_trim, hcid]
      simp only [PointerOp.perform, setManifestCid_canonical hw hcid, PointerOp.apply,
        PointerOp.Regular, hw, hcid, if_false, setItem, hiff, Option.some_or, hread,
        Except.ok.injEq, forall_eq', ne_eq, not_false_eq_true, true_and, forall_const]

theorem remove_iff (w : String) :
    (∀ pk, IsWalletKey pk → found cluster pk ((PointerOp.remove w).perform hasRemoveItem cluster s) =
      (PointerOp.remove w).apply (fun pk => found cluster pk s) pk) ↔
    (PointerOp.remove w).Regular hasRemoveItem cluster s := by
  cases hw : canonicalizeWalletPubKey w with
  | error e => simp [(perform_of_error hw).2.1, PointerOp.apply, PointerOp.Regular, hw]
  | ok pk =>
    have hiff := update_iff cluster s (if hasRemoveItem then none else some "") none
      (canonicalizeWalletPubKey_isWalletKey hw)
    have hblank : cidFound (some "") = none := rfl
    simp only [PointerOp.perform, removeManifestCid_canonical hasRemoveItem hw, PointerOp.apply,
      PointerOp.Regular, hw, hiff, Except.ok.injEq, forall_eq']
    cases hasRemoveItem with
    | true => simp [cidFound]
    | false => simp [hblank]

/-- A call acts as on the map exactly when it is regular. -/
theorem perform_iff (op : PointerOp) :
    (∀ pk, IsWalletKey pk → found cluster pk (op.perform hasRemoveItem cluster s) =
      op.apply (fun pk => found cluster pk s) pk) ↔ op.Regular hasRemoveItem cluster s := by
  cases op with
  | get w => exact get_iff w
  | set w cid => exact set_iff w cid
  | remove w => exact remove_iff w

/-- What a call makes of the map for `pk` depends on the map for wallets only. -/
theorem apply_congr {m m' : PointerMap} (h : ∀ pk, IsWalletKey pk → m pk = m' pk) (op : PointerOp)
    (hpk : IsWalletKey pk) : op.apply m pk = op.apply m' pk := by
  cases op with
  | get w => exact h pk hpk
  | set w cid =>
    cases hw : canonicalizeWalletPubKey w with
    | error e => simpa only [PointerOp.apply, hw] using h pk hpk
    | ok pk' =>
      by_cases hcid : trim cid = ""
      · simpa only [PointerOp.apply, hw, hcid, if_true] using h pk hpk
      · simp only [PointerOp.apply, hw, hcid, if_false, Function.update_apply, h pk hpk]
  | remove w =>
    cases hw : canonicalizeWalletPubKey w with
    | error e => simpa only [PointerOp.apply, hw] using h pk hpk
    | ok pk' => simp only [PointerOp.apply, hw, Function.update_apply, h pk hpk]

/-! ### Runs -/

theorem performAll_append (s : LocalStorage) (ops : List PointerOp) (op : PointerOp) :
    performAll hasRemoveItem cluster s (ops ++ [op]) =
      op.perform hasRemoveItem cluster (performAll hasRemoveItem cluster s ops) :=
  List.foldl_concat ..

theorem applyAll_append (m : PointerMap) (ops : List PointerOp) (op : PointerOp) :
    applyAll m (ops ++ [op]) = op.apply (applyAll m ops) :=
  List.foldl_concat ..

theorem readsMap_initial (cluster : Option String) (s : LocalStorage) :
    ReadsMap cluster s (initialPointers cluster s) := by
  rw [readsMap_iff, initialPointers_eq]
  intro pk hpk
  rfl

/-- A call on a storage that reads as the map leaves one that reads as the changed map exactly when
it is regular. -/
theorem readsMap_perform_iff {m : PointerMap} (h : ReadsMap cluster s m) (op : PointerOp) :
    ReadsMap cluster (op.perform hasRemoveItem cluster s) (op.apply m) ↔
      op.Regular hasRemoveItem cluster s := by
  rw [readsMap_iff] at h ⊢
  rw [← perform_iff]
  refine forall₂_congr fun pk hpk => ?_
  rw [← apply_congr h op hpk]

/-- Any sequence of calls behaves like on a map, for every wallet and after each of the calls,
exactly when every call is regular on the storage that it finds. -/
theorem behavesAsMap_iff (hasRemoveItem : Bool) (cluster : Option String) (s : LocalStorage)
    (ops : List PointerOp) :
    BehavesAsMap hasRemoveItem cluster s ops ↔ ∀ earlier op, earlier ++ [op] <+: ops →
      op.Regular hasRemoveItem cluster (performAll hasRemoveItem cluster s earlier) := by
  constructor
  · intro h earlier op hprefix
    have hbefore := h earlier ((List.prefix_append _ _).trans hprefix)
    have hafter := h _ hprefix
    rw [performAll_append, applyAll_append] at hafter
    exact (readsMap_perform_iff hbefore op).mp hafter
  · intro h earlier hprefix
    induction earlier using List.reverseRecOn with
    | nil => exact readsMap_initial cluster s
    | append_singleton earlier op ih =>
      rw [performAll_append, applyAll_append]
      have hbefore := ih ((List.prefix_append _ _).trans hprefix)
      exact (readsMap_perform_iff hbefore op).mpr (h earlier op hprefix)

/-- A storage of before clusters were part of the keys. -/
def legacyStorage : LocalStorage := setItem (fun _ => none) (legacyKey "Wa11et") "bafy1"

theorem isWalletKey_of_all {pk : String} (hne : pk ≠ "")
    (h : (pk.toList.all fun c => !isSpace c) = true) : IsWalletKey pk :=
  ⟨hne, by simpa using h⟩

/-- Where a removal deletes the item, the CID of the legacy item is there again; and a CID that is
set for one wallet is read for another. -/
theorem not_behavesAsMap :
    ¬ BehavesAsMap true none legacyStorage [.remove "Wa11et"] ∧
      ¬ BehavesAsMap false none (fun _ => none) [.set "Wa11et" "bafy1"] := by
  constructor
  · intro h
    have hread := readsMap_iff.mp (h _ (List.prefix_refl _)) "Wa11et"
      (isWalletKey_of_all (by decide) (by decide))
    exact absurd hread (by decide)
  · intro h
    have hread := readsMap_iff.mp (h _ (List.prefix_refl _)) "devnet:Wa11et"
      (isWalletKey_of_all (by decide) (by decide))
    exact absurd hread (by decide)

end SovereignJedi.Manifest
