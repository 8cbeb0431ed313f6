import SovereignJedi.Js.Value
import Mathlib.Logic.Function.Basic

/-! The manifest pointer of `storage.ts`: one `localStorage` item for each wallet and cluster, with
a migration from the older items that had no cluster in their key. For wallet public keys the items
never collide, and the pointer is a map from wallets to CIDs. -/

namespace SovereignJedi.Manifest

open SovereignJedi.Js

/-- `window.localStorage`. -/
abbrev LocalStorage := String → Option String

def setItem (s : LocalStorage) (key value : String) : LocalStorage :=
  Function.update s key (some value)

/-- `PREFIX`, under a name of its own. -/
def manifestCidPrefix : String := "sj:manifestCid:"

def canonicalizeWalletPubKey (walletPubKey : String) : Result String :=
  let pk := trim walletPubKey
  if pk = "" then
    .error (.error "canonicalizeWalletPubKey: walletPubKey must be a non-empty string")
  else if pk.toList.any isSpace then
    .error (.error "canonicalizeWalletPubKey: walletPubKey must not contain whitespace")
  else .ok pk

/-- `process.env.NEXT_PUBLIC_SOLANA_CLUSTER || 'devnet'`. -/
def storageCluster (cluster : Option String) : String :=
  match cluster with
  | none => "devnet"
  | some c => if c = "" then "devnet" else c

def scopedKey (cluster : Option String) (pk : String) : String :=
  manifestCidPrefix ++ storageCluster cluster ++ ":" ++ pk

def legacyKey (pk : String) : String := manifestCidPrefix ++ pk

def buildManifestStorageKey (cluster : Option String) (walletPubKey : String) : Result String :=
  return scopedKey cluster (← canonicalizeWalletPubKey walletPubKey)

/-- `raw.trim()`, with a blank item read as no item. -/
def cidFound (raw : Option String) : Option String :=
  raw.bind fun r => if trim r = "" then none else some (trim r)

/-- The storage after the migration step of `getManifestCid`: a missing item is copied from the
unscoped one, when that one is not blank. -/
def migrate (cluster : Option String) (pk : String) (s : LocalStorage) : LocalStorage :=
  match s (scopedKey cluster pk), s (legacyKey pk) with
  | none, some legacy =>
    if trim legacy = "" then s else setItem s (scopedKey cluster pk) legacy
  | _, _ => s

def getManifestCid (cluster : Option String) (walletPubKey : String) (s : LocalStorage) :
    Result (LocalStorage × Option String) := do
  let pk ← canonicalizeWalletPubKey walletPubKey
  let key ← buildManifestStorageKey cluster pk
  let s := migrate cluster pk s
  return (s, cidFound (s key))

def setManifestCid (cluster : Option String) (walletPubKey cid : String) (s : LocalStorage) :
    Result LocalStorage := do
  if trim cid = "" then throw (.error "setManifestCid: cid must be a non-empty string")
  let pk ← canonicalizeWalletPubKey walletPubKey
  let key ← buildManifestStorageKey cluster pk
  return setItem s key (trim cid)

/-! ### Wallet public keys -/

def base58Alphabet : List Char :=
  "123456789ABCDEFGHJKLMNPQRSTUVWXYZabcdefghijkmnopqrstuvwxyz".toList

/-- The public key of a connected wallet, in base 58. -/
structure WalletPubKey where
  val : String
  ne : val ≠ ""
  base58 : ∀ c ∈ val.toList, c ∈ base58Alphabet

instance : DecidableEq WalletPubKey := fun a b =>
  decidable_of_iff (a.val = b.val) ⟨fun h => by cases a; cases b; simp_all, fun h => h ▸ rfl⟩

theorem WalletPubKey.val_injective {a b : WalletPubKey} (h : a.val = b.val) : a = b := by
  cases a
  cases b
  simp_all

/-- A check of `base58` that can be run. -/
theorem base58_of_all {s : String} (h : (s.toList.all fun c => base58Alphabet.contains c) = true) :
    ∀ c ∈ s.toList, c ∈ base58Alphabet := by
  simpa using h

theorem WalletPubKey.no_space (w : WalletPubKey) : ∀ c ∈ w.val.toList, isSpace c = false := by
  have halph : (base58Alphabet.all fun c => !isSpace c) = true := by decide
  exact fun c hc => by simpa using List.all_eq_true.mp halph c (w.base58 c hc)

theorem WalletPubKey.no_colon (w : WalletPubKey) : ':' ∉ w.val.toList := by
  have halph : ':' ∉ base58Alphabet := by decide
  exact fun h => halph (w.base58 _ h)

@[simp] theorem WalletPubKey.trim_val (w : WalletPubKey) : trim w.val = w.val :=
  trim_of_no_space w.no_space

@[simp] theorem canonicalizeWalletPubKey_val (w : WalletPubKey) :
    canonicalizeWalletPubKey w.val = .ok w.val := by
  have hspace : w.val.toList.any isSpace = false := by
    simpa using w.no_space
  simp [canonicalizeWalletPubKey, w.ne, hspace]

@[simp] theorem buildManifestStorageKey_val (cluster : Option String) (w : WalletPubKey) :
    buildManifestStorageKey cluster w.val = .ok (scopedKey cluster w.val) := by
  simp [buildManifestStorageKey]

theorem scopedKey_injective {cluster : Option String} {w w' : WalletPubKey}
    (h : scopedKey cluster w.val = scopedKey cluster w'.val) : w = w' :=
  WalletPubKey.val_injective (by simpa [scopedKey, String.append_right_inj] using h)

theorem scopedKey_ne_legacyKey (cluster : Option String) (w w' : WalletPubKey) :
    scopedKey cluster w.val ≠ legacyKey w'.val := by
  intro h
  have hlist := congrArg String.toList h
  simp only [scopedKey, legacyKey, String.toList_append, List.append_assoc,
    List.append_cancel_left_eq] at hlist
  exact w'.no_colon (hlist ▸ by simp)

/-! ### The pointer as a map -/

section Pointer

variable (cluster : Option String)

/-- The manifest CID that the storage holds for `w`. -/
def pointer (w : WalletPubKey) (s : LocalStorage) : Option String :=
  cidFound ((s (scopedKey cluster w.val)).or
    ((s (legacyKey w.val)).filter fun l => trim l != ""))

theorem getManifestCid_val (w : WalletPubKey) (s : LocalStorage) :
    getManifestCid cluster w.val s = .ok (migrate cluster w.val s, pointer cluster w s) := by
  have hvalue : cidFound (migrate cluster w.val s (scopedKey cluster w.val)) = pointer cluster w s := by
    unfold migrate pointer
    cases hs : s (scopedKey cluster w.val) with
    | some raw => simp [hs]
    | none =>
      cases hl : s (legacyKey w.val) with
      | none => simp [hs]
      | some legacy =>
        by_cases hblank : trim legacy = ""
        · simp [hs, hblank, Option.filter_some]
        · simp [hblank, setItem, Option.filter_some]
  simp [getManifestCid, ← hvalue]

theorem pointer_setItem_scoped (w w' : WalletPubKey) (value : String) (s : LocalStorage) :
    pointer cluster w' (setItem s (scopedKey cluster w.val) value) =
      if w' = w then cidFound (some value) else pointer cluster w' s := by
  have hlegacy := scopedKey_ne_legacyKey cluster w w'
  by_cases h : w' = w
  · subst h
    simp [pointer, setItem]
  · have hscoped : scopedKey cluster w'.val ≠ scopedKey cluster w.val :=
      fun e => h (scopedKey_injective e)
    simp [pointer, setItem, h, hscoped, Ne.symm hlegacy]

/-- Reading the pointer of a wallet changes no pointer. -/
@[simp] theorem pointer_migrate (w w' : WalletPubKey) (s : LocalStorage) :
    pointer cluster w' (migrate cluster w.val s) = pointer cluster w' s := by
  unfold migrate
  split
  · rename_i legacy hs hl
    split
    · rfl
    · rename_i hblank
      rw [pointer_setItem_scoped]
      split
      · rename_i h
        subst h
        simp [pointer, hs, hl, hblank, Option.filter_some]
      · rfl
  · rfl

theorem migrate_migrate (pk : String) (s : LocalStorage) :
    migrate cluster pk (migrate cluster pk s) = migrate cluster pk s := by
  unfold migrate
  cases hs : s (scopedKey cluster pk) with
  | some raw => simp [hs]
  | none =>
    cases hl : s (legacyKey pk) with
    | none => simp [hs, hl]
    | some legacy =>
      by_cases hblank : trim legacy = ""
      · simp [hs, hl, hblank]
      · simp [setItem, hblank]

theorem migrate_setItem_scoped (w : WalletPubKey) (value : String) (s : LocalStorage) :
    migrate cluster w.val (setItem s (scopedKey cluster w.val) value) =
      setItem s (scopedKey cluster w.val) value := by
  simp [migrate, setItem]

/-- Setting the pointer of a wallet to a CID, as `addBytes` returns them, sets that pointer only. -/
theorem setManifestCid_val (w : WalletPubKey) {cid : String} (htrim : trim cid = cid)
    (hne : cid ≠ "") (s : LocalStorage) :
    setManifestCid cluster w.val cid s = .ok (setItem s (scopedKey cluster w.val) cid) := by
  simp [setManifestCid, htrim, hne]

theorem pointer_set_same (w : WalletPubKey) {cid : String} (htrim : trim cid = cid)
    (hne : cid ≠ "") (s : LocalStorage) :
    pointer cluster w (setItem s (scopedKey cluster w.val) cid) = some cid := by
  rw [pointer_setItem_scoped, if_pos rfl]
  simp [cidFound, htrim, hne]

theorem pointer_set_ne {w w' : WalletPubKey} (h : w' ≠ w) (cid : String) (s : LocalStorage) :
    pointer cluster w' (setItem s (scopedKey cluster w.val) cid) = pointer cluster w' s := by
  rw [pointer_setItem_scoped, if_neg h]

end Pointer

end SovereignJedi.Manifest
