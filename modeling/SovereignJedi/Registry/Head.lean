import SovereignJedi.Js.Double
import SovereignJedi.Manifest.Storage
import SovereignJedi.Registry.Invariant

/-! Which entry of a registry a client restores. `selectHead` sorts the entries by the time of their
publication, the latest first; the clock of the program counts seconds, so that several entries may
share the latest time. -/

namespace SovereignJedi.Registry

open SovereignJedi.Js SovereignJedi.Manifest

variable {Pubkey Address : Type}

/-! ### Client -/

/-- A timestamp of the client: a number, as its type says, or the object that Anchor decodes an
`i64` to, with the reference by which `!==` compares objects. -/
inductive PublishedAt where
  | number (n : Int)
  | bn (ref : Nat) (n : Int)
  deriving DecidableEq

/-- `Number(t)`. -/
def PublishedAt.toNumber : PublishedAt → Int
  | .number n => n
  | .bn _ n => Double.ofInt n

/-- `a === b`. -/
def PublishedAt.strictEq : PublishedAt → PublishedAt → Bool
  | .number n, .number n' => n == n'
  | .bn ref _, .bn ref' _ => ref == ref'
  | _, _ => false

/-- `RegistryEntry` of the client. -/
structure ClientEntry (Pubkey : Type) where
  manifestCid : String
  manifestCidHash : List UInt8
  publishedAt : PublishedAt
  publisher : Pubkey
  manifestSchemaVersion : UInt8

/-- How the entries of an account are decoded. -/
inductive Decoding where
  | number | bn

/-- The entry at position `i` of an account. -/
def decodeEntry (d : Decoding) (i : Nat) (e : RegistryEntry Pubkey) : ClientEntry Pubkey where
  manifestCid := e.manifestCid
  manifestCidHash := e.manifestCidHash.val
  publishedAt :=
    match d with
    | .number => .number (Double.ofInt e.publishedAt.toInt)
    | .bn => .bn i e.publishedAt.toInt
  publisher := e.publisher
  manifestSchemaVersion := e.manifestSchemaVersion

/-- The entries that `fetchRegistry` returns. -/
def decodeEntries (d : Decoding) (entries : List (RegistryEntry Pubkey)) :
    List (ClientEntry Pubkey) :=
  entries.mapIdx (decodeEntry d)

/-- `Array.prototype.sort`, which is stable. -/
def sort {α : Type} (compareFn : α → α → Int) (xs : List α) : List α :=
  xs.mergeSort fun a b => decide (compareFn a b ≤ 0)

section Select

variable (localeCompare : String → String → Int)

/-- The comparison of `selectHead`. A difference of numbers has the sign of the exact one. -/
def compareHead (a b : ClientEntry Pubkey) : Int :=
  let timeA := a.publishedAt
  let timeB := b.publishedAt
  if !timeA.strictEq timeB then timeB.toNumber - timeA.toNumber
  else localeCompare b.manifestCid a.manifestCid

def selectHead (entries : List (ClientEntry Pubkey)) : Option (ClientEntry Pubkey) :=
  if entries.isEmpty then none else (sort (compareHead localeCompare) entries)[0]?

/-- The CID that the widgets and the home page take for the published one. -/
def onChainLatestManifestCid (onChainRegistry : Option (List (ClientEntry Pubkey))) :
    Option String :=
  match onChainRegistry with
  | none => none
  | some entries =>
    if entries.isEmpty then none
    else (selectHead localeCompare entries).map fun head => head.manifestCid

end Select

/-- The storage after `handleRestore`, which reports an error and does not throw. -/
def handleRestore (cluster : Option String) (walletPubKey onChainLatestManifestCid : Option String)
    (s : LocalStorage) : LocalStorage :=
  match onChainLatestManifestCid, walletPubKey with
  | some cid, some w =>
    if cid = "" ∨ w = "" then s
    else match setManifestCid cluster w cid s with
      | .ok s' => s'
      | .error _ => s
  | _, _ => s

/-! ### Selection -/

/-- What is assumed of `localeCompare`: it is a total order of strings. -/
structure TotalOrder (localeCompare : String → String → Int) : Prop where
  flip : ∀ x y, localeCompare x y ≤ 0 ∨ localeCompare y x ≤ 0
  trans : ∀ x y z, localeCompare x y ≤ 0 → localeCompare y z ≤ 0 → localeCompare x z ≤ 0
  antisymm : ∀ x y, localeCompare x y ≤ 0 → localeCompare y x ≤ 0 → x = y

/-- The latest first, and `tie` between those of one time. -/
def ranked (tie : ClientEntry Pubkey → ClientEntry Pubkey → Bool) (a b : ClientEntry Pubkey) :
    Bool :=
  decide (b.publishedAt.toNumber < a.publishedAt.toNumber) ||
    (decide (a.publishedAt.toNumber = b.publishedAt.toNumber) && tie a b)

theorem ranked_trans {tie : ClientEntry Pubkey → ClientEntry Pubkey → Bool}
    (htie : ∀ a b c, tie a b → tie b c → tie a c) (a b c : ClientEntry Pubkey) :
    ranked tie a b → ranked tie b c → ranked tie a c := by
  simp only [ranked, Bool.or_eq_true, Bool.and_eq_true, decide_eq_true_eq]
  rintro (hab | ⟨hab, htab⟩) (hbc | ⟨hbc, htbc⟩)
  · exact Or.inl (by omega)
  · exact Or.inl (by omega)
  · exact Or.inl (by omega)
  · exact Or.inr ⟨by omega, htie a b c htab htbc⟩

theorem ranked_total {tie : ClientEntry Pubkey → ClientEntry Pubkey → Bool}
    (htie : ∀ a b, tie a b || tie b a) (a b : ClientEntry Pubkey) :
    ranked tie a b || ranked tie b a := by
  have htie := htie a b
  simp only [ranked, Bool.or_eq_true, Bool.and_eq_true, decide_eq_true_eq] at htie ⊢
  rcases Int.lt_trichotomy a.publishedAt.toNumber b.publishedAt.toNumber with h | h | h
  · exact Or.inr (Or.inl h)
  · rcases htie with htie | htie
    · exact Or.inl (Or.inr ⟨h, htie⟩)
    · exact Or.inr (Or.inr ⟨h.symm, htie⟩)
  · exact Or.inl (Or.inl h)

/-- The first entry after a sort comes before all others, when the comparison is consistent on the
entries that are sorted. -/
theorem sort_head {α : Type} {compareFn : α → α → Int} {le : α → α → Bool} {xs : List α} {head : α}
    (hle : ∀ a ∈ xs, ∀ b ∈ xs, decide (compareFn a b ≤ 0) = le a b)
    (htrans : ∀ a b c, le a b → le b c → le a c) (htotal : ∀ a b, le a b || le b a)
    (h : (sort compareFn xs)[0]? = some head) : head ∈ xs ∧ ∀ x ∈ xs, le head x := by
  have hsort : sort compareFn xs = xs.mergeSort le := by
    simpa [sort] using List.map_mergeSort (f := id) hle
  have hsorted := List.pairwise_mergeSort htrans htotal xs
  rw [hsort] at h
  obtain ⟨rest, hrest⟩ : ∃ rest, xs.mergeSort le = head :: rest := by
    cases hxs : xs.mergeSort le with
    | nil => simp [hxs] at h
    | cons y rest =>
      rw [hxs] at h
      obtain rfl : y = head := by simpa using h
      exact ⟨rest, rfl⟩
  have hmem : ∀ x, x ∈ head :: rest ↔ x ∈ xs := fun x => hrest ▸ List.mem_mergeSort
  rw [hrest, List.pairwise_cons] at hsorted
  refine ⟨(hmem head).mp (by simp), fun x hx => ?_⟩
  rcases List.mem_cons.mp ((hmem x).mpr hx) with rfl | hx
  · simpa using htotal x x
  · exact hsorted.1 x hx

/-- The time of an entry, as the client compares it. -/
def RegistryEntry.time (e : RegistryEntry Pubkey) : Int := Double.ofInt e.publishedAt.toInt

theorem toNumber_decodeEntry (d : Decoding) (i : Nat) (e : RegistryEntry Pubkey) :
    (decodeEntry d i e).publishedAt.toNumber = e.time := by
  cases d <;> rfl

theorem strictEq_number (i j : Nat) (e e' : RegistryEntry Pubkey) :
    (decodeEntry .number i e).publishedAt.strictEq (decodeEntry .number j e').publishedAt =
      decide (e.time = e'.time) := rfl

theorem strictEq_bn (i j : Nat) (e e' : RegistryEntry Pubkey) :
    (decodeEntry .bn i e).publishedAt.strictEq (decodeEntry .bn j e').publishedAt =
      decide (i = j) := rfl

theorem mem_decodeEntries {d : Decoding} {entries : List (RegistryEntry Pubkey)}
    {x : ClientEntry Pubkey} :
    x ∈ decodeEntries d entries ↔ ∃ i e, entries[i]? = some e ∧ x = decodeEntry d i e := by
  rw [decodeEntries, List.mem_iff_getElem?]
  simp only [List.getElem?_mapIdx, Option.map_eq_some_iff]
  simp only [eq_comm]

variable {localeCompare : String → String → Int}

/-- `compareHead` breaks a tie by the CID only between numbers: two `BN` objects are never the
same. -/
def tieOf (localeCompare : String → String → Int) (d : Decoding) (a b : ClientEntry Pubkey) : Bool :=
  match d with
  | .number => decide (localeCompare b.manifestCid a.manifestCid ≤ 0)
  | .bn => true

theorem compareHead_ranked (horder : TotalOrder localeCompare) (d : Decoding)
    {entries : List (RegistryEntry Pubkey)} {a b : ClientEntry Pubkey}
    (ha : a ∈ decodeEntries d entries) (hb : b ∈ decodeEntries d entries) :
    decide (compareHead localeCompare a b ≤ 0) = ranked (tieOf localeCompare d) a b := by
  obtain ⟨i, e, he, rfl⟩ := mem_decodeEntries.mp ha
  obtain ⟨j, e', he', rfl⟩ := mem_decodeEntries.mp hb
  rw [Bool.eq_iff_iff]
  simp only [compareHead, ranked, toNumber_decodeEntry, Bool.or_eq_true, Bool.and_eq_true,
    decide_eq_true_eq, Bool.not_eq_true']
  cases d with
  | number =>
    rw [strictEq_number]
    by_cases htime : e.time = e'.time
    · simp only [htime, decide_true, Bool.true_eq_false, if_false, lt_self_iff_false, true_and,
        false_or]
      exact decide_eq_true_iff.symm
    · rw [if_pos (decide_eq_false htime)]
      omega
  | bn =>
    rw [strictEq_bn]
    by_cases hij : i = j
    · subst hij
      obtain rfl : e = e' := Option.some.inj (he.symm.trans he')
      have hself : localeCompare e.manifestCid e.manifestCid ≤ 0 := (horder.flip _ _).elim id id
      simpa [tieOf, decodeEntry] using hself
    · rw [if_pos (decide_eq_false hij)]
      simp only [tieOf, and_true]
      omega

theorem tieOf_trans (horder : TotalOrder localeCompare) (d : Decoding)
    (a b c : ClientEntry Pubkey) :
    tieOf localeCompare d a b → tieOf localeCompare d b c → tieOf localeCompare d a c := by
  cases d with
  | number =>
    simp only [tieOf, decide_eq_true_eq]
    exact fun hab hbc => horder.trans _ _ _ hbc hab
  | bn => exact fun _ _ => rfl

theorem tieOf_total (horder : TotalOrder localeCompare) (d : Decoding)
    (a b : ClientEntry Pubkey) : tieOf localeCompare d a b || tieOf localeCompare d b a := by
  cases d with
  | number =>
    simp only [tieOf, Bool.or_eq_true, decide_eq_true_eq]
    exact horder.flip _ _
  | bn => rfl

/-- The head is an entry of the latest time. -/
theorem selectHead_eq_some (horder : TotalOrder localeCompare) (d : Decoding)
    {entries : List (RegistryEntry Pubkey)} (hne : entries ≠ []) :
    ∃ i e, entries[i]? = some e ∧
      selectHead localeCompare (decodeEntries d entries) = some (decodeEntry d i e) ∧
      ∀ e' ∈ entries, e'.time ≤ e.time := by
  have hlen : 0 < (sort (compareHead localeCompare) (decodeEntries d entries)).length := by
    simpa [sort, decodeEntries] using List.length_pos_iff.mpr hne
  obtain ⟨head, hhead⟩ : ∃ head,
      (sort (compareHead localeCompare) (decodeEntries d entries))[0]? = some head :=
    ⟨_, List.getElem?_eq_getElem hlen⟩
  obtain ⟨hmem, hfirst⟩ := sort_head (fun a ha b hb => compareHead_ranked horder d ha hb)
    (ranked_trans (tieOf_trans horder d)) (ranked_total (tieOf_total horder d)) hhead
  obtain ⟨i, e, he, rfl⟩ := mem_decodeEntries.mp hmem
  refine ⟨i, e, he, ?_, fun e' he' => ?_⟩
  · have hempty : (decodeEntries d entries).isEmpty = false := by
      simpa [decodeEntries] using hne
    rw [selectHead, hempty]
    exact hhead
  · obtain ⟨j, hj⟩ := List.mem_iff_getElem?.mp he'
    have hrank := hfirst _ (mem_decodeEntries.mpr ⟨j, e', hj, rfl⟩)
    simp only [ranked, toNumber_decodeEntry, Bool.or_eq_true, Bool.and_eq_true,
      decide_eq_true_eq] at hrank
    omega

/-! ### Runs -/

variable {rt : Runtime Pubkey Address} [DecidableEq Pubkey] [DecidableEq Address]

/-- The accounts after the instructions `ixs`, successful or rejected. -/
def executeAll (rt : Runtime Pubkey Address) (s : Accounts Pubkey Address)
    (ixs : List (Instruction Pubkey Address)) : Accounts Pubkey Address :=
  ixs.foldl (execute rt) s

/-- The clock never goes back. -/
def Clocked (ixs : List (Instruction Pubkey Address)) : Prop :=
  ixs.Pairwise fun ix ix' => ix.ctx.unixTimestamp ≤ ix'.ctx.unixTimestamp

/-- Every entry was published at `now` or before, and has a valid CID. -/
def PublishedBy (now : Int64) (s : Accounts Pubkey Address) : Prop :=
  ∀ address a, s address = some a → ∀ e ∈ a.entries,
    e.publishedAt ≤ now ∧ validateCidStrict e.manifestCid = .ok ()

theorem PublishedBy.execute {now : Int64} {s : Accounts Pubkey Address} (h : PublishedBy now s)
    {ix : Instruction Pubkey Address} (hix : ix.ctx.unixTimestamp ≤ now) :
    PublishedBy now (execute rt s ix) := by
  intro address b hb e he
  rcases execute_cases rt s ix with hsame | ⟨a, hc⟩ | ⟨a, cid, happend⟩
  · exact h address b (hsame ▸ hb) e he
  · rw [hc.accounts] at hb
    by_cases hat : address = ix.ctx.registry
    · subst hat
      obtain rfl : a = b := by simpa using hb
      simp [hc.entries] at he
    · exact h address b (by simpa [hat] using hb) e he
  · rw [happend.accounts] at hb
    by_cases hat : address = ix.ctx.registry
    · subst hat
      rw [Function.update_self, Option.some.injEq] at hb
      subst hb
      rcases List.mem_append.mp he with he | he
      · exact h _ a happend.found e he
      · obtain rfl := List.mem_singleton.mp he
        exact ⟨hix, happend.valid⟩
    · exact h address b (by simpa [hat] using hb) e he

theorem publishedBy_executeAll {now : Int64} {ixs : List (Instruction Pubkey Address)}
    (hixs : ∀ ix ∈ ixs, ix.ctx.unixTimestamp ≤ now) {s : Accounts Pubkey Address}
    (hs : PublishedBy now s) : PublishedBy now (executeAll rt s ixs) := by
  induction ixs generalizing s with
  | nil => exact hs
  | cons ix ixs ih =>
    rw [List.forall_mem_cons] at hixs
    exact ih hixs.2 (hs.execute hixs.1)

/-! ### Restoring -/

omit [DecidableEq Pubkey] [DecidableEq Address] in
theorem time_mono {e e' : RegistryEntry Pubkey} (h : e.publishedAt ≤ e'.publishedAt) :
    e.time ≤ e'.time :=
  Double.ofInt_mono (Int64.le_iff_toInt_le.mp h)

theorem isSpace_of_base32 {c : Char} (h : isBase32Char c = true) : isSpace c = false := by
  simp only [isBase32Char, isAsciiLowercase, Bool.or_eq_true, Bool.and_eq_true, decide_eq_true_eq,
    Char.le_def, UInt32.le_iff_toNat_le] at h
  have hrange : (97 ≤ c.toNat ∧ c.toNat ≤ 122) ∨ (50 ≤ c.toNat ∧ c.toNat ≤ 55) := h
  simp only [isSpace, List.mem_cons, List.not_mem_nil, or_false, decide_eq_false_iff_not,
    Bool.or_eq_false_iff, Bool.and_eq_false_iff]
  omega

theorem isSpace_of_base58 {c : Char} (h : c ∈ base58Chars) : isSpace c = false := by
  have halph : (base58Chars.all fun c => !isSpace c) = true := by decide
  simpa using List.all_eq_true.mp halph c h

theorem validateCidStrict_chars {cid : String} (h : validateCidStrict cid = .ok ()) :
    cid ≠ "" ∧ ∀ c ∈ cid.toList, isSpace c = false := by
  simp only [validateCidStrict, except_bind_eq_ok, require_eq_ok, exists_const, Bool.not_eq_true',
    decide_eq_true_eq] at h
  obtain ⟨-, hne, hchars⟩ := h
  refine ⟨by rintro rfl; simp at hne, fun c hc => ?_⟩
  split at hchars
  · rename_i cs hcid
    rw [require_eq_ok, List.all_eq_true] at hchars
    rcases List.mem_cons.mp (hcid ▸ hc) with rfl | hc
    · decide
    · exact isSpace_of_base32 (hchars c hc)
  · rw [require_eq_ok, List.all_eq_true] at hchars
    exact isSpace_of_base58 (List.contains_iff_mem.mp (hchars c hc))
  · cases hchars

/-- Restoring a valid CID sets the pointer of the wallet to it. -/
theorem pointer_handleRestore (cluster : Option String) (w : WalletPubKey) {cid : String}
    (h : validateCidStrict cid = .ok ()) (s : LocalStorage) :
    pointer cluster w (handleRestore cluster (some w.val) (some cid) s) = some cid := by
  obtain ⟨hne, hchars⟩ := validateCidStrict_chars h
  have htrim := trim_of_no_space hchars
  simp only [handleRestore, hne, w.ne, or_self, if_false, setManifestCid_val cluster w htrim hne]
  exact pointer_set_same cluster w htrim hne s

/-- After an append, the head of the account is an entry that was published at the time of that
append (as JavaScript numbers, which are exact below `2 ^ 53`), and the entry of the append itself
when no earlier entry has this time. Restoring sets the pointer to the CID of the head. -/
theorem restore_latest {localeCompare : String → String → Int} (horder : TotalOrder localeCompare)
    {ixs : List (Instruction Pubkey Address)} {ctx : Context Pubkey Address} {vaultIdHash : Hash}
    {cid : String} {version : UInt8}
    (hclock : Clocked (ixs ++ [.appendManifest ctx vaultIdHash cid version]))
    {s' : Accounts Pubkey Address}
    (happend : process rt (executeAll rt (fun _ => none) ixs)
      (.appendManifest ctx vaultIdHash cid version) = .ok s')
    {a : RegistryAccount Pubkey} (ha : s' ctx.registry = some a) (d : Decoding) :
    ∃ earlier i e, a.entries = earlier ++ [newEntry rt ctx cid version] ∧
      a.entries[i]? = some e ∧
      selectHead localeCompare (decodeEntries d a.entries) = some (decodeEntry d i e) ∧
      e.time = (newEntry rt ctx cid version).time ∧
      ((∀ e' ∈ earlier, e'.time < (newEntry rt ctx cid version).time) → i = earlier.length) ∧
      ∀ cluster (w : WalletPubKey) s,
        pointer cluster w (handleRestore cluster (some w.val)
          (onChainLatestManifestCid localeCompare (some (decodeEntries d a.entries))) s) =
            some e.manifestCid := by
  obtain ⟨rfl, b, hb⟩ := process_appendManifest happend
  have hbefore : ∀ ix ∈ ixs, ix.ctx.unixTimestamp ≤ ctx.unixTimestamp := by
    intro ix hix
    have hlast := (List.pairwise_append.mp hclock).2.2 ix hix _ (List.mem_singleton_self _)
    exact hlast
  have hpublished : PublishedBy ctx.unixTimestamp s' := by
    have hs : PublishedBy ctx.unixTimestamp (executeAll rt (fun _ => none) ixs) :=
      publishedBy_executeAll hbefore fun _ _ h => by cases h
    have hs' : PublishedBy ctx.unixTimestamp (execute rt (executeAll rt (fun _ => none) ixs)
        (.appendManifest ctx vaultIdHash cid 1)) := hs.execute Int64.le_rfl
    rwa [execute, happend] at hs'
  obtain rfl : { b with
      entries := b.entries ++ [newEntry rt ctx cid 1]
      updatedAt := ctx.unixTimestamp } = a := by
    rw [hb.accounts, Function.update_self] at ha
    exact Option.some.inj ha
  obtain ⟨i, e, he, hhead, hlatest⟩ := selectHead_eq_some horder d
    (show b.entries ++ [newEntry rt ctx cid 1] ≠ [] by simp)
  have hentry := hpublished _ _ ha e (List.mem_of_getElem? he)
  have htime : e.time = (newEntry rt ctx cid 1).time :=
    Int.le_antisymm (time_mono hentry.1) (hlatest _ (by simp))
  refine ⟨b.entries, i, e, rfl, he, hhead, htime, fun hearlier => ?_, fun cluster w s => ?_⟩
  · -- an earlier entry has an earlier time than the head
    have hi : ¬ i < b.entries.length := fun hi => by
      rw [List.getElem?_append_left hi] at he
      have := hearlier e (List.mem_of_getElem? he)
      omega
    have hi' := (List.getElem?_eq_some_iff.mp he).1
    rw [List.length_append, List.length_singleton] at hi'
    omega
  · have hempty : (decodeEntries d (b.entries ++ [newEntry rt ctx cid 1])).isEmpty = false := by
      simp [decodeEntries]
    simp only [onChainLatestManifestCid, hempty, hhead, Option.map_some]
    exact pointer_handleRestore cluster w hentry.2 s

/-- `localeCompare` where it follows the code points, as it does on digits and small letters. -/
def sampleCompare (x y : String) : Int := if x ≤ y then if y ≤ x then 0 else -1 else 1

theorem sampleCompare_le {x y : String} : sampleCompare x y ≤ 0 ↔ x ≤ y := by
  unfold sampleCompare
  split
  · split <;> simp [*]
  · simp [*]

theorem sampleCompare_order : TotalOrder sampleCompare where
  flip x y := by
    rw [sampleCompare_le, sampleCompare_le]
    exact String.le_total x y
  trans x y z := by
    rw [sampleCompare_le, sampleCompare_le, sampleCompare_le]
    exact String.le_trans
  antisymm x y := by
    rw [sampleCompare_le, sampleCompare_le]
    exact String.le_antisymm

/-- The wallet initialises its registry and publishes `bb`, in one second. -/
def samplePublications : List (Instruction Nat (Nat × Hash)) :=
  [.initRegistry sampleContext "local-default" sampleHash 1,
    .appendManifest sampleContext sampleHash "bb" 1]

/-- The account after `ba` was published in the same second. -/
def sampleTwice : RegistryAccount Nat where
  registryVersion := 1
  manifestSchemaVersion := 1
  wallet := 7
  vaultId := "local-default"
  entries := [newEntry sampleRuntime sampleContext "bb" 1,
    newEntry sampleRuntime sampleContext "ba" 1]
  createdAt := 1700000000
  updatedAt := 1700000000

theorem samplePublications_clocked :
    Clocked (samplePublications ++ [.appendManifest sampleContext sampleHash "ba" 1]) := by
  unfold Clocked
  decide

theorem restore_latest_sample : ∃ earlier i e,
    sampleTwice.entries = earlier ++ [newEntry sampleRuntime sampleContext "ba" 1] ∧
      sampleTwice.entries[i]? = some e ∧
      selectHead sampleCompare (decodeEntries .bn sampleTwice.entries) =
        some (decodeEntry .bn i e) ∧
      e.time = (newEntry sampleRuntime sampleContext "ba" 1).time ∧
      ((∀ e' ∈ earlier, e'.time < (newEntry sampleRuntime sampleContext "ba" 1).time) →
        i = earlier.length) ∧
      ∀ cluster (w : WalletPubKey) s,
        pointer cluster w (handleRestore cluster (some w.val)
          (onChainLatestManifestCid sampleCompare
            (some (decodeEntries .bn sampleTwice.entries))) s) = some e.manifestCid :=
  restore_latest sampleCompare_order samplePublications_clocked rfl rfl .bn

theorem sampleTwice_sorted (d : Decoding) :
    (decodeEntries d sampleTwice.entries).Pairwise fun a b =>
      decide (compareHead sampleCompare a b ≤ 0) := by
  cases d <;> decide

/-- Two publications in one second: the head is the first of them, not the last. -/
theorem head_is_not_last :
    ∃ s', Clocked (samplePublications ++ [.appendManifest sampleContext sampleHash "ba" 1]) ∧
      process sampleRuntime (executeAll sampleRuntime (fun _ => none) samplePublications)
        (.appendManifest sampleContext sampleHash "ba" 1) = .ok s' ∧
      s' sampleContext.registry = some sampleTwice ∧
      ∀ d, selectHead sampleCompare (decodeEntries d sampleTwice.entries) =
          some (decodeEntry d 0 (newEntry sampleRuntime sampleContext "bb" 1)) ∧
        (decodeEntries d sampleTwice.entries).getLast? =
          some (decodeEntry d 1 (newEntry sampleRuntime sampleContext "ba" 1)) := by
  refine ⟨_, samplePublications_clocked, rfl, rfl, fun d => ⟨?_, by cases d <;> rfl⟩⟩
  rw [selectHead, sort, List.mergeSort_of_pairwise (sampleTwice_sorted d)]
  cases d <;> rfl

end SovereignJedi.Registry
