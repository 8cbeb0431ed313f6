import SovereignJedi.Registry.Client

/-! Publishing a manifest. `publishManifest` reads the registry of the wallet and then sends one
transaction: an append, after an initialisation when the read has found no registry. Other
publishers may come between the read and the transaction, which is atomic. -/

namespace SovereignJedi.Registry

open SovereignJedi.Js (UnicodeData trimBy_eq_self isSpace)
open SovereignJedi.Js.UnicodeData

variable {Pubkey Address : Type}

/-! ### Transactions -/

section Transactions

variable [DecidableEq Pubkey] [DecidableEq Address] (rt : Runtime Pubkey Address)

/-- The accounts after the instructions of a transaction, when all of them succeed. -/
def processTransaction (s : Accounts Pubkey Address) (tx : List (Instruction Pubkey Address)) :
    Except ProgramError (Accounts Pubkey Address) :=
  tx.foldlM (process rt) s

/-- The accounts after a transaction: one that fails has no effect. -/
def executeTransaction (s : Accounts Pubkey Address) (tx : List (Instruction Pubkey Address)) :
    Accounts Pubkey Address :=
  match processTransaction rt s tx with
  | .ok s' => s'
  | .error _ => s

end Transactions

/-- The transaction that `publishManifest` sends, for the registry that it has read. -/
def publishManifest (U : UnicodeData) (rt : Runtime Pubkey Address) (wallet : Pubkey)
    (vaultId manifestCid : String) (manifestSchemaVersion : UInt8)
    (registry : Option (RegistryAccount Pubkey)) (now : Int64) : List (Instruction Pubkey Address) :=
  let appendIx :=
    createAppendManifestInstruction U rt wallet vaultId manifestCid manifestSchemaVersion now
  if registry.isNone then
    [createInitRegistryInstruction U rt wallet vaultId manifestSchemaVersion now, appendIx]
  else [appendIx]

/-! ### Vault ids in canonical form -/

theorem isVaultIdChar_cases {c : Char} (h : isVaultIdChar c = true) :
    (97 ≤ c.toNat ∧ c.toNat ≤ 122) ∨ (48 ≤ c.toNat ∧ c.toNat ≤ 57) ∨ c.toNat = 45 ∨ c.toNat = 95 := by
  simp only [isVaultIdChar, isAsciiLowercase, isAsciiDigit, Bool.or_eq_true, Bool.and_eq_true,
    decide_eq_true_eq, beq_iff_eq] at h
  rcases h with ((⟨ha, hz⟩ | ⟨h0, h9⟩) | rfl) | rfl
  · exact Or.inl ⟨ha, hz⟩
  · exact Or.inr (Or.inl ⟨h0, h9⟩)
  · exact Or.inr (Or.inr (Or.inl rfl))
  · exact Or.inr (Or.inr (Or.inr rfl))

theorem utf8ByteSize_eq_length {s : String} (h : ∀ c ∈ s.toList, c.toNat < 128) :
    s.utf8ByteSize = s.toList.length := by
  have hlist : ∀ cs : List Char, (∀ c ∈ cs, c.toNat < 128) →
      (String.ofList cs).utf8ByteSize = cs.length := by
    intro cs
    induction cs with
    | nil => simp
    | cons c cs ih =>
      intro hcs
      have hc : c.utf8Size = 1 := by
        rw [Char.utf8Size, if_pos]
        have := hcs c (by simp)
        exact Nat.le_of_lt_succ this
      rw [String.ofList_cons, String.utf8ByteSize_append, String.utf8ByteSize_singleton, hc,
        ih fun d hd => hcs d (List.mem_cons_of_mem _ hd), List.length_cons, Nat.add_comm]
  simpa using hlist s.toList h

section Canonical

variable {vaultId : String} (hid : IsVaultId vaultId)
include hid

theorem IsVaultId.ascii {c : Char} (hc : c ∈ vaultId.toList) : c.toNat < 128 := by
  have := isVaultIdChar_cases (hid.chars c hc)
  omega

theorem IsVaultId.not_isSpace {c : Char} (hc : c ∈ vaultId.toList) : isSpace c = false := by
  have := isVaultIdChar_cases (hid.chars c hc)
  simp only [isSpace, List.mem_cons, List.not_mem_nil, or_false, Bool.or_eq_false_iff,
    decide_eq_false_iff_not, Bool.and_eq_false_iff]
  omega

theorem IsVaultId.not_isWhitespace {c : Char} (hc : c ∈ vaultId.toList) : isWhitespace c = false := by
  have := isVaultIdChar_cases (hid.chars c hc)
  simp only [isWhitespace, Bool.or_eq_false_iff, Bool.and_eq_false_iff, decide_eq_false_iff_not,
    beq_eq_false_iff_ne]
  omega

theorem IsVaultId.toLower {c : Char} (hc : c ∈ vaultId.toList) : c.toLower = c := by
  have hcases := isVaultIdChar_cases (hid.chars c hc)
  refine dif_neg ?_
  rintro ⟨hge, hle⟩
  have hA : 65 ≤ c.toNat := hge
  have hZ : c.toNat ≤ 90 := hle
  omega

theorem IsVaultId.toLowercase {U : UnicodeData} (hU : U.Standard) :
    U.toLowercase vaultId = vaultId := by
  apply toLowercase_eq_self
  intro c hc
  constructor
  · rw [hU.ascii c (hid.ascii hc), hid.toLower hc]
  · rintro rfl
    have := hid.ascii hc
    simp [capitalSigma] at this

theorem IsVaultId.trim : trim vaultId = vaultId := by
  rw [trim_eq_trimBy, trimBy_eq_self fun c hc => hid.not_isWhitespace hc, String.ofList_toList]

theorem IsVaultId.vaultIdCanonical {U : UnicodeData} (hU : U.Standard) :
    vaultIdCanonical U vaultId = vaultId := by
  rw [Registry.vaultIdCanonical, js_trim_eq_trimBy, trimBy_eq_self fun c hc => hid.not_isSpace hc,
    String.ofList_toList, hid.toLowercase hU]

theorem IsVaultId.utf8ByteSize_le : vaultId.utf8ByteSize ≤ maxVaultIdLen := by
  rw [utf8ByteSize_eq_length fun c hc => hid.ascii hc]
  exact hid.length_le

theorem IsVaultId.isEmpty_eq : vaultId.isEmpty = false := by
  rw [← Bool.not_eq_true, String.isEmpty_iff]
  rintro rfl
  have := hid.nonempty
  simp at this

/-- A vault id in canonical form is accepted as it is. -/
theorem IsVaultId.validate {U : UnicodeData} (hU : U.Standard) :
    validateAndCanonicalizeVaultId U.toLowercase vaultId = .ok vaultId := by
  have hspace : vaultId.toList.contains ' ' = false := by
    rw [← Bool.not_eq_true, List.contains_iff_mem]
    intro hmem
    have := isVaultIdChar_cases (hid.chars _ hmem)
    simp at this
  have hupper : vaultId.toList.any isAsciiUppercase = false := by
    rw [List.any_eq_false]
    intro c hc hupper
    have := isVaultIdChar_cases (hid.chars c hc)
    simp only [isAsciiUppercase, Bool.and_eq_true, decide_eq_true_eq] at hupper
    have hA : 65 ≤ c.toNat := hupper.1
    have hZ : c.toNat ≤ 90 := hupper.2
    omega
  have hchars : vaultId.toList.all isVaultIdChar = true := List.all_eq_true.mpr hid.chars
  simp only [validateAndCanonicalizeVaultId, hid.trim, hid.toLowercase hU, hid.isEmpty_eq,
    hid.utf8ByteSize_le, hchars, hspace, hupper, except_bind_eq_ok, require_eq_ok, exists_const,
    except_pure_eq_ok]
  simp

end Canonical

/-! ### Publishing -/

section Publishing

variable [DecidableEq Pubkey] [DecidableEq Address] {U : UnicodeData} {rt : Runtime Pubkey Address}
  {s t : Accounts Pubkey Address} {wallet : Pubkey} {vaultId cid : String} {now : Int64}

def entriesOf (registry : Option (RegistryAccount Pubkey)) : List (RegistryEntry Pubkey) :=
  match registry with
  | none => []
  | some a => a.entries

/-- The program takes `cid` as a further entry. -/
structure Publishable (entries : List (RegistryEntry Pubkey)) (cid : String) : Prop where
  valid : validateCidStrict cid = .ok ()
  unique : ∀ e ∈ entries, e.manifestCid ≠ cid
  room : entries.length < maxEntries

/-- In `t`, the registry of `wallet` and `vaultId` has its entries of `s` followed by one for `cid`,
and no other account has changed. -/
structure Published (U : UnicodeData) (rt : Runtime Pubkey Address) (s t : Accounts Pubkey Address)
    (wallet : Pubkey) (vaultId cid : String) (now : Int64) : Prop where
  registry : ∃ a, fetchRegistry U rt t wallet vaultId = some a ∧ a.wallet = wallet ∧
    a.entries = entriesOf (fetchRegistry U rt s wallet vaultId) ++
      [newEntry rt (clientContext U rt wallet vaultId now) cid 1]
  others : ∀ address, address ≠ getRegistryAddress U rt wallet vaultId → t address = s address

theorem run_of_process {ix : Instruction Pubkey Address} (h : process rt s ix = .ok t) :
    Run rt s t := by
  refine .single ⟨ix, ?_⟩
  rw [execute, h]

omit [DecidableEq Pubkey] in
theorem fetchRegistry_update (s : Accounts Pubkey Address) (wallet : Pubkey) (vaultId : String)
    (a : RegistryAccount Pubkey) : fetchRegistry U rt
      (Function.update s (getRegistryAddress U rt wallet vaultId) (some a)) wallet vaultId = some a :=
  Function.update_self ..

theorem process_createAppendManifestInstruction (cid : String) (now : Int64)
    (t : Accounts Pubkey Address) {a : RegistryAccount Pubkey}
    (hfound : fetchRegistry U rt s wallet vaultId = some a) (hwallet : a.wallet = wallet)
    (hhash : rt.hash (asBytes a.vaultId) = vaultIdHash U rt vaultId) :
    process rt s (createAppendManifestInstruction U rt wallet vaultId cid 1 now) = .ok t ↔
      Publishable a.entries cid ∧ Function.update s (getRegistryAddress U rt wallet vaultId)
        (some { a with
          entries := a.entries ++ [newEntry rt (clientContext U rt wallet vaultId now) cid 1]
          updatedAt := now }) = t := by
  have hconstraints : AppendManifest rt s (clientContext U rt wallet vaultId now)
      (vaultIdHash U rt vaultId) = .ok a := by
    refine except_bind_eq_ok.mpr ⟨a, loadAccount_eq_ok.mpr hfound, ?_⟩
    refine except_bind_eq_ok.mpr ⟨(), rfl, except_bind_eq_ok.mpr ⟨(), ?_, ?_⟩⟩
    · exact constraint_eq_ok.mpr (decide_eq_true rfl)
    · exact except_bind_eq_ok.mpr ⟨(), constraint_eq_ok.mpr (decide_eq_true hwallet), rfl⟩
  rw [createAppendManifestInstruction, process, except_bind_eq_ok]
  simp only [hconstraints, Except.ok.injEq, exists_eq_left', except_bind_eq_ok, mapError_eq_ok,
    appendManifest, require_eq_ok, exists_const, except_pure_eq_ok, forM_require_eq_ok, bne_iff_ne,
    decide_eq_true_eq, hhash]
  constructor
  · rintro ⟨_, ⟨-, hroom, _, hvalid, -, hunique, rfl⟩, rfl⟩
    exact ⟨⟨hvalid, hunique, hroom⟩, rfl⟩
  · rintro ⟨⟨hvalid, hunique, hroom⟩, rfl⟩
    exact ⟨_, ⟨rfl, hroom, (), hvalid, trivial, hunique, rfl⟩, rfl⟩

/-- A registry of `wallet` for the hash of `vaultId` takes what is publishable. -/
theorem process_append_published (cid : String) (now : Int64) {a : RegistryAccount Pubkey}
    (hfound : fetchRegistry U rt s wallet vaultId = some a) (hwallet : a.wallet = wallet)
    (hhash : rt.hash (asBytes a.vaultId) = vaultIdHash U rt vaultId) :
    (∀ t, process rt s (createAppendManifestInstruction U rt wallet vaultId cid 1 now) = .ok t →
      Published U rt s t wallet vaultId cid now) ∧
    ((∃ t, process rt s (createAppendManifestInstruction U rt wallet vaultId cid 1 now) = .ok t) ↔
      Publishable a.entries cid) := by
  have hiff := fun t : Accounts Pubkey Address =>
    process_createAppendManifestInstruction cid now t hfound hwallet hhash
  constructor
  · intro t ht
    obtain ⟨-, rfl⟩ := (hiff t).mp ht
    refine ⟨⟨_, fetchRegistry_update .., hwallet, ?_⟩, fun address hne => ?_⟩
    · rw [hfound]
      rfl
    · exact Function.update_of_ne hne ..
  · simp only [hiff, exists_and_left, exists_eq', and_true]

theorem processTransaction_pair (ix ix' : Instruction Pubkey Address) :
    processTransaction rt s [ix, ix'] = (process rt s ix >>= fun s' => process rt s' ix') := by
  simp [processTransaction]

theorem processTransaction_single (ix : Instruction Pubkey Address) :
    processTransaction rt s [ix] = process rt s ix := by
  simp [processTransaction]

/-- What a transaction of `publishManifest` does, for the registry `registry` that was read. -/
structure PublishOutcome (U : UnicodeData) (rt : Runtime Pubkey Address)
    (s : Accounts Pubkey Address) (wallet : Pubkey) (vaultId cid : String) (now : Int64)
    (registry : Option (RegistryAccount Pubkey)) (condition : Prop) : Prop where
  succeeds : (∃ t, processTransaction rt s
    (publishManifest U rt wallet vaultId cid 1 registry now) = .ok t) ↔ condition
  published : condition → Published U rt s (executeTransaction rt s
    (publishManifest U rt wallet vaultId cid 1 registry now)) wallet vaultId cid now
  unchanged : ¬ condition → executeTransaction rt s
    (publishManifest U rt wallet vaultId cid 1 registry now) = s

/-- The outcome follows from the accounts of a transaction that succeeds. -/
theorem publishOutcome_of {registry : Option (RegistryAccount Pubkey)} {condition : Prop}
    (hiff : (∃ t, processTransaction rt s
      (publishManifest U rt wallet vaultId cid 1 registry now) = .ok t) ↔ condition)
    (hok : ∀ t, processTransaction rt s
      (publishManifest U rt wallet vaultId cid 1 registry now) = .ok t →
        Published U rt s t wallet vaultId cid now) :
    PublishOutcome U rt s wallet vaultId cid now registry condition where
  succeeds := hiff
  published := by
    intro h
    obtain ⟨t, ht⟩ := hiff.mpr h
    rw [executeTransaction, ht]
    exact hok t ht
  unchanged := by
    intro h
    unfold executeTransaction
    cases ht : processTransaction rt s
        (publishManifest U rt wallet vaultId cid 1 registry now) with
    | ok t => exact absurd (hiff.mp ⟨t, ht⟩) h
    | error e => rfl

/-- With a registry read, and one there at the time of the transaction. -/
theorem publish_existing (a₀ : RegistryAccount Pubkey) {a : RegistryAccount Pubkey}
    (hfound : fetchRegistry U rt s wallet vaultId = some a) (hwallet : a.wallet = wallet)
    (hhash : rt.hash (asBytes a.vaultId) = vaultIdHash U rt vaultId) :
    PublishOutcome U rt s wallet vaultId cid now (some a₀) (Publishable a.entries cid) := by
  obtain ⟨hok, hiff⟩ := process_append_published cid now hfound hwallet hhash
  have htx : processTransaction rt s (publishManifest U rt wallet vaultId cid 1 (some a₀) now) =
      process rt s (createAppendManifestInstruction U rt wallet vaultId cid 1 now) :=
    processTransaction_single _
  apply publishOutcome_of
  · rw [htx]
    exact hiff
  · rw [htx]
    exact hok

/-- With no registry read, and none there at the time of the transaction: it is created first. -/
theorem publish_fresh (hvalid : validateAndCanonicalizeVaultId rt.toLowercase vaultId = .ok vaultId)
    (hhash : rt.hash (asBytes vaultId) = vaultIdHash U rt vaultId)
    (hfresh : fetchRegistry U rt s wallet vaultId = none) :
    PublishOutcome U rt s wallet vaultId cid now none
      (Publishable (entriesOf (fetchRegistry U rt s wallet vaultId)) cid) := by
  have hinit := process_createInitRegistryInstruction now hvalid hhash hfresh
  have hfound : fetchRegistry U rt (Function.update s (getRegistryAddress U rt wallet vaultId)
      (some (initialAccount wallet vaultId now))) wallet vaultId = _ := fetchRegistry_update ..
  obtain ⟨hok, hiff⟩ := process_append_published cid now hfound rfl hhash
  have htx : processTransaction rt s (publishManifest U rt wallet vaultId cid 1 none now) =
      process rt (Function.update s (getRegistryAddress U rt wallet vaultId)
        (some (initialAccount wallet vaultId now)))
          (createAppendManifestInstruction U rt wallet vaultId cid 1 now) := by
    rw [publishManifest, if_pos Option.isNone_none, processTransaction_pair, hinit]
    rfl
  apply publishOutcome_of
  · rw [htx, hfresh]
    exact hiff
  · intro t ht
    rw [htx] at ht
    obtain ⟨a, ha, hwallet, hentries⟩ := (hok t ht).registry
    rw [hfound] at hentries
    refine ⟨⟨a, ha, hwallet, ?_⟩, fun address hne => ?_⟩
    · rw [hfresh]
      exact hentries
    · rw [(hok t ht).others address hne, Function.update_of_ne hne]

/-- With no registry read, and one created since: the initialisation fails. -/
theorem publish_stale {a : RegistryAccount Pubkey}
    (hfound : fetchRegistry U rt s wallet vaultId = some a) :
    PublishOutcome U rt s wallet vaultId cid now none False := by
  have hfails : ¬ ∃ t, processTransaction rt s
      (publishManifest U rt wallet vaultId cid 1 none now) = .ok t := by
    rw [publishManifest, if_pos Option.isNone_none]
    rintro ⟨t, ht⟩
    rw [processTransaction_pair, except_bind_eq_ok] at ht
    obtain ⟨s', hinit, -⟩ := ht
    obtain ⟨b, hc⟩ := process_initRegistry hinit
    cases hc.fresh.symm.trans hfound
  exact publishOutcome_of (iff_of_false hfails id) fun t ht => absurd ⟨t, ht⟩ hfails

/-- Publishing over a registry that was read at `s₀`, while the accounts have gone on to `s`. The
transaction fails if the registry was created in between; otherwise it succeeds for what the
registry takes now, and appends it. -/
theorem publish_outcome (hU : U.Standard) (hlower : rt.toLowercase = U.toLowercase)
    (hinj : ∀ wallet wallet' hash hash',
      rt.registryAddress wallet hash = rt.registryAddress wallet' hash' →
        wallet = wallet' ∧ hash = hash')
    {s₀ : Accounts Pubkey Address} (hreach : Run rt (fun _ => none) s₀) (hrun : Run rt s₀ s)
    (hid : IsVaultId vaultId) :
    PublishOutcome U rt s wallet vaultId cid now (fetchRegistry U rt s₀ wallet vaultId)
      ((fetchRegistry U rt s₀ wallet vaultId = none → fetchRegistry U rt s wallet vaultId = none) ∧
        Publishable (entriesOf (fetchRegistry U rt s wallet vaultId)) cid) := by
  have hhash : rt.hash (asBytes vaultId) = vaultIdHash U rt vaultId := by
    rw [vaultIdHash, hid.vaultIdCanonical hU]
  cases hread : fetchRegistry U rt s₀ wallet vaultId with
  | none =>
    cases hfound : fetchRegistry U rt s wallet vaultId with
    | none => simpa [hfound] using publish_fresh (hlower ▸ hid.validate hU) hhash hfound
    | some a => simpa using publish_stale hfound
  | some a₀ =>
    obtain ⟨a, hfound, -⟩ := extends_of_run hrun _ a₀ hread
    obtain ⟨haddress, -⟩ := invariant_of_run (hreach.trans hrun) _ a hfound
    obtain ⟨hwallet, hvaultId⟩ := hinj _ _ _ _ haddress
    rw [fetchRegistry, hfound]
    simpa [entriesOf] using
      publish_existing a₀ hfound hwallet.symm hvaultId.symm

omit [DecidableEq Pubkey] [DecidableEq Address] in
/-- A publication changes the registry. -/
theorem Published.ne (h : Published U rt s t wallet vaultId cid now) :
    fetchRegistry U rt t wallet vaultId ≠ fetchRegistry U rt s wallet vaultId := by
  intro hsame
  obtain ⟨a, ha, -, hentries⟩ := h.registry
  rw [← hsame, ha, entriesOf] at hentries
  have hlength := congrArg List.length hentries
  rw [List.length_append, List.length_singleton] at hlength
  omega

end Publishing

/-! ### Samples -/

theorem isVaultId_sample : IsVaultId "local-default" where
  chars := List.all_eq_true.mp (by decide)
  nonempty := by decide
  length_le := by decide

/-- The registry of a wallet that has published one manifest. -/
def samplePublished : RegistryAccount Nat :=
  { initialAccount 7 "local-default" 1700000000 with
    entries := [newEntry latinRuntime
      (clientContext basicLatin latinRuntime 7 "local-default" 1700000000) "bafy2" 1] }

/-- The account `a` alone, as the registry of wallet 7. -/
def sampleRegistryOf (a : RegistryAccount Nat) : Accounts Nat (Nat × Hash) :=
  Function.update (fun _ => none) (getRegistryAddress basicLatin latinRuntime 7 "local-default")
    (some a)

theorem fetchRegistry_sampleRegistryOf (a : RegistryAccount Nat) :
    fetchRegistry basicLatin latinRuntime (sampleRegistryOf a) 7 "local-default" = some a :=
  fetchRegistry_update ..

theorem sample_hash :
    latinRuntime.hash (asBytes "local-default") =
      vaultIdHash basicLatin latinRuntime "local-default" := by
  rw [vaultIdHash, isVaultId_sample.vaultIdCanonical basicLatin_standard]

theorem sample_initRegistry : process latinRuntime (fun _ => none)
    (createInitRegistryInstruction basicLatin latinRuntime 7 "local-default" 1 1700000000) =
      .ok (sampleRegistryOf (initialAccount 7 "local-default" 1700000000)) :=
  process_createInitRegistryInstruction _ (isVaultId_sample.validate basicLatin_standard) sample_hash rfl

theorem sample_appendManifest : process latinRuntime
    (sampleRegistryOf (initialAccount 7 "local-default" 1700000000))
    (createAppendManifestInstruction basicLatin latinRuntime 7 "local-default" "bafy2" 1 1700000000) =
      .ok (sampleRegistryOf samplePublished) := by
  refine (process_createAppendManifestInstruction _ _ _ (fetchRegistry_sampleRegistryOf _) rfl
    sample_hash).mpr ⟨⟨by decide, fun e he => absurd he List.not_mem_nil, by decide⟩, ?_⟩
  exact Function.update_idem ..

/-- The registry after a second publication. -/
def sampleAhead : RegistryAccount Nat :=
  { samplePublished with
    entries := samplePublished.entries ++ [newEntry latinRuntime
      (clientContext basicLatin latinRuntime 7 "local-default" 1700000001) "bafy3" 1]
    updatedAt := 1700000001 }

theorem sample_appendManifest_again : process latinRuntime (sampleRegistryOf samplePublished)
    (createAppendManifestInstruction basicLatin latinRuntime 7 "local-default" "bafy3" 1 1700000001) =
      .ok (sampleRegistryOf sampleAhead) :=
  (process_createAppendManifestInstruction _ _ _ (fetchRegistry_sampleRegistryOf _) rfl
    sample_hash).mpr ⟨⟨by decide, by decide, by decide⟩, Function.update_idem ..⟩

/-- A wallet publishes a third manifest, with the registry read before the second was published. -/
theorem publish_outcome_sample : Published basicLatin latinRuntime (sampleRegistryOf sampleAhead)
    (executeTransaction latinRuntime (sampleRegistryOf sampleAhead)
      (publishManifest basicLatin latinRuntime 7 "local-default" "bafy4" 1
        (fetchRegistry basicLatin latinRuntime (sampleRegistryOf samplePublished) 7 "local-default")
        1700000002)) 7 "local-default" "bafy4" 1700000002 := by
  have hreach : Run latinRuntime (fun _ => none) (sampleRegistryOf samplePublished) :=
    (run_of_process sample_initRegistry).trans (run_of_process sample_appendManifest)
  have houtcome : PublishOutcome basicLatin latinRuntime _ 7 "local-default" "bafy4" 1700000002 _ _ :=
    publish_outcome basicLatin_standard rfl (fun _ _ _ _ h => Prod.mk.inj h) hreach
      (run_of_process sample_appendManifest_again) isVaultId_sample
  refine houtcome.published ⟨fun h => ?_, ?_⟩
  · rw [fetchRegistry_sampleRegistryOf] at h
    cases h
  · rw [fetchRegistry_sampleRegistryOf]
    exact ⟨by decide, by decide, by decide⟩

/-- A registry that has got another entry since it was read still gets the new one. -/
theorem stale_read_publishes : ∃ s₀ s : Accounts Nat (Nat × Hash),
    Run latinRuntime (fun _ => none) s₀ ∧ Run latinRuntime s₀ s ∧
      fetchRegistry basicLatin latinRuntime s 7 "local-default" ≠
        fetchRegistry basicLatin latinRuntime s₀ 7 "local-default" ∧
      executeTransaction latinRuntime s (publishManifest basicLatin latinRuntime 7 "local-default"
        "bafy3" 1 (fetchRegistry basicLatin latinRuntime s₀ 7 "local-default") 1700000000) ≠ s := by
  have hpublish : Published basicLatin latinRuntime (sampleRegistryOf samplePublished) _ 7
      "local-default" "bafy3" 1700000000 :=
    (publish_existing (initialAccount 7 "local-default" 1700000000)
      (fetchRegistry_sampleRegistryOf samplePublished) rfl sample_hash).published
        ⟨by decide, by decide, by decide⟩
  refine ⟨_, _, run_of_process sample_initRegistry, run_of_process sample_appendManifest,
    fun hsame => ?_, fun hsame => ?_⟩
  · rw [fetchRegistry_sampleRegistryOf, fetchRegistry_sampleRegistryOf, Option.some.injEq] at hsame
    cases congrArg RegistryAccount.entries hsame
  · rw [fetchRegistry_sampleRegistryOf] at hsame
    rw [hsame] at hpublish
    exact hpublish.ne rfl

end SovereignJedi.Registry
