import SovereignJedi.Registry.Program

/-! What holds of the registry accounts over any run of the program: every account is well formed
for the wallet and hash of its address, its history only grows, and only its wallet makes it
grow. -/

namespace SovereignJedi.Registry

variable {Pubkey Address : Type} {rt : Runtime Pubkey Address}

/-! ### Checks -/

theorem except_bind_eq_ok {ε α β : Type} {r : Except ε α} {f : α → Except ε β} {b : β} :
    (r >>= f) = .ok b ↔ ∃ a, r = .ok a ∧ f a = .ok b := by
  cases r <;> simp [bind, Except.bind]

theorem mapError_eq_ok {ε ε' α : Type} {r : Except ε α} {f : ε → ε'} {a : α} :
    r.mapError f = .ok a ↔ r = .ok a := by
  cases r with
  | error e =>
    change Except.error (f e) = .ok a ↔ _
    simp
  | ok b => exact ⟨fun h => congrArg _ (Except.ok.inj h), fun h => congrArg _ (Except.ok.inj h)⟩

theorem except_pure_eq_ok {ε α : Type} {a b : α} : (pure a : Except ε α) = .ok b ↔ a = b := by
  simp [pure, Except.pure]

theorem require_eq_ok {b : Bool} {e : ErrorCode} {u : Unit} : require b e = .ok u ↔ b = true := by
  cases b <;> simp [require]

theorem constraint_eq_ok {b : Bool} {e : ProgramError} {u : Unit} :
    constraint b e = .ok u ↔ b = true := by
  cases b <;> simp [constraint]

theorem forM_require_eq_ok {α : Type} {p : α → Bool} {e : ErrorCode} {xs : List α} {u : Unit} :
    (xs.forM fun x => require (p x) e) = .ok u ↔ ∀ x ∈ xs, p x = true := by
  induction xs with
  | nil => simp [pure, Except.pure]
  | cons x xs ih =>
    rw [List.forM_eq_forM] at ih ⊢
    rw [List.forM_cons, except_bind_eq_ok]
    simp only [require_eq_ok, exists_const, ih, List.forall_mem_cons]

theorem loadAccount_eq_ok {s : Accounts Pubkey Address} {address : Address}
    {a : RegistryAccount Pubkey} : loadAccount s address = .ok a ↔ s address = some a := by
  unfold loadAccount
  cases s address <;> simp

theorem length_le_utf8ByteSize (s : String) : s.toList.length ≤ s.utf8ByteSize := by
  have hlist : ∀ cs : List Char, cs.length ≤ (String.ofList cs).utf8ByteSize := by
    intro cs
    induction cs with
    | nil => simp
    | cons c cs ih =>
      have hpos := c.utf8Size_pos
      rw [String.ofList_cons, String.utf8ByteSize_append, String.utf8ByteSize_singleton,
        List.length_cons]
      omega
  simpa using hlist s.toList

/-- A canonical vault id: one to 32 characters from the set. -/
structure IsVaultId (id : String) : Prop where
  chars : ∀ c ∈ id.toList, isVaultIdChar c = true
  nonempty : 1 ≤ id.toList.length
  length_le : id.toList.length ≤ maxVaultIdLen

theorem validateAndCanonicalizeVaultId_isVaultId {toLowercase : String → String} {id id' : String}
    (h : validateAndCanonicalizeVaultId toLowercase id = .ok id') : IsVaultId id' := by
  simp only [validateAndCanonicalizeVaultId, except_bind_eq_ok, require_eq_ok, exists_const,
    except_pure_eq_ok, Bool.and_eq_true, decide_eq_true_eq, List.all_eq_true] at h
  obtain ⟨⟨hne, hlen⟩, hchars, -, rfl⟩ := h
  refine ⟨hchars, ?_, Nat.le_trans (length_le_utf8ByteSize _) hlen⟩
  refine List.length_pos_iff.mpr fun hnil => ?_
  rw [String.toList_eq_nil_iff.mp hnil] at hne
  simp at hne

/-! ### What an instruction can do -/

variable [DecidableEq Address]

/-- The signer's registry is created, with no entries. -/
structure Creates (rt : Runtime Pubkey Address) (s s' : Accounts Pubkey Address)
    (ctx : Context Pubkey Address) (a : RegistryAccount Pubkey) : Prop where
  signer : ctx.walletIsSigner = true
  address : ctx.registry = rt.registryAddress a.wallet (rt.hash (asBytes a.vaultId))
  fresh : s ctx.registry = none
  wallet : a.wallet = ctx.wallet
  registryVersion : a.registryVersion = 1
  manifestSchemaVersion : a.manifestSchemaVersion = 1
  vaultId : IsVaultId a.vaultId
  entries : a.entries = []
  accounts : s' = Function.update s ctx.registry (some a)

/-- The signer's registry `a` gets an entry for `cid`. -/
structure Appends (rt : Runtime Pubkey Address) (s s' : Accounts Pubkey Address)
    (ctx : Context Pubkey Address) (a : RegistryAccount Pubkey) (cid : String) : Prop where
  signer : ctx.walletIsSigner = true
  found : s ctx.registry = some a
  address : ctx.registry = rt.registryAddress a.wallet (rt.hash (asBytes a.vaultId))
  wallet : a.wallet = ctx.wallet
  room : a.entries.length < maxEntries
  valid : validateCidStrict cid = .ok ()
  unique : ∀ e ∈ a.entries, e.manifestCid ≠ cid
  accounts : s' = Function.update s ctx.registry (some { a with
    entries := a.entries ++ [newEntry rt ctx cid 1]
    updatedAt := ctx.unixTimestamp })

variable [DecidableEq Pubkey]

theorem process_initRegistry {s s' : Accounts Pubkey Address} {ctx : Context Pubkey Address}
    {vaultId : String} {vaultIdHash : Hash} {version : UInt8}
    (h : process rt s (.initRegistry ctx vaultId vaultIdHash version) = .ok s') :
    ∃ a, Creates rt s s' ctx a := by
  simp only [process, InitRegistry, initRegistry, except_bind_eq_ok, mapError_eq_ok,
    require_eq_ok, constraint_eq_ok, exists_const, except_pure_eq_ok, decide_eq_true_eq,
    beq_iff_eq, Option.isNone_iff_eq_none] at h
  obtain ⟨⟨hsigner, haddress, hfresh⟩, a, ⟨rfl, id, hid, hhash, rfl⟩, rfl⟩ := h
  exact ⟨_, hsigner, hhash ▸ haddress, hfresh, rfl, rfl, rfl,
    validateAndCanonicalizeVaultId_isVaultId hid, rfl, rfl⟩

theorem process_appendManifest {s s' : Accounts Pubkey Address} {ctx : Context Pubkey Address}
    {vaultIdHash : Hash} {cid : String} {version : UInt8}
    (h : process rt s (.appendManifest ctx vaultIdHash cid version) = .ok s') :
    version = 1 ∧ ∃ a, Appends rt s s' ctx a cid := by
  simp only [process, AppendManifest, appendManifest, except_bind_eq_ok, mapError_eq_ok,
    require_eq_ok, constraint_eq_ok, loadAccount_eq_ok, exists_const, except_pure_eq_ok,
    decide_eq_true_eq, beq_iff_eq, forM_require_eq_ok, bne_iff_ne] at h
  obtain ⟨_, ⟨a, hfound, hsigner, haddress, hwallet, rfl⟩, _,
    ⟨rfl, hroom, _, hvalid, hhash, hunique, rfl⟩, rfl⟩ := h
  have haddress' : ctx.registry = rt.registryAddress a.wallet (rt.hash (asBytes a.vaultId)) := by
    rw [haddress, hhash, hwallet]
  exact ⟨rfl, a, hsigner, hfound, haddress', hwallet, hroom, hvalid, hunique, rfl⟩

/-- An instruction that succeeds creates the signer's registry or appends to it. -/
theorem process_cases {s s' : Accounts Pubkey Address} {ix : Instruction Pubkey Address}
    (h : process rt s ix = .ok s') :
    (∃ a, Creates rt s s' ix.ctx a) ∨ ∃ a cid, Appends rt s s' ix.ctx a cid := by
  cases ix with
  | initRegistry ctx vaultId vaultIdHash version => exact Or.inl (process_initRegistry h)
  | appendManifest ctx vaultIdHash cid version =>
    obtain ⟨-, a, ha⟩ := process_appendManifest h
    exact Or.inr ⟨a, cid, ha⟩

theorem execute_cases (rt : Runtime Pubkey Address) (s : Accounts Pubkey Address)
    (ix : Instruction Pubkey Address) :
    execute rt s ix = s ∨ (∃ a, Creates rt s (execute rt s ix) ix.ctx a) ∨
      ∃ a cid, Appends rt s (execute rt s ix) ix.ctx a cid := by
  unfold execute
  cases h : process rt s ix with
  | error e => exact Or.inl rfl
  | ok s' => exact Or.inr (process_cases h)

/-! ### Well-formed accounts -/

/-- An entry that `owner` has published. -/
structure WellFormedEntry (rt : Runtime Pubkey Address) (owner : Pubkey)
    (e : RegistryEntry Pubkey) : Prop where
  manifestCid : validateCidStrict e.manifestCid = .ok ()
  manifestCidHash : e.manifestCidHash = rt.hash (asBytes e.manifestCid)
  publisher : e.publisher = owner
  manifestSchemaVersion : e.manifestSchemaVersion = 1

/-- A registry of `owner` for the vault id with hash `hash`. -/
structure WellFormed (rt : Runtime Pubkey Address) (owner : Pubkey) (hash : Hash)
    (a : RegistryAccount Pubkey) : Prop where
  registryVersion : a.registryVersion = 1
  manifestSchemaVersion : a.manifestSchemaVersion = 1
  wallet : a.wallet = owner
  vaultId : IsVaultId a.vaultId
  vaultIdHash : rt.hash (asBytes a.vaultId) = hash
  entries_le : a.entries.length ≤ maxEntries
  cids_nodup : (a.entries.map fun e => e.manifestCid).Nodup
  entries : ∀ e ∈ a.entries, WellFormedEntry rt owner e

/-- Every account is well formed, and stored at the address of its own wallet and vault id. -/
def Invariant (rt : Runtime Pubkey Address) (s : Accounts Pubkey Address) : Prop :=
  ∀ address a, s address = some a →
    address = rt.registryAddress a.wallet (rt.hash (asBytes a.vaultId)) ∧
      WellFormed rt a.wallet (rt.hash (asBytes a.vaultId)) a

omit [DecidableEq Pubkey] in
theorem Creates.wellFormed {s s' : Accounts Pubkey Address} {ctx : Context Pubkey Address}
    {a : RegistryAccount Pubkey} (h : Creates rt s s' ctx a) :
    WellFormed rt a.wallet (rt.hash (asBytes a.vaultId)) a :=
  ⟨h.registryVersion, h.manifestSchemaVersion, rfl, h.vaultId, rfl, by simp [h.entries],
    by simp [h.entries], by simp [h.entries]⟩

omit [DecidableEq Pubkey] in
theorem Appends.wellFormed {s s' : Accounts Pubkey Address} {ctx : Context Pubkey Address}
    {a : RegistryAccount Pubkey} {cid : String} (h : Appends rt s s' ctx a cid) {hash : Hash}
    (ha : WellFormed rt a.wallet hash a) :
    WellFormed rt a.wallet hash { a with
      entries := a.entries ++ [newEntry rt ctx cid 1]
      updatedAt := ctx.unixTimestamp } := by
  have hroom := h.room
  refine { ha with entries_le := ?_, cids_nodup := ?_, entries := ?_ }
  · rw [List.length_append, List.length_singleton]
    omega
  · rw [List.map_append, List.nodup_append]
    refine ⟨ha.cids_nodup, by simp, ?_⟩
    simp only [List.mem_map, List.map_cons, List.map_nil, List.mem_singleton]
    rintro _ ⟨e, he, rfl⟩ _ rfl
    exact h.unique e he
  · intro e he
    rcases List.mem_append.mp he with he | he
    · exact ha.entries e he
    · obtain rfl := List.mem_singleton.mp he
      exact ⟨h.valid, rfl, h.wallet.symm, rfl⟩

/-- Every instruction preserves the invariant. -/
theorem Invariant.execute {s : Accounts Pubkey Address} (h : Invariant rt s)
    (ix : Instruction Pubkey Address) : Invariant rt (execute rt s ix) := by
  intro address b hb
  rcases execute_cases rt s ix with hsame | ⟨a, hc⟩ | ⟨a, cid, happend⟩
  · exact h address b (hsame ▸ hb)
  · rw [hc.accounts] at hb
    by_cases hat : address = ix.ctx.registry
    · subst hat
      obtain rfl : a = b := by simpa using hb
      exact ⟨hc.address, hc.wellFormed⟩
    · exact h address b (by simpa [hat] using hb)
  · rw [happend.accounts] at hb
    by_cases hat : address = ix.ctx.registry
    · subst hat
      rw [Function.update_self, Option.some.injEq] at hb
      subst hb
      exact ⟨happend.address, happend.wellFormed (h _ a happend.found).2⟩
    · exact h address b (by simpa [hat] using hb)

theorem invariant_of_run {s : Accounts Pubkey Address} (hrun : Run rt (fun _ => none) s) :
    Invariant rt s := by
  induction hrun with
  | refl => exact fun _ _ h => by cases h
  | tail _ hstep ih =>
    obtain ⟨ix, rfl⟩ := hstep
    exact ih.execute ix

/-- In every state that is reached from no accounts, the account at the address of `wallet` and
`vaultIdHash` is well formed for them. -/
theorem registry_invariant
    (hinj : ∀ wallet wallet' hash hash',
      rt.registryAddress wallet hash = rt.registryAddress wallet' hash' →
        wallet = wallet' ∧ hash = hash')
    {s : Accounts Pubkey Address} (hrun : Run rt (fun _ => none) s) {wallet : Pubkey}
    {vaultIdHash : Hash} {a : RegistryAccount Pubkey}
    (ha : s (rt.registryAddress wallet vaultIdHash) = some a) : WellFormed rt wallet vaultIdHash a := by
  obtain ⟨haddress, hwf⟩ := invariant_of_run hrun _ a ha
  obtain ⟨rfl, rfl⟩ := hinj _ _ _ _ haddress
  exact hwf

/-- A runtime whose addresses spell out their seeds. -/
def sampleRuntime : Runtime Nat (Nat × Hash) where
  hash b := ⟨(b ++ List.replicate 32 0).take 32, by simp⟩
  registryAddress := Prod.mk
  toLowercase := id

def sampleHash : Hash := sampleRuntime.hash (asBytes "local-default")

def sampleContext : Context Nat (Nat × Hash) where
  registry := (7, sampleHash)
  wallet := 7
  walletIsSigner := true
  unixTimestamp := 1700000000

/-- The accounts after one wallet has initialised its registry and published a manifest. -/
def sampleAccounts : Accounts Nat (Nat × Hash) :=
  execute sampleRuntime
    (execute sampleRuntime (fun _ => none)
      (.initRegistry sampleContext "local-default" sampleHash 1))
    (.appendManifest sampleContext sampleHash "bafy2" 1)

def sampleAccount : RegistryAccount Nat where
  registryVersion := 1
  manifestSchemaVersion := 1
  wallet := 7
  vaultId := "local-default"
  entries := [newEntry sampleRuntime sampleContext "bafy2" 1]
  createdAt := 1700000000
  updatedAt := 1700000000

theorem registry_invariant_sample : WellFormed sampleRuntime 7 sampleHash sampleAccount :=
  have hrun : Run sampleRuntime (fun _ => none) sampleAccounts :=
    .tail (.single ⟨.initRegistry sampleContext "local-default" sampleHash 1, rfl⟩)
      ⟨.appendManifest sampleContext sampleHash "bafy2" 1, rfl⟩
  registry_invariant (fun _ _ _ _ h => Prod.mk.inj h) hrun rfl

/-! ### History -/

/-- `b` is `a` with the same identity, and possibly more entries after those of `a`. -/
structure RegistryAccount.ExtendedBy (a b : RegistryAccount Pubkey) : Prop where
  wallet : b.wallet = a.wallet
  vaultId : b.vaultId = a.vaultId
  createdAt : b.createdAt = a.createdAt
  registryVersion : b.registryVersion = a.registryVersion
  manifestSchemaVersion : b.manifestSchemaVersion = a.manifestSchemaVersion
  entries : a.entries <+: b.entries

/-- Every account of `s` is in `t`, and is extended there. -/
def Extends (s t : Accounts Pubkey Address) : Prop :=
  ∀ address a, s address = some a → ∃ b, t address = some b ∧ a.ExtendedBy b

/-- Between `s` and `t` at most one account differs: it is the signer's, and has at most one more
entry. -/
def OneAccount (signer : Pubkey) (s t : Accounts Pubkey Address) : Prop :=
  ∃ address, (∀ other, other ≠ address → t other = s other) ∧
    (t address = s address ∨ ∃ b, t address = some b ∧ b.wallet = signer ∧
      match s address with
      | none => b.entries = []
      | some a => ∃ e, b.entries = a.entries ++ [e])

omit [DecidableEq Address] [DecidableEq Pubkey] in
theorem RegistryAccount.ExtendedBy.refl (a : RegistryAccount Pubkey) : a.ExtendedBy a :=
  ⟨rfl, rfl, rfl, rfl, rfl, List.prefix_refl _⟩

omit [DecidableEq Address] [DecidableEq Pubkey] in
theorem RegistryAccount.ExtendedBy.trans {a b c : RegistryAccount Pubkey} (hab : a.ExtendedBy b)
    (hbc : b.ExtendedBy c) : a.ExtendedBy c :=
  ⟨hbc.wallet.trans hab.wallet, hbc.vaultId.trans hab.vaultId, hbc.createdAt.trans hab.createdAt,
    hbc.registryVersion.trans hab.registryVersion,
    hbc.manifestSchemaVersion.trans hab.manifestSchemaVersion, hab.entries.trans hbc.entries⟩

omit [DecidableEq Address] [DecidableEq Pubkey] in
theorem Extends.refl (s : Accounts Pubkey Address) : Extends s s := fun _ a ha => ⟨a, ha, .refl a⟩

omit [DecidableEq Address] [DecidableEq Pubkey] in
theorem Extends.trans {s t u : Accounts Pubkey Address} (h : Extends s t) (h' : Extends t u) :
    Extends s u := by
  intro address a ha
  obtain ⟨b, hb, hab⟩ := h address a ha
  obtain ⟨c, hc, hbc⟩ := h' address b hb
  exact ⟨c, hc, hab.trans hbc⟩

omit [DecidableEq Pubkey] in
theorem extends_update {s : Accounts Pubkey Address} {address : Address}
    {b : RegistryAccount Pubkey} (h : ∀ a, s address = some a → a.ExtendedBy b) :
    Extends s (Function.update s address (some b)) := by
  intro other a ha
  by_cases hat : other = address
  · subst hat
    exact ⟨b, Function.update_self .., h a ha⟩
  · exact ⟨a, (Function.update_of_ne hat ..).trans ha, .refl a⟩

theorem extends_execute (s : Accounts Pubkey Address) (ix : Instruction Pubkey Address) :
    Extends s (execute rt s ix) := by
  rcases execute_cases rt s ix with hsame | ⟨a, hc⟩ | ⟨a, cid, happend⟩
  · rw [hsame]
    exact Extends.refl s
  · rw [hc.accounts]
    refine extends_update fun a' ha' => ?_
    rw [hc.fresh] at ha'
    cases ha'
  · rw [happend.accounts]
    refine extends_update fun a' ha' => ?_
    obtain rfl := Option.some.inj (happend.found.symm.trans ha')
    exact ⟨rfl, rfl, rfl, rfl, rfl, List.prefix_append _ _⟩

theorem extends_of_run {s t : Accounts Pubkey Address} (hrun : Run rt s t) : Extends s t := by
  induction hrun with
  | refl => exact Extends.refl s
  | tail _ hstep ih =>
    obtain ⟨ix, rfl⟩ := hstep
    exact ih.trans (extends_execute _ ix)

theorem oneAccount_execute (s : Accounts Pubkey Address) (ix : Instruction Pubkey Address) :
    OneAccount ix.ctx.wallet s (execute rt s ix) := by
  refine ⟨ix.ctx.registry, ?_⟩
  rcases execute_cases rt s ix with hsame | ⟨a, hc⟩ | ⟨a, cid, happend⟩
  · rw [hsame]
    exact ⟨fun _ _ => rfl, Or.inl rfl⟩
  · rw [hc.accounts]
    refine ⟨fun other hother => Function.update_of_ne hother ..,
      Or.inr ⟨a, Function.update_self .., hc.wallet, ?_⟩⟩
    rw [hc.fresh]
    exact hc.entries
  · rw [happend.accounts]
    refine ⟨fun other hother => Function.update_of_ne hother ..,
      Or.inr ⟨_, Function.update_self .., ?_, ?_⟩⟩
    · exact happend.wallet
    · rw [happend.found]
      exact ⟨_, rfl⟩

/-- The registries are append-only and owner-only: along every run histories are only extended, each
instruction touches at most one account, its signer's, and one that is rejected touches none. -/
theorem registry_history :
    (∀ s t : Accounts Pubkey Address, Run rt s t → Extends s t) ∧
    (∀ (s : Accounts Pubkey Address) (ix : Instruction Pubkey Address),
      OneAccount ix.ctx.wallet s (execute rt s ix) ∧
        (execute rt s ix ≠ s → ix.ctx.walletIsSigner = true)) ∧
    ∀ (s : Accounts Pubkey Address) (ix : Instruction Pubkey Address) (e : ProgramError),
      process rt s ix = .error e → execute rt s ix = s := by
  refine ⟨fun s t => extends_of_run, fun s ix => ⟨oneAccount_execute s ix, fun hne => ?_⟩, ?_⟩
  · rcases execute_cases rt s ix with hsame | ⟨a, hc⟩ | ⟨a, cid, happend⟩
    · exact absurd hsame hne
    · exact hc.signer
    · exact happend.signer
  · intro s ix e h
    rw [execute, h]

end SovereignJedi.Registry
