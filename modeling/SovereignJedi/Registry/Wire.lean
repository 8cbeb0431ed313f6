import SovereignJedi.Codec.Basic
import SovereignJedi.Registry.Size

/-! The registry program on bytes. A transaction calls the program with bytes, which name an
instruction by their first eight and hold its arguments in Borsh; the accounts are buffers of
`RegistryAccount::SPACE` bytes. What lies between the bytes and the handlers is generated by Anchor:
it is a parameter here, with what is documented of it. On the states that it can reach, the program
on bytes does what the program on accounts does. -/

namespace SovereignJedi.Registry

/-! ### Formats -/

/-- `Pubkey`, 32 bytes. -/
abbrev Key := Hash

/-- The first bytes of an account, and of the calls of the two instructions. -/
def accountDiscriminator : List UInt8 := [113, 93, 106, 201, 100, 166, 146, 98]
def initRegistryDiscriminator : List UInt8 := [131, 22, 4, 103, 24, 94, 163, 239]
def appendManifestDiscriminator : List UInt8 := [212, 148, 34, 70, 1, 252, 58, 30]

def wireLayout : Layout Key where
  pubkey := id
  discriminator := ⟨accountDiscriminator, rfl⟩

/-- The fields of `RegistryEntry`, in the order of `lib.rs`. -/
def entryFields : String × Hash × Int64 × Key × UInt8 ≃ RegistryEntry Key where
  toFun f := ⟨f.1, f.2.1, f.2.2.1, f.2.2.2.1, f.2.2.2.2⟩
  invFun e := (e.manifestCid, e.manifestCidHash, e.publishedAt, e.publisher, e.manifestSchemaVersion)

/-- The fields of `RegistryAccount`, in the order of `lib.rs`. -/
def accountFields : UInt8 × UInt8 × Key × String × List (RegistryEntry Key) × Int64 × Int64 ≃
    RegistryAccount Key where
  toFun f := ⟨f.1, f.2.1, f.2.2.1, f.2.2.2.1, f.2.2.2.2.1, f.2.2.2.2.2.1, f.2.2.2.2.2.2⟩
  invFun a := (a.registryVersion, a.manifestSchemaVersion, a.wallet, a.vaultId, a.entries,
    a.createdAt, a.updatedAt)

/-- `AnchorSerialize` and `AnchorDeserialize` of `RegistryEntry`. -/
def entryCodec : Codec (RegistryEntry Key) :=
  (Codec.string.pair ((Codec.block 32).pair (Codec.i64.pair ((Codec.block 32).pair Codec.byte)))).via
    entryFields.toPEquiv

/-- `AnchorSerialize` and `AnchorDeserialize` of `RegistryAccount`. -/
def accountCodec : Codec (RegistryAccount Key) :=
  (Codec.byte.pair (Codec.byte.pair ((Codec.block 32).pair (Codec.string.pair
    (entryCodec.vec.pair (Codec.i64.pair Codec.i64)))))).via accountFields.toPEquiv

/-- `vault_id: String, vault_id_hash: [u8; 32], manifest_schema_version: u8`. -/
def initRegistryArgs : Codec (String × Hash × UInt8) :=
  Codec.string.pair ((Codec.block 32).pair Codec.byte)

/-- `_vault_id_hash: [u8; 32], manifest_cid: String, manifest_schema_version: u8`. -/
def appendManifestArgs : Codec (Hash × String × UInt8) :=
  (Codec.block 32).pair (Codec.string.pair Codec.byte)

theorem entryCodec_valid {e : RegistryEntry Key} :
    entryCodec.Valid e ↔ e.manifestCid.utf8ByteSize < 2 ^ 32 := by
  rw [entryCodec, Codec.via_valid rfl, ← Codec.string_valid]
  exact and_iff_left ⟨trivial, Codec.i64_valid _, trivial, trivial⟩

theorem accountCodec_valid {a : RegistryAccount Key} : accountCodec.Valid a ↔
    a.vaultId.utf8ByteSize < 2 ^ 32 ∧ a.entries.length < 2 ^ 32 ∧
      ∀ e ∈ a.entries, e.manifestCid.utf8ByteSize < 2 ^ 32 := by
  have hentries : entryCodec.vec.Valid a.entries ↔ a.entries.length < 2 ^ 32 ∧
      ∀ e ∈ a.entries, e.manifestCid.utf8ByteSize < 2 ^ 32 := by
    simp only [Codec.vec_valid, entryCodec_valid]
  rw [← hentries, ← Codec.string_valid, accountCodec, Codec.via_valid rfl]
  constructor
  · rintro ⟨-, -, -, hvault, hvec, -, -⟩
    exact ⟨hvault, hvec⟩
  · rintro ⟨hvault, hvec⟩
    exact ⟨trivial, trivial, trivial, hvault, hvec, Codec.i64_valid _, Codec.i64_valid _⟩

theorem littleEndian_eq (n width : Nat) :
    Codec.littleEndian width n = Borsh.littleEndian n width := by
  induction width generalizing n with
  | zero => rfl
  | succ width ih => rw [Codec.littleEndian, Borsh.littleEndian, ih]

theorem string_write_eq {s : String} (h : s.utf8ByteSize < 2 ^ 32) :
    Codec.string.write s = Borsh.string s := by
  rw [Codec.string_write h, littleEndian_eq]
  rfl

theorem i64_write_eq (n : Int64) : Codec.i64.write n = Borsh.i64 n := by
  rw [Codec.i64_write, littleEndian_eq]
  rfl

theorem entryCodec_write {e : RegistryEntry Key} (h : entryCodec.Valid e) :
    entryCodec.write e = e.serialize wireLayout := by
  rw [entryCodec, Codec.via_write rfl, RegistryEntry.serialize,
    ← string_write_eq (entryCodec_valid.mp h), ← i64_write_eq]
  simp only [List.append_assoc]
  rfl

theorem accountCodec_write {a : RegistryAccount Key} (h : accountCodec.Valid a) :
    accountCodec.write a = a.serialize wireLayout := by
  obtain ⟨hvault, hlength, hentries⟩ := accountCodec_valid.mp h
  have hvec : entryCodec.vec.write a.entries =
      Borsh.vec (RegistryEntry.serialize wireLayout) a.entries := by
    rw [Codec.vec_write hlength, littleEndian_eq, Borsh.vec, Borsh.u32]
    exact congrArg _ (List.flatMap_congr fun e he =>
      entryCodec_write (entryCodec_valid.mpr (hentries e he)))
  rw [accountCodec, Codec.via_write rfl, RegistryAccount.serialize, ← string_write_eq hvault, ← hvec,
    ← i64_write_eq, ← i64_write_eq]
  simp only [List.append_assoc]
  rfl

/-! ### The program on bytes -/

/-- The data of the accounts that the program owns. -/
abbrev AccountData (Address : Type) := Address → Option (List UInt8)

/-- Why a call is rejected: by Anchor or the runtime, or by a handler. -/
inductive WireError where
  | anchor (code : Nat)
  | custom (code : ErrorCode)

/-- A call of one of the two handlers, with its arguments. -/
inductive RegistryCall where
  | initRegistry (vaultId : String) (vaultIdHash : Hash) (manifestSchemaVersion : UInt8)
  | appendManifest (vaultIdHash : Hash) (manifestCid : String) (manifestSchemaVersion : UInt8)

variable {Address : Type}

def RegistryCall.instruction (ctx : Context Key Address) : RegistryCall → Instruction Key Address
  | .initRegistry vaultId vaultIdHash version => .initRegistry ctx vaultId vaultIdHash version
  | .appendManifest vaultIdHash cid version => .appendManifest ctx vaultIdHash cid version

/-- The program as it is deployed: the outcome of a call with any bytes, whether the call can be paid
for, which handler it asks for, if any, and the accounts in their buffers. -/
structure Deployed (Address : Type) where
  call : AccountData Address → Context Key Address → List UInt8 →
    Except WireError (AccountData Address)
  affordable : AccountData Address → Context Key Address → List UInt8 → Prop
  read : List UInt8 → Option RegistryCall
  tryDeserialize : List UInt8 → Option (RegistryAccount Key)
  trySerialize : (buffer : List UInt8) → RegistryAccount Key → Option (List UInt8)

section Anchor

variable [DecidableEq Address]

/-- What is done around a handler. The call is rejected unless the constraints hold and it can be
paid for; the error of the handler is passed on, and the account that it leaves is written to its
buffer. -/
inductive Handles (D : Deployed Address) (data : AccountData Address) (ctx : Context Key Address)
    (bytes buffer : List UInt8) (constraints : Prop) :
    Except ErrorCode (RegistryAccount Key) → Except WireError (AccountData Address) → Prop
  | refused (handler : Except ErrorCode (RegistryAccount Key)) (code : Nat)
      (h : ¬ (constraints ∧ D.affordable data ctx bytes)) :
      Handles D data ctx bytes buffer constraints handler (.error (.anchor code))
  | failed (e : ErrorCode) (h : constraints) :
      Handles D data ctx bytes buffer constraints (.error e) (.error (.custom e))
  | unwritten (registry : RegistryAccount Key) (code : Nat) (h : constraints)
      (hwrite : D.trySerialize buffer registry = none) :
      Handles D data ctx bytes buffer constraints (.ok registry) (.error (.anchor code))
  | written (registry : RegistryAccount Key) (buffer' : List UInt8) (h : constraints)
      (hwrite : D.trySerialize buffer registry = some buffer') :
      Handles D data ctx bytes buffer constraints (.ok registry)
        (.ok (Function.update data ctx.registry (some buffer')))

/-- What is documented of Anchor and Borsh. Arguments and accounts are in Borsh behind their
discriminators, and what follows is ignored; `init` allocates a zeroed buffer at an unused address;
an `Account` is deserialized before the constraints are checked. Calls of no handler, such as those
that manage the published description, do not touch registries. -/
structure Deployed.Anchor (rt : Runtime Key Address) (D : Deployed Address) : Prop where
  read_initRegistry (vaultId : String) (vaultIdHash : Hash) (version : UInt8) (rest : List UInt8)
    (h : vaultId.utf8ByteSize < 2 ^ 32) :
    D.read (initRegistryDiscriminator ++
      (initRegistryArgs.write (vaultId, vaultIdHash, version) ++ rest)) =
        some (.initRegistry vaultId vaultIdHash version)
  read_appendManifest (vaultIdHash : Hash) (cid : String) (version : UInt8) (rest : List UInt8)
    (h : cid.utf8ByteSize < 2 ^ 32) :
    D.read (appendManifestDiscriminator ++
      (appendManifestArgs.write (vaultIdHash, cid, version) ++ rest)) =
        some (.appendManifest vaultIdHash cid version)
  tryDeserialize (a : RegistryAccount Key) (rest : List UInt8) (h : accountCodec.Valid a) :
    D.tryDeserialize (accountDiscriminator ++ (accountCodec.write a ++ rest)) = some a
  trySerialize (buffer : List UInt8) (a : RegistryAccount Key) (h : accountCodec.Valid a)
    (hfits : (a.data wireLayout).length ≤ buffer.length) :
    D.trySerialize buffer a = some (a.data wireLayout ++ buffer.drop (a.data wireLayout).length)
  initRegistry (data : AccountData Address) (ctx : Context Key Address) (bytes : List UInt8)
    (vaultId : String) (vaultIdHash : Hash) (version : UInt8)
    (h : D.read bytes = some (.initRegistry vaultId vaultIdHash version)) :
    Handles D data ctx bytes (List.replicate space 0)
      (ctx.walletIsSigner = true ∧ ctx.registry = rt.registryAddress ctx.wallet vaultIdHash ∧
        data ctx.registry = none)
      (initRegistry rt ctx vaultId vaultIdHash version) (D.call data ctx bytes)
  appendManifest (data : AccountData Address) (ctx : Context Key Address) (bytes : List UInt8)
    (vaultIdHash : Hash) (cid : String) (version : UInt8) (buffer : List UInt8)
    (registry : RegistryAccount Key)
    (h : D.read bytes = some (.appendManifest vaultIdHash cid version))
    (hbuffer : data ctx.registry = some buffer) (hread : D.tryDeserialize buffer = some registry) :
    Handles D data ctx bytes buffer
      (ctx.walletIsSigner = true ∧ ctx.registry = rt.registryAddress ctx.wallet vaultIdHash ∧
        registry.wallet = ctx.wallet)
      (appendManifest rt ctx registry vaultIdHash cid version) (D.call data ctx bytes)
  unloaded (data : AccountData Address) (ctx : Context Key Address) (bytes : List UInt8)
    (vaultIdHash : Hash) (cid : String) (version : UInt8)
    (h : D.read bytes = some (.appendManifest vaultIdHash cid version))
    (hnone : (data ctx.registry).bind D.tryDeserialize = none) :
    ∃ code, D.call data ctx bytes = .error (.anchor code)
  other (data data' : AccountData Address) (ctx : Context Key Address) (bytes : List UInt8)
    (h : D.read bytes = none) (hcall : D.call data ctx bytes = .ok data') (wallet : Key)
    (vaultIdHash : Hash) : data' (rt.registryAddress wallet vaultIdHash) =
      data (rt.registryAddress wallet vaultIdHash)

end Anchor

/-- The data of the accounts after a call. -/
def Deployed.execute (D : Deployed Address) (data : AccountData Address) (ctx : Context Key Address)
    (bytes : List UInt8) : AccountData Address :=
  match D.call data ctx bytes with
  | .ok data' => data'
  | .error _ => data

/-- The data after calls, successful or rejected. -/
def Deployed.executeAll (D : Deployed Address) (data : AccountData Address)
    (calls : List (Context Key Address × List UInt8)) : AccountData Address :=
  calls.foldl (fun data call => D.execute data call.1 call.2) data

/-- Calls with any bytes, by any signers, successful or rejected. -/
abbrev DataRun (D : Deployed Address) : AccountData Address → AccountData Address → Prop :=
  Relation.ReflTransGen fun data data' => ∃ ctx bytes, data' = D.execute data ctx bytes

theorem Deployed.dataRun_executeAll (D : Deployed Address) (data : AccountData Address)
    (calls : List (Context Key Address × List UInt8)) : DataRun D data (D.executeAll data calls) := by
  induction calls generalizing data with
  | nil => exact .refl
  | cons call calls ih => exact .head ⟨call.1, call.2, rfl⟩ (ih _)

/-! ### Accounts and their data -/

/-- A buffer of the allocated size that begins with the data of the account. -/
inductive Stored : List UInt8 → RegistryAccount Key → Prop
  | mk (registry : RegistryAccount Key) (rest : List UInt8) (hvalid : accountCodec.Valid registry)
      (hlength : (registry.data wireLayout ++ rest).length = space) :
      Stored (registry.data wireLayout ++ rest) registry

/-- The data at the addresses of registries hold these accounts, and no others. -/
def Represents (rt : Runtime Key Address) (data : AccountData Address) (s : Accounts Key Address) :
    Prop :=
  ∀ wallet vaultIdHash, Option.Rel Stored (data (rt.registryAddress wallet vaultIdHash))
    (s (rt.registryAddress wallet vaultIdHash))

theorem Stored.eq_append {buffer : List UInt8} {a : RegistryAccount Key} (h : Stored buffer a) :
    accountCodec.Valid a ∧
      ∃ rest, buffer = accountDiscriminator ++ (accountCodec.write a ++ rest) := by
  obtain ⟨_, rest, hvalid, -⟩ := h
  refine ⟨hvalid, rest, ?_⟩
  rw [accountCodec_write hvalid, ← List.append_assoc]
  rfl

theorem Stored.length_eq {buffer : List UInt8} {a : RegistryAccount Key} (h : Stored buffer a) :
    buffer.length = space := by
  cases h with
  | mk _ _ _ hlength => exact hlength

section Representation

variable {rt : Runtime Key Address} {D : Deployed Address} {data : AccountData Address}
  {s : Accounts Key Address} {wallet : Key} {vaultIdHash : Hash}

theorem Represents.none_iff (h : Represents rt data s) :
    data (rt.registryAddress wallet vaultIdHash) = none ↔
      s (rt.registryAddress wallet vaultIdHash) = none := by
  have hat := h wallet vaultIdHash
  generalize data (rt.registryAddress wallet vaultIdHash) = buffer at hat
  generalize s (rt.registryAddress wallet vaultIdHash) = account at hat
  cases hat with
  | none => exact iff_of_true rfl rfl
  | some _ => exact iff_of_false (Option.some_ne_none _) (Option.some_ne_none _)

theorem Represents.stored (h : Represents rt data s) {a : RegistryAccount Key}
    (ha : s (rt.registryAddress wallet vaultIdHash) = some a) :
    ∃ buffer, data (rt.registryAddress wallet vaultIdHash) = some buffer ∧ Stored buffer a := by
  have hat := h wallet vaultIdHash
  rw [ha] at hat
  generalize data (rt.registryAddress wallet vaultIdHash) = buffer at hat
  cases hat with
  | some hstored => exact ⟨_, rfl, hstored⟩

theorem Represents.account (h : Represents rt data s) {buffer : List UInt8}
    (hbuffer : data (rt.registryAddress wallet vaultIdHash) = some buffer) :
    ∃ a, s (rt.registryAddress wallet vaultIdHash) = some a ∧ Stored buffer a := by
  have hat := h wallet vaultIdHash
  rw [hbuffer] at hat
  generalize s (rt.registryAddress wallet vaultIdHash) = account at hat
  cases hat with
  | some hstored => exact ⟨_, rfl, hstored⟩

variable [DecidableEq Address]

theorem Represents.update (h : Represents rt data s) (address : Address) {buffer : List UInt8}
    {a : RegistryAccount Key} (ha : Stored buffer a) :
    Represents rt (Function.update data address (some buffer))
      (Function.update s address (some a)) := by
  intro wallet vaultIdHash
  by_cases hat : rt.registryAddress wallet vaultIdHash = address
  · rw [hat, Function.update_self, Function.update_self]
    exact .some ha
  · rw [Function.update_of_ne hat, Function.update_of_ne hat]
    exact h wallet vaultIdHash

/-- The program reads a stored account. -/
theorem Deployed.Anchor.read_stored (hD : D.Anchor rt) {buffer : List UInt8}
    {a : RegistryAccount Key} (h : Stored buffer a) : D.tryDeserialize buffer = some a := by
  obtain ⟨hvalid, rest, rfl⟩ := h.eq_append
  exact hD.tryDeserialize a rest hvalid

/-- It can write an account that fits into a buffer of the allocated size. -/
theorem Deployed.Anchor.write_of_fits (hD : D.Anchor rt) {buffer : List UInt8}
    {a : RegistryAccount Key} (hbuffer : buffer.length = space) (hvalid : accountCodec.Valid a)
    (hfits : (a.data wireLayout).length ≤ space) :
    ∃ buffer', D.trySerialize buffer a = some buffer' ∧ Stored buffer' a := by
  refine ⟨_, hD.trySerialize buffer a hvalid (hbuffer ▸ hfits), ⟨a, _, hvalid, ?_⟩⟩
  rw [List.length_append, List.length_drop]
  omega

end Representation

/-! ### Refinement -/

section Refinement

variable {rt : Runtime Key Address} {D : Deployed Address} {data : AccountData Address}
  {s : Accounts Key Address}

/-- The outcome of a call on bytes is that of an instruction on accounts: what it leaves represents
what the instruction leaves, and it is rejected with the same error of a handler, or because of a
constraint; unless it cannot be paid for. -/
inductive Agrees (rt : Runtime Key Address) (affordable : Prop) :
    Except WireError (AccountData Address) → Except ProgramError (Accounts Key Address) → Prop
  | ok (data : AccountData Address) (s : Accounts Key Address) (h : Represents rt data s) :
      Agrees rt affordable (.ok data) (.ok s)
  | custom (e : ErrorCode) : Agrees rt affordable (.error (.custom e)) (.error (.custom e))
  | constraint (code : Nat) (e : ProgramError) (h : ∀ c, e ≠ .custom c) :
      Agrees rt affordable (.error (.anchor code)) (.error e)
  | unaffordable (code : Nat) (y : Except ProgramError (Accounts Key Address))
      (h : ¬ affordable) : Agrees rt affordable (.error (.anchor code)) y

/-- What the program keeps in its accounts can be encoded. -/
theorem WellFormed.valid {owner : Key} {hash : Hash} {a : RegistryAccount Key}
    (h : WellFormed rt owner hash a) : accountCodec.Valid a := by
  have hvault := h.vaultId.utf8ByteSize_le
  have hentries := h.entries_le
  simp only [maxVaultIdLen, maxEntries] at hvault hentries
  refine accountCodec_valid.mpr ⟨by omega, by omega, fun e he => ?_⟩
  have hcid := utf8ByteSize_le_of_validateCidStrict (h.entries e he).manifestCid
  simp only [maxCidLen] at hcid
  omega

variable [DecidableEq Address]

/-- A handler that is called under its constraints does to the data what its instruction does to
the accounts. -/
theorem Handles.agrees (hD : D.Anchor rt) (hdata : Represents rt data s) (hinv : Invariant rt s)
    {ctx : Context Key Address} {bytes buffer : List UInt8} {constraints : Prop}
    {handler : Except ErrorCode (RegistryAccount Key)} {x : Except WireError (AccountData Address)}
    {ix : Instruction Key Address} (h : Handles D data ctx bytes buffer constraints handler x)
    (hbuffer : constraints → buffer.length = space)
    (hviolated : ¬ constraints → ∃ e, (∀ c, e ≠ .custom c) ∧ process rt s ix = .error e)
    (hhandled : constraints → process rt s ix =
      (handler.mapError .custom).map fun a => Function.update s ctx.registry (some a)) :
    Agrees rt (D.affordable data ctx bytes) x (process rt s ix) := by
  have hwritten : ∀ {registry}, constraints → handler = .ok registry →
      ∃ buffer', D.trySerialize buffer registry = some buffer' ∧ Stored buffer' registry := by
    rintro registry hconstraints rfl
    have hat : Function.update s ctx.registry (some registry) ctx.registry = some registry :=
      Function.update_self ..
    have hinv' := hinv.process (hhandled hconstraints)
    exact hD.write_of_fits (hbuffer hconstraints) (hinv' _ _ hat).2.valid (hinv'.fits wireLayout hat)
  cases h with
  | refused _ code hrefused =>
    by_cases hconstraints : constraints
    · exact .unaffordable code _ fun haffordable => hrefused ⟨hconstraints, haffordable⟩
    · obtain ⟨e, he, hprocess⟩ := hviolated hconstraints
      rw [hprocess]
      exact .constraint code e he
  | failed e hconstraints =>
    rw [hhandled hconstraints]
    exact .custom e
  | unwritten registry code hconstraints hnone =>
    obtain ⟨buffer', hsome, -⟩ := hwritten hconstraints rfl
    rw [hnone] at hsome
    cases hsome
  | written registry buffer' hconstraints hsome =>
    obtain ⟨_, hsome', hstored⟩ := hwritten hconstraints rfl
    obtain rfl := Option.some.inj (hsome.symm.trans hsome')
    rw [hhandled hconstraints]
    exact .ok _ _ (hdata.update _ hstored)

/-- The constraints of `InitRegistry`. -/
theorem InitRegistry_eq_ok {ctx : Context Key Address} {vaultIdHash : Hash} {u : Unit} :
    InitRegistry rt s ctx vaultIdHash = .ok u ↔ ctx.walletIsSigner = true ∧
      ctx.registry = rt.registryAddress ctx.wallet vaultIdHash ∧ s ctx.registry = none := by
  simp only [InitRegistry, except_bind_eq_ok, constraint_eq_ok, decide_eq_true_eq,
    Option.isNone_iff_eq_none, exists_const]

/-- Those of `AppendManifest`, for the account that is passed. -/
theorem AppendManifest_eq_ok {ctx : Context Key Address} {vaultIdHash : Hash}
    {a : RegistryAccount Key} : AppendManifest rt s ctx vaultIdHash = .ok a ↔
      s ctx.registry = some a ∧ ctx.walletIsSigner = true ∧
        ctx.registry = rt.registryAddress ctx.wallet vaultIdHash ∧ a.wallet = ctx.wallet := by
  simp only [AppendManifest, except_bind_eq_ok, loadAccount_eq_ok, constraint_eq_ok,
    except_pure_eq_ok, decide_eq_true_eq, exists_const]
  constructor
  · rintro ⟨b, hb, hsigner, haddress, hwallet, rfl⟩
    exact ⟨hb, hsigner, haddress, hwallet⟩
  · rintro ⟨ha, hsigner, haddress, hwallet⟩
    exact ⟨a, ha, hsigner, haddress, hwallet, rfl⟩

theorem constraint_ne_custom (b : Bool) {e : ProgramError} (h : ∀ c, e ≠ .custom c)
    (c : ErrorCode) : constraint b e ≠ .error (.custom c) := by
  cases b with
  | true => exact fun h => by cases h
  | false => exact fun hc => h c (Except.error.inj hc)

theorem bind_ne_custom {α β : Type} {x : Except ProgramError α} {f : α → Except ProgramError β}
    (hx : ∀ c, x ≠ .error (.custom c)) (hf : ∀ a c, f a ≠ .error (.custom c)) (c : ErrorCode) :
    x >>= f ≠ .error (.custom c) := by
  cases x with
  | ok a => exact hf a c
  | error e => exact fun h => hx c (congrArg _ (Except.error.inj h))

/-- The constraints of an account fail with none of the program's own errors. -/
theorem InitRegistry_ne_custom {ctx : Context Key Address} {vaultIdHash : Hash} (c : ErrorCode) :
    InitRegistry rt s ctx vaultIdHash ≠ .error (.custom c) :=
  bind_ne_custom (constraint_ne_custom _ fun _ h => by cases h)
    (fun _ => bind_ne_custom (constraint_ne_custom _ fun _ h => by cases h)
      fun _ => constraint_ne_custom _ fun _ h => by cases h) c

theorem AppendManifest_ne_custom {ctx : Context Key Address} {vaultIdHash : Hash} (c : ErrorCode) :
    AppendManifest rt s ctx vaultIdHash ≠ .error (.custom c) := by
  have hload : ∀ c, loadAccount s ctx.registry ≠ .error (.custom c) := by
    intro c h
    unfold loadAccount at h
    cases hat : s ctx.registry with
    | none => rw [hat] at h; cases h
    | some a => rw [hat] at h; cases h
  exact bind_ne_custom hload (fun _ => bind_ne_custom (constraint_ne_custom _ fun _ h => by cases h)
    fun _ => bind_ne_custom (constraint_ne_custom _ fun _ h => by cases h)
      fun _ => bind_ne_custom (constraint_ne_custom _ fun _ h => by cases h) fun _ c h => by cases h) c

omit [DecidableEq Address] in
/-- The instruction of a call that a constraint rejects. -/
theorem process_violated {α : Type} {constraints : Except ProgramError α}
    {f : α → Except ProgramError (Accounts Key Address)} (hcustom : ∀ c, constraints ≠ .error (.custom c))
    (h : ∀ a, constraints ≠ .ok a) : ∃ e, (∀ c, e ≠ .custom c) ∧ constraints >>= f = .error e := by
  cases constraints with
  | ok a => exact (h a rfl).elim
  | error e => exact ⟨e, fun c he => hcustom c (congrArg _ he), rfl⟩

omit [DecidableEq Address] in
theorem bind_handler (handler : Except ErrorCode (RegistryAccount Key))
    (f : RegistryAccount Key → Accounts Key Address) :
    (do return f (← handler.mapError ProgramError.custom)) = (handler.mapError .custom).map f := by
  cases handler <;> rfl

/-- A call of a handler has the outcome of its instruction. -/
theorem agrees_call (hD : D.Anchor rt) (hdata : Represents rt data s) (hinv : Invariant rt s)
    {ctx : Context Key Address} {bytes : List UInt8} {call : RegistryCall}
    (h : D.read bytes = some call) : Agrees rt (D.affordable data ctx bytes) (D.call data ctx bytes)
      (process rt s (call.instruction ctx)) := by
  cases call with
  | initRegistry vaultId vaultIdHash version =>
    have hfresh : ctx.registry = rt.registryAddress ctx.wallet vaultIdHash →
        (data ctx.registry = none ↔ s ctx.registry = none) := fun haddress => by
      rw [haddress]
      exact hdata.none_iff
    refine (hD.initRegistry data ctx bytes _ _ _ h).agrees hD hdata hinv
      (fun _ => List.length_replicate ..) (fun hviolated => ?_) fun hconstraints => ?_
    · refine process_violated InitRegistry_ne_custom fun u hok => hviolated ?_
      obtain ⟨hsigner, haddress, hnone⟩ := InitRegistry_eq_ok.mp hok
      exact ⟨hsigner, haddress, (hfresh haddress).mpr hnone⟩
    · obtain ⟨hsigner, haddress, hnone⟩ := hconstraints
      have hok : InitRegistry rt s ctx vaultIdHash = .ok () :=
        InitRegistry_eq_ok.mpr ⟨hsigner, haddress, (hfresh haddress).mp hnone⟩
      rw [RegistryCall.instruction, process, hok]
      exact bind_handler _ _
  | appendManifest vaultIdHash cid version =>
    have hviolated {P : Prop} (hnot : ¬ P) (hP : ∀ a, s ctx.registry = some a →
        ctx.walletIsSigner = true → ctx.registry = rt.registryAddress ctx.wallet vaultIdHash →
        a.wallet = ctx.wallet → P) : ∃ e, (∀ c, e ≠ .custom c) ∧
          process rt s (.appendManifest ctx vaultIdHash cid version) = .error e := by
      refine process_violated AppendManifest_ne_custom fun a hok => ?_
      obtain ⟨ha, hsigner, haddress, hwallet⟩ := AppendManifest_eq_ok.mp hok
      exact hnot (hP a ha hsigner haddress hwallet)
    have hread {a : RegistryAccount Key} (ha : s ctx.registry = some a)
        (haddress : ctx.registry = rt.registryAddress ctx.wallet vaultIdHash) :
        (data ctx.registry).bind D.tryDeserialize = some a := by
      rw [haddress] at ha ⊢
      obtain ⟨buffer, hbuffer, hstored⟩ := hdata.stored ha
      rw [hbuffer, Option.bind_some, hD.read_stored hstored]
    cases hload : (data ctx.registry).bind D.tryDeserialize with
    | none =>
      obtain ⟨code, hcall⟩ := hD.unloaded data ctx bytes _ _ _ h hload
      obtain ⟨e, he, hprocess⟩ := hviolated not_false fun a ha _ haddress _ => by
        rw [hread ha haddress] at hload
        cases hload
      rw [hcall, RegistryCall.instruction, hprocess]
      exact .constraint code e he
    | some registry =>
      obtain ⟨buffer, hbuffer, hregistry⟩ := Option.bind_eq_some_iff.mp hload
      have hstored (haddress : ctx.registry = rt.registryAddress ctx.wallet vaultIdHash) :
          s ctx.registry = some registry ∧ Stored buffer registry := by
        rw [haddress] at hbuffer ⊢
        obtain ⟨a, ha, hstored⟩ := hdata.account hbuffer
        obtain rfl := Option.some.inj ((hD.read_stored hstored).symm.trans hregistry)
        exact ⟨ha, hstored⟩
      refine (hD.appendManifest data ctx bytes _ _ _ _ _ h hbuffer hregistry).agrees hD hdata hinv
        (fun hconstraints => (hstored hconstraints.2.1).2.length_eq)
        (fun hnot => hviolated hnot fun a ha hsigner haddress hwallet => ?_)
        fun hconstraints => ?_
      · obtain rfl := Option.some.inj ((hstored haddress).1.symm.trans ha)
        exact ⟨hsigner, haddress, hwallet⟩
      · obtain ⟨hsigner, haddress, hwallet⟩ := hconstraints
        have hok : AppendManifest rt s ctx vaultIdHash = .ok registry :=
          AppendManifest_eq_ok.mpr ⟨(hstored haddress).1, hsigner, haddress, hwallet⟩
        rw [RegistryCall.instruction, process, hok]
        exact bind_handler _ _

/-- A call of a handler leaves what its instruction leaves, or nothing has changed because it cannot
be paid for. -/
theorem Agrees.execute {ctx : Context Key Address} {bytes : List UInt8}
    {ix : Instruction Key Address} (hdata : Represents rt data s)
    (h : Agrees rt (D.affordable data ctx bytes) (D.call data ctx bytes) (process rt s ix)) :
    Represents rt (D.execute data ctx bytes) (execute rt s ix) ∨
      Represents rt (D.execute data ctx bytes) s ∧ ¬ D.affordable data ctx bytes := by
  rw [Deployed.execute, Registry.execute]
  generalize D.call data ctx bytes = x at h
  generalize process rt s ix = y at h
  cases h with
  | ok _ _ h => exact .inl h
  | custom e => exact .inl hdata
  | constraint code e _ => exact .inl hdata
  | unaffordable code _ h => exact .inr ⟨hdata, h⟩

/-- Other calls leave the registries alone. -/
theorem Represents.other (hD : D.Anchor rt) (hdata : Represents rt data s)
    {ctx : Context Key Address} {bytes : List UInt8} (h : D.read bytes = none) :
    Represents rt (D.execute data ctx bytes) s := by
  rw [Deployed.execute]
  cases hcall : D.call data ctx bytes with
  | error e => exact hdata
  | ok data' =>
    intro wallet vaultIdHash
    show Option.Rel Stored (data' _) _
    rw [hD.other data data' ctx bytes h hcall]
    exact hdata wallet vaultIdHash

/-- The accounts that the data of a reachable state stand for are themselves reached. -/
theorem represents_of_dataRun (hD : D.Anchor rt) (hrun : DataRun D (fun _ => none) data) :
    ∃ s, Run rt (fun _ => none) s ∧ Represents rt data s := by
  induction hrun with
  | refl => exact ⟨_, .refl, fun _ _ => .none⟩
  | tail _ hstep ih =>
    obtain ⟨ctx, bytes, rfl⟩ := hstep
    obtain ⟨s, hrun, hdata⟩ := ih
    cases h : D.read bytes with
    | none => exact ⟨s, hrun, hdata.other hD h⟩
    | some call =>
      rcases (agrees_call hD hdata (invariant_of_run hrun) h).execute hdata with h | h
      · exact ⟨_, hrun.tail ⟨_, rfl⟩, h⟩
      · exact ⟨s, hrun, h.1⟩

/-- The program on bytes refines the program on accounts. In every state that any calls reach, the
data of the registries are those of accounts that instructions reach, each in a buffer of the
allocated size that the program can read; a call of a handler that can be paid for has the outcome
of its instruction, and any other call leaves the registries as they are. -/
theorem dataRun_refines (hD : D.Anchor rt) (hrun : DataRun D (fun _ => none) data) :
    ∃ s, Run rt (fun _ => none) s ∧ Represents rt data s ∧
      (∀ wallet vaultIdHash buffer, data (rt.registryAddress wallet vaultIdHash) = some buffer →
        buffer.length = space ∧
          D.tryDeserialize buffer = s (rt.registryAddress wallet vaultIdHash)) ∧
      ∀ ctx bytes,
        (∀ call, D.read bytes = some call →
          Agrees rt (D.affordable data ctx bytes) (D.call data ctx bytes)
            (process rt s (call.instruction ctx))) ∧
        (D.read bytes = none → Represents rt (D.execute data ctx bytes) s) := by
  obtain ⟨s, hrun, hdata⟩ := represents_of_dataRun hD hrun
  refine ⟨s, hrun, hdata, fun wallet vaultIdHash buffer hbuffer => ?_, fun ctx bytes => ⟨?_, ?_⟩⟩
  · obtain ⟨a, ha, hstored⟩ := hdata.account hbuffer
    exact ⟨hstored.length_eq, ha ▸ hD.read_stored hstored⟩
  · exact fun call h => agrees_call hD hdata (invariant_of_run hrun) h
  · exact fun h => hdata.other hD h

end Refinement

/-! ### A program that behaves as documented -/

/-- A runtime on 32 bytes whose addresses spell out their seeds. -/
def wireRuntime : Runtime Key (Key × Hash) where
  hash := sampleRuntime.hash
  registryAddress := Prod.mk
  toLowercase := id

/-- The handler that some bytes ask for, by the formats. -/
def sampleRead (bytes : List UInt8) : Option RegistryCall :=
  if bytes.take 8 = initRegistryDiscriminator then
    (initRegistryArgs.read (bytes.drop 8)).map fun r => .initRegistry r.1.1 r.1.2.1 r.1.2.2
  else if bytes.take 8 = appendManifestDiscriminator then
    (appendManifestArgs.read (bytes.drop 8)).map fun r => .appendManifest r.1.1 r.1.2.1 r.1.2.2
  else none

def sampleDeserialize (buffer : List UInt8) : Option (RegistryAccount Key) :=
  if buffer.take 8 = accountDiscriminator then (accountCodec.read (buffer.drop 8)).map Prod.fst
  else none

def sampleSerialize (buffer : List UInt8) (a : RegistryAccount Key) : Option (List UInt8) :=
  if (a.data wireLayout).length ≤ buffer.length then
    some (a.data wireLayout ++ buffer.drop (a.data wireLayout).length)
  else none

/-- What is done around a handler. -/
def sampleHandle (data : AccountData (Key × Hash)) (address : Key × Hash) (buffer : List UInt8)
    (constraints : Bool) (handler : Except ErrorCode (RegistryAccount Key)) :
    Except WireError (AccountData (Key × Hash)) :=
  if constraints then
    match handler with
    | .error e => .error (.custom e)
    | .ok registry =>
      match sampleSerialize buffer registry with
      | some buffer' => .ok (Function.update data address (some buffer'))
      | none => .error (.anchor 3004)
  else .error (.anchor 2000)

def sampleCall (data : AccountData (Key × Hash)) (ctx : Context Key (Key × Hash))
    (bytes : List UInt8) : Except WireError (AccountData (Key × Hash)) :=
  match sampleRead bytes with
  | some (.initRegistry vaultId vaultIdHash version) =>
    sampleHandle data ctx.registry (List.replicate space 0)
      (ctx.walletIsSigner = true ∧ ctx.registry = wireRuntime.registryAddress ctx.wallet vaultIdHash ∧
        data ctx.registry = none)
      (initRegistry wireRuntime ctx vaultId vaultIdHash version)
  | some (.appendManifest vaultIdHash cid version) =>
    match data ctx.registry with
    | none => .error (.anchor 3012)
    | some buffer =>
      match sampleDeserialize buffer with
      | none => .error (.anchor 3003)
      | some registry =>
        sampleHandle data ctx.registry buffer
          (ctx.walletIsSigner = true ∧
            ctx.registry = wireRuntime.registryAddress ctx.wallet vaultIdHash ∧
            registry.wallet = ctx.wallet)
          (appendManifest wireRuntime ctx registry vaultIdHash cid version)
  | none => .error (.anchor 101)

def sampleProgram : Deployed (Key × Hash) where
  call := sampleCall
  affordable _ _ _ := True
  read := sampleRead
  tryDeserialize := sampleDeserialize
  trySerialize := sampleSerialize

theorem take_discriminator {discriminator : List UInt8} (h : discriminator.length = 8)
    (rest : List UInt8) : (discriminator ++ rest).take 8 = discriminator ∧
      (discriminator ++ rest).drop 8 = rest :=
  ⟨List.take_left' h, List.drop_left' h⟩

theorem sampleRead_initRegistry (vaultId : String) (vaultIdHash : Hash) (version : UInt8)
    (rest : List UInt8) (h : vaultId.utf8ByteSize < 2 ^ 32) :
    sampleRead (initRegistryDiscriminator ++
      (initRegistryArgs.write (vaultId, vaultIdHash, version) ++ rest)) =
        some (.initRegistry vaultId vaultIdHash version) := by
  have hvalid : initRegistryArgs.Valid (vaultId, vaultIdHash, version) :=
    ⟨Codec.string_valid.mpr h, trivial, trivial⟩
  obtain ⟨htake, hdrop⟩ := take_discriminator (show initRegistryDiscriminator.length = 8 from rfl)
    (initRegistryArgs.write (vaultId, vaultIdHash, version) ++ rest)
  rw [sampleRead, htake, hdrop, if_pos rfl, initRegistryArgs.read_write hvalid, Option.map_some]

theorem sampleRead_appendManifest (vaultIdHash : Hash) (cid : String) (version : UInt8)
    (rest : List UInt8) (h : cid.utf8ByteSize < 2 ^ 32) :
    sampleRead (appendManifestDiscriminator ++
      (appendManifestArgs.write (vaultIdHash, cid, version) ++ rest)) =
        some (.appendManifest vaultIdHash cid version) := by
  have hvalid : appendManifestArgs.Valid (vaultIdHash, cid, version) :=
    ⟨trivial, Codec.string_valid.mpr h, trivial⟩
  obtain ⟨htake, hdrop⟩ := take_discriminator (show appendManifestDiscriminator.length = 8 from rfl)
    (appendManifestArgs.write (vaultIdHash, cid, version) ++ rest)
  rw [sampleRead, htake, hdrop, if_neg (by decide), if_pos rfl, appendManifestArgs.read_write hvalid,
    Option.map_some]

theorem sampleDeserialize_account (a : RegistryAccount Key) (rest : List UInt8)
    (h : accountCodec.Valid a) :
    sampleDeserialize (accountDiscriminator ++ (accountCodec.write a ++ rest)) = some a := by
  obtain ⟨htake, hdrop⟩ := take_discriminator (show accountDiscriminator.length = 8 from rfl)
    (accountCodec.write a ++ rest)
  rw [sampleDeserialize, htake, hdrop, if_pos rfl, accountCodec.read_write h, Option.map_some]

theorem sampleHandle_handles (data : AccountData (Key × Hash)) (ctx : Context Key (Key × Hash))
    (bytes buffer : List UInt8) (constraints : Prop) [Decidable constraints]
    (handler : Except ErrorCode (RegistryAccount Key)) :
    Handles sampleProgram data ctx bytes buffer constraints handler
      (sampleHandle data ctx.registry buffer constraints handler) := by
  unfold sampleHandle
  split
  case isTrue h =>
    have hconstraints := of_decide_eq_true h
    cases handler with
    | error e => exact .failed e hconstraints
    | ok registry =>
      dsimp only
      split
      case h_1 buffer' hwrite => exact .written registry buffer' hconstraints hwrite
      case h_2 hwrite => exact .unwritten registry _ hconstraints hwrite
  case isFalse h => exact .refused handler _ fun hrefused => h (decide_eq_true hrefused.1)

theorem sampleProgram_anchor : sampleProgram.Anchor wireRuntime where
  read_initRegistry := sampleRead_initRegistry
  read_appendManifest := sampleRead_appendManifest
  tryDeserialize := sampleDeserialize_account
  trySerialize buffer a _ hfits := if_pos hfits
  initRegistry data ctx bytes vaultId vaultIdHash version h := by
    have hread : sampleRead bytes = some (.initRegistry vaultId vaultIdHash version) := h
    show Handles _ _ _ _ _ _ _ (sampleCall data ctx bytes)
    rw [sampleCall, hread]
    exact sampleHandle_handles ..
  appendManifest data ctx bytes vaultIdHash cid version buffer registry h hbuffer hregistry := by
    have hread : sampleRead bytes = some (.appendManifest vaultIdHash cid version) := h
    have hdeserialize : sampleDeserialize buffer = some registry := hregistry
    show Handles _ _ _ _ _ _ _ (sampleCall data ctx bytes)
    simp only [sampleCall, hread, hbuffer, hdeserialize]
    exact sampleHandle_handles ..
  unloaded data ctx bytes vaultIdHash cid version h hnone := by
    have hread : sampleRead bytes = some (.appendManifest vaultIdHash cid version) := h
    show ∃ code, sampleCall data ctx bytes = _
    cases hbuffer : data ctx.registry with
    | none =>
      simp only [sampleCall, hread, hbuffer]
      exact ⟨_, rfl⟩
    | some buffer =>
      rw [hbuffer] at hnone
      have hdeserialize : sampleDeserialize buffer = none := hnone
      simp only [sampleCall, hread, hbuffer, hdeserialize]
      exact ⟨_, rfl⟩
  other data data' ctx bytes h hcall := by
    have hread : sampleRead bytes = none := h
    have hunread : sampleCall data ctx bytes = .error (.anchor 101) := by
      rw [sampleCall, hread]
    cases hunread.symm.trans hcall

def wireKey : Key := wireRuntime.hash [7]

def wireHash : Hash := wireRuntime.hash (asBytes "local-default")

def wireContext : Context Key (Key × Hash) where
  registry := (wireKey, wireHash)
  wallet := wireKey
  walletIsSigner := true
  unixTimestamp := 1700000000

/-- Calls of `init_registry` and `append_manifest`. -/
def wireCalls : List (Context Key (Key × Hash) × List UInt8) :=
  [(wireContext, initRegistryDiscriminator ++
      (initRegistryArgs.write ("local-default", wireHash, 1) ++ [])),
    (wireContext, appendManifestDiscriminator ++
      (appendManifestArgs.write (wireHash, "bafy2", 1) ++ []))]

def wireData : AccountData (Key × Hash) := sampleProgram.executeAll (fun _ => none) wireCalls

theorem wireData_cids : ((wireData (wireKey, wireHash)).bind sampleDeserialize).map
    (fun a => a.entries.map fun e => e.manifestCid) = some ["bafy2"] := by decide +kernel

/-- A call of `append_manifest`. -/
def wireAppend : List UInt8 :=
  appendManifestDiscriminator ++ (appendManifestArgs.write (wireHash, "bafy3", 1) ++ [])

theorem dataRun_refines_sample : ∃ s a, Run wireRuntime (fun _ => none) s ∧
    s (wireKey, wireHash) = some a ∧ (a.entries.map fun e => e.manifestCid) = ["bafy2"] ∧
    Agrees wireRuntime True (sampleProgram.call wireData wireContext wireAppend)
      (process wireRuntime s (.appendManifest wireContext wireHash "bafy3" 1)) := by
  obtain ⟨s, hrun, -, hstored, hcalls⟩ :=
    dataRun_refines sampleProgram_anchor (sampleProgram.dataRun_executeAll _ wireCalls)
  obtain ⟨a, ha, hcids⟩ := Option.map_eq_some_iff.mp wireData_cids
  obtain ⟨buffer, hbuffer, hread⟩ := Option.bind_eq_some_iff.mp ha
  have happend : sampleProgram.read wireAppend = some (.appendManifest wireHash "bafy3" 1) :=
    sampleRead_appendManifest wireHash "bafy3" 1 [] (by decide)
  have haccount : s (wireKey, wireHash) = some a :=
    (hstored wireKey wireHash buffer hbuffer).2.symm.trans hread
  exact ⟨s, a, hrun, haccount, hcids, (hcalls wireContext wireAppend).1 _ happend⟩

end SovereignJedi.Registry
