import SovereignJedi.Codec.Idl
import SovereignJedi.Registry.Head
import SovereignJedi.Registry.Wire

/-! The client and the program on the wire. The client knows the program by its interface
description: a library encodes the arguments of its calls and decodes the accounts by it, under the
names of the description in camel case. The library is a parameter, with what is documented of it.
What the program reads are the instructions that the client has built, and what the client reads are
the accounts of the program. -/

namespace SovereignJedi.Registry

open SovereignJedi.Js (UnicodeData)

/-! ### The description -/

/-- The type `RegistryEntry` of `sj_registry_program.json`. -/
def idlEntry : List (String × IdlType) :=
  [("manifest_cid", .string), ("manifest_cid_hash", .array .u8 32), ("published_at", .i64),
    ("publisher", .pubkey), ("manifest_schema_version", .u8)]

/-- The type `RegistryAccount`. -/
def idlAccount : List (String × IdlType) :=
  [("registry_version", .u8), ("manifest_schema_version", .u8), ("wallet", .pubkey),
    ("vault_id", .string), ("entries", .vec (.struct idlEntry)), ("created_at", .i64),
    ("updated_at", .i64)]

/-- The arguments of `init_registry`. -/
def idlInitRegistry : List (String × IdlType) :=
  [("vault_id", .string), ("vault_id_hash", .array .u8 32), ("manifest_schema_version", .u8)]

/-- The arguments of `append_manifest`. -/
def idlAppendManifest : List (String × IdlType) :=
  [("_vault_id_hash", .array .u8 32), ("manifest_cid", .string), ("manifest_schema_version", .u8)]

/-- The names of the fields, and those of the client's interfaces. -/
def camelNames : List (String × String) :=
  [("registry_version", "registryVersion"), ("manifest_schema_version", "manifestSchemaVersion"),
    ("wallet", "wallet"), ("vault_id", "vaultId"), ("entries", "entries"),
    ("created_at", "createdAt"), ("updated_at", "updatedAt"), ("manifest_cid", "manifestCid"),
    ("manifest_cid_hash", "manifestCidHash"), ("published_at", "publishedAt"),
    ("publisher", "publisher")]

/-- Names in camel case, as far as the fields go. -/
def Camel (f : String → String) : Prop := ∀ p ∈ camelNames, f p.1 = p.2

theorem Camel.entry {f : String → String} (h : Camel f) : f "manifest_cid" = "manifestCid" ∧
    f "manifest_cid_hash" = "manifestCidHash" ∧ f "published_at" = "publishedAt" ∧
    f "publisher" = "publisher" ∧ f "manifest_schema_version" = "manifestSchemaVersion" := by
  simp only [Camel, camelNames, List.forall_mem_cons] at h
  obtain ⟨-, hversion, -, -, -, -, -, hcid, hhash, htime, hpublisher, -⟩ := h
  exact ⟨hcid, hhash, htime, hpublisher, hversion⟩

theorem Camel.account {f : String → String} (h : Camel f) :
    f "registry_version" = "registryVersion" ∧
      f "manifest_schema_version" = "manifestSchemaVersion" ∧ f "wallet" = "wallet" ∧
      f "vault_id" = "vaultId" ∧ f "entries" = "entries" ∧ f "created_at" = "createdAt" ∧
      f "updated_at" = "updatedAt" := by
  simp only [Camel, camelNames, List.forall_mem_cons] at h
  obtain ⟨hregistry, hversion, hwallet, hvault, hentries, hcreated, hupdated, -⟩ := h
  exact ⟨hregistry, hversion, hwallet, hvault, hentries, hcreated, hupdated⟩

/-! ### Accounts -/

/-- The value of a `[u8; 32]`. -/
def hashValue (h : Hash) : IdlValue := .list (h.1.map .u8)

/-- The value of an entry under the names that `f` gives. -/
def entryValue (f : String → String) (e : RegistryEntry Key) : IdlValue :=
  .object [(f "manifest_cid", .string e.manifestCid),
    (f "manifest_cid_hash", hashValue e.manifestCidHash), (f "published_at", .i64 e.publishedAt),
    (f "publisher", .pubkey e.publisher), (f "manifest_schema_version", .u8 e.manifestSchemaVersion)]

def accountValue (f : String → String) (a : RegistryAccount Key) : IdlValue :=
  .object [(f "registry_version", .u8 a.registryVersion),
    (f "manifest_schema_version", .u8 a.manifestSchemaVersion), (f "wallet", .pubkey a.wallet),
    (f "vault_id", .string a.vaultId), (f "entries", .list (a.entries.map (entryValue f))),
    (f "created_at", .i64 a.createdAt), (f "updated_at", .i64 a.updatedAt)]

section Values

variable {f : String → String}

theorem hashValue_rename (h : Hash) : (hashValue h).rename f = hashValue h := by
  rw [hashValue, IdlValue.rename, IdlValue.renameAll_eq_map, List.map_map]
  rfl

theorem entryValue_rename (e : RegistryEntry Key) :
    (entryValue id e).rename f = entryValue f e := by
  simp only [entryValue, IdlValue.rename, IdlValue.renameFields, hashValue_rename, id]

theorem accountValue_rename (a : RegistryAccount Key) :
    (accountValue id a).rename f = accountValue f a := by
  have hentries : IdlValue.renameAll f (a.entries.map (entryValue id)) =
      a.entries.map (entryValue f) := by
    rw [IdlValue.renameAll_eq_map, List.map_map]
    exact List.map_congr_left fun e _ => entryValue_rename e
  simp only [accountValue, IdlValue.rename, IdlValue.renameFields, hentries, id]

theorem hashValue_valid (h : Hash) : (IdlType.array .u8 32).codec.Valid (hashValue h) := by
  rw [hashValue, IdlType.codec_array_valid, List.length_map]
  refine ⟨h.2, fun v hv => ?_⟩
  obtain ⟨b, -, rfl⟩ := List.mem_map.mp hv
  exact IdlType.codec_u8_valid b

theorem hashValue_write (h : Hash) : (IdlType.array .u8 32).codec.write (hashValue h) = h.1 := by
  rw [hashValue, IdlType.codec_array_write, List.flatMap_map]
  exact List.flatMap_singleton' h.1

theorem entryValue_valid {e : RegistryEntry Key} (h : entryCodec.Valid e) :
    (IdlType.struct idlEntry).codec.Valid (entryValue id e) := by
  simp only [entryValue, idlEntry, IdlType.codec_struct_valid, IdlType.fieldsCodec_cons_valid, id,
    IdlType.fieldsCodec_nil_valid, IdlType.codec_string_valid, hashValue_valid,
    IdlType.codec_i64_valid, IdlType.codec_pubkey_valid, IdlType.codec_u8_valid, and_true]
  exact entryCodec_valid.mp h

theorem entryValue_write (e : RegistryEntry Key) :
    (IdlType.struct idlEntry).codec.write (entryValue id e) = entryCodec.write e := by
  simp only [entryValue, idlEntry, IdlType.codec_struct_write, IdlType.fieldsCodec_cons_write, id,
    IdlType.fieldsCodec_nil_write, IdlType.codec_string_write, hashValue_write,
    IdlType.codec_i64_write, IdlType.codec_pubkey_write, IdlType.codec_u8_write]
  rw [entryCodec, Codec.via_write rfl, ← Codec.i64_write]
  rfl

theorem accountValue_valid {a : RegistryAccount Key} (h : accountCodec.Valid a) :
    (IdlType.struct idlAccount).codec.Valid (accountValue id a) := by
  obtain ⟨hvault, hlength, hentries⟩ := accountCodec_valid.mp h
  have hvec : (IdlType.vec (.struct idlEntry)).codec.Valid (.list (a.entries.map (entryValue id))) := by
    rw [IdlType.codec_vec_valid, List.length_map]
    refine ⟨hlength, fun v hv => ?_⟩
    obtain ⟨e, he, rfl⟩ := List.mem_map.mp hv
    exact entryValue_valid (entryCodec_valid.mpr (hentries e he))
  simp only [accountValue, idlAccount, IdlType.codec_struct_valid, IdlType.fieldsCodec_cons_valid, id,
    IdlType.fieldsCodec_nil_valid, IdlType.codec_string_valid, IdlType.codec_i64_valid,
    IdlType.codec_pubkey_valid, IdlType.codec_u8_valid, hvault, hvec, true_and]

theorem accountValue_write {a : RegistryAccount Key} (h : accountCodec.Valid a) :
    (IdlType.struct idlAccount).codec.write (accountValue id a) = accountCodec.write a := by
  obtain ⟨-, hlength, -⟩ := accountCodec_valid.mp h
  have hvec : (IdlType.vec (.struct idlEntry)).codec.write (.list (a.entries.map (entryValue id))) =
      entryCodec.vec.write a.entries := by
    rw [IdlType.codec_vec_write, Codec.vec_write hlength, Codec.vec_write (by simpa using hlength),
      List.flatMap_map, List.length_map]
    exact congrArg _ (List.flatMap_congr fun e _ => entryValue_write e)
  simp only [accountValue, idlAccount, IdlType.codec_struct_write, IdlType.fieldsCodec_cons_write, id,
    IdlType.fieldsCodec_nil_write, IdlType.codec_string_write, IdlType.codec_i64_write,
    IdlType.codec_pubkey_write, IdlType.codec_u8_write, hvec]
  rw [accountCodec, Codec.via_write rfl, ← Codec.i64_write, ← Codec.i64_write, List.append_nil]
  rfl

end Values

/-! ### Fields -/

/-- `v[name]`. -/
def field (v : IdlValue) (name : String) : Option IdlValue :=
  match v with
  | .object fs => (fs.find? fun f => f.1 == name).map Prod.snd
  | _ => none

/-- The numbers of an array of bytes. -/
def bytesOf (v : IdlValue) : Option (List UInt8) :=
  match v with
  | .list xs => xs.mapM fun
    | .u8 n => some n
    | _ => none
  | _ => none

/-- A value as the `RegistryEntry` of the client, at position `i` of an array. -/
def toClientEntry (i : Nat) (v : IdlValue) : Option (ClientEntry Key) :=
  match field v "manifestCid", (field v "manifestCidHash").bind bytesOf, field v "publishedAt",
    field v "publisher", field v "manifestSchemaVersion" with
  | some (.string manifestCid), some manifestCidHash, some (.i64 publishedAt),
    some (.pubkey publisher), some (.u8 manifestSchemaVersion) =>
    some {
      manifestCid
      manifestCidHash
      publishedAt := .bn i publishedAt.toInt
      publisher
      manifestSchemaVersion }
  | _, _, _, _, _ => none

/-- The `entries` of a value that stands for a `RegistryAccount` of the client. -/
def toClientEntries (v : IdlValue) : Option (List (ClientEntry Key)) :=
  match field v "entries" with
  | some (.list xs) => (xs.mapIdx toClientEntry).mapM id
  | _ => none

theorem bytesOf_hashValue (h : Hash) : bytesOf (hashValue h) = some h.1 := by
  rw [hashValue, bytesOf, List.mapM_map]
  exact (List.mapM_pure (f := id)).trans (congrArg some h.1.map_id)

/-- The names of the client's interfaces are those of the description in camel case. -/
theorem toClientEntry_entryValue {f : String → String} (hf : Camel f) (i : Nat)
    (e : RegistryEntry Key) : toClientEntry i (entryValue f e) = some (decodeEntry .bn i e) := by
  simp [toClientEntry, entryValue, field, hf.entry, bytesOf_hashValue, decodeEntry]

theorem toClientEntries_accountValue {f : String → String} (hf : Camel f)
    (a : RegistryAccount Key) :
    toClientEntries (accountValue f a) = some (decodeEntries .bn a.entries) := by
  have hentries : field (accountValue f a) "entries" =
      some (.list (a.entries.map (entryValue f))) := by
    simp [field, accountValue, hf.account]
  have hall : (a.entries.map (entryValue f)).mapIdx toClientEntry =
      (decodeEntries .bn a.entries).map some := by
    refine List.ext_getElem (by simp [decodeEntries]) fun i _ _ => ?_
    simp [decodeEntries, toClientEntry_entryValue hf]
  rw [toClientEntries, hentries]
  show List.mapM id _ = _
  rw [hall, List.mapM_map]
  exact (List.mapM_pure (f := id)).trans (congrArg some (List.map_id _))

/-! ### The client library -/

/-- What the client uses of `@coral-xyz/anchor`: the names it gives to what is described, what
`fetch` makes of the answer of the node (an error message, or the data of the account), and the
bytes of a call with its arguments by position. Arguments beyond `capacity` are not encoded. -/
structure AnchorClient where
  name : String → String
  fetch : (address : String) → Except String (Option (List UInt8)) → Except String IdlValue
  encode : (discriminator : List UInt8) → (args : List (String × IdlType)) →
    (values : List IdlValue) → List UInt8
  capacity : Nat

/-- What is documented of it: names are in camel case, and what is described is in Borsh behind its
discriminator. -/
structure AnchorClient.Documented (C : AnchorClient) : Prop where
  name : Camel C.name
  fetch_none (address : String) :
    C.fetch address (.ok none) = .error ("Account does not exist or has no data " ++ address)
  fetch_account (address : String) (v : IdlValue) (rest : List UInt8)
    (h : (IdlType.struct idlAccount).codec.Valid v) :
    C.fetch address (.ok (some (accountDiscriminator ++
      ((IdlType.struct idlAccount).codec.write v ++ rest)))) = .ok (v.rename C.name)
  encode (discriminator : List UInt8) (args : List (String × IdlType)) (values : List IdlValue)
    (h : (IdlType.fieldsCodec args).Valid ((args.map Prod.fst).zip values))
    (hfits : ((IdlType.fieldsCodec args).write ((args.map Prod.fst).zip values)).length ≤
      C.capacity) :
    C.encode discriminator args values =
      discriminator ++ (IdlType.fieldsCodec args).write ((args.map Prod.fst).zip values)
  capacity_lt : C.capacity < 2 ^ 32

/-! ### Reading -/

/-- Whether `p` occurs in a list of characters. -/
def occursIn (p : List Char) : List Char → Bool
  | [] => p.isEmpty
  | c :: cs => p.isPrefixOf (c :: cs) || occursIn p cs

theorem occursIn_append (p s : List Char) : occursIn p (p ++ s) = true := by
  cases p with
  | nil => cases s <;> simp [occursIn]
  | cons c cs => simp [occursIn]

/-- `s.includes(t)`. -/
def includes (s t : String) : Bool := occursIn t.toList s.toList

/-- `fetchRegistry`: the account, `null`, or an error. -/
def fetchRegistryData (C : AnchorClient) (address : String)
    (answer : Except String (Option (List UInt8))) : Except String (Option IdlValue) :=
  match C.fetch address answer with
  | .ok account => .ok (some account)
  | .error msg =>
    if includes msg "Account does not exist" || includes msg "could not find" then .ok none
    else .error msg

section Reading

variable {C : AnchorClient} (hC : C.Documented) (address : String)

include hC

theorem AnchorClient.Documented.fetchRegistryData_none :
    fetchRegistryData C address (.ok none) = .ok none := by
  have hincludes : includes ("Account does not exist or has no data " ++ address)
      "Account does not exist" = true := by
    have hmessage : "Account does not exist or has no data ".toList =
        "Account does not exist".toList ++ " or has no data ".toList := by decide
    rw [includes, String.toList_append, hmessage, List.append_assoc]
    exact occursIn_append _ _
  rw [fetchRegistryData, hC.fetch_none]
  dsimp only
  rw [hincludes]
  rfl

theorem AnchorClient.Documented.fetchRegistryData_stored {buffer : List UInt8}
    {a : RegistryAccount Key} (h : Stored buffer a) :
    fetchRegistryData C address (.ok (some buffer)) = .ok (some (accountValue C.name a)) := by
  obtain ⟨hvalid, rest, rfl⟩ := h.eq_append
  rw [fetchRegistryData, ← accountValue_write hvalid,
    hC.fetch_account address _ rest (accountValue_valid hvalid), accountValue_rename]

end Reading

/-! ### Calls -/

section Encoding

theorem length_string_write {s : String} (h : s.utf8ByteSize < 2 ^ 32) :
    (Codec.string.write s).length = 4 + s.utf8ByteSize := by
  rw [string_write_eq h, Borsh.length_string]

theorem initRegistryArgs_write (vaultId : String) (hash : Hash) (version : UInt8) :
    (IdlType.fieldsCodec idlInitRegistry).write ((idlInitRegistry.map Prod.fst).zip
      [.string vaultId, hashValue hash, .u8 version]) =
        initRegistryArgs.write (vaultId, hash, version) := by
  simp only [idlInitRegistry, List.map_cons, List.map_nil, List.zip_cons_cons, List.zip_nil_left,
    IdlType.fieldsCodec_cons_write, IdlType.fieldsCodec_nil_write, IdlType.codec_string_write,
    IdlType.codec_u8_write, hashValue_write]
  rfl

theorem appendManifestArgs_write (hash : Hash) (cid : String) (version : UInt8) :
    (IdlType.fieldsCodec idlAppendManifest).write ((idlAppendManifest.map Prod.fst).zip
      [hashValue hash, .string cid, .u8 version]) =
        appendManifestArgs.write (hash, cid, version) := by
  simp only [idlAppendManifest, List.map_cons, List.map_nil, List.zip_cons_cons, List.zip_nil_left,
    IdlType.fieldsCodec_cons_write, IdlType.fieldsCodec_nil_write, IdlType.codec_string_write,
    IdlType.codec_u8_write, hashValue_write]
  rfl

variable {C : AnchorClient} (hC : C.Documented) (hash : Hash) (version : UInt8)

include hC

theorem AnchorClient.Documented.encode_initRegistry {vaultId : String}
    (h : vaultId.utf8ByteSize + 37 ≤ C.capacity) :
    C.encode initRegistryDiscriminator idlInitRegistry
        [.string vaultId, hashValue hash, .u8 version] =
      initRegistryDiscriminator ++ (initRegistryArgs.write (vaultId, hash, version) ++ []) := by
  have hvault : vaultId.utf8ByteSize < 2 ^ 32 := by
    have := hC.capacity_lt
    omega
  have hlength : (initRegistryArgs.write (vaultId, hash, version)).length =
      vaultId.utf8ByteSize + 37 := by
    show (Codec.string.write vaultId ++ (hash.1 ++ [version])).length = _
    rw [List.length_append, List.length_append, length_string_write hvault, hash.2]
    simp only [List.length_singleton]
    omega
  have hvalid : (IdlType.fieldsCodec idlInitRegistry).Valid ((idlInitRegistry.map Prod.fst).zip
      [.string vaultId, hashValue hash, .u8 version]) := by
    simpa [idlInitRegistry, IdlType.codec_string_valid, hashValue_valid] using hvault
  rw [hC.encode _ _ _ hvalid (by rw [initRegistryArgs_write, hlength]; exact h),
    initRegistryArgs_write, List.append_nil]

theorem AnchorClient.Documented.encode_appendManifest {cid : String}
    (h : cid.utf8ByteSize + 37 ≤ C.capacity) :
    C.encode appendManifestDiscriminator idlAppendManifest
        [hashValue hash, .string cid, .u8 version] =
      appendManifestDiscriminator ++ (appendManifestArgs.write (hash, cid, version) ++ []) := by
  have hcid : cid.utf8ByteSize < 2 ^ 32 := by
    have := hC.capacity_lt
    omega
  have hlength : (appendManifestArgs.write (hash, cid, version)).length =
      cid.utf8ByteSize + 37 := by
    show (hash.1 ++ (Codec.string.write cid ++ [version])).length = _
    rw [List.length_append, List.length_append, length_string_write hcid, hash.2]
    simp only [List.length_singleton]
    omega
  have hvalid : (IdlType.fieldsCodec idlAppendManifest).Valid ((idlAppendManifest.map Prod.fst).zip
      [hashValue hash, .string cid, .u8 version]) := by
    simpa [idlAppendManifest, IdlType.codec_string_valid, hashValue_valid] using hcid
  rw [hC.encode _ _ _ hvalid (by rw [appendManifestArgs_write, hlength]; exact h),
    appendManifestArgs_write, List.append_nil]

end Encoding

variable {Address : Type}

section Calls

variable (C : AnchorClient) (U : UnicodeData) (rt : Runtime Key Address)

/-- `createInitRegistryInstruction`, as it is sent. -/
def createInitRegistryCall (wallet : Key) (vaultId : String) (manifestSchemaVersion : UInt8)
    (now : Int64) : Context Key Address × List UInt8 :=
  (clientContext U rt wallet vaultId now, C.encode initRegistryDiscriminator idlInitRegistry
    [.string vaultId, hashValue (vaultIdHash U rt vaultId), .u8 manifestSchemaVersion])

/-- `createAppendManifestInstruction`, as it is sent. -/
def createAppendManifestCall (wallet : Key) (vaultId manifestCid : String)
    (manifestSchemaVersion : UInt8) (now : Int64) : Context Key Address × List UInt8 :=
  (clientContext U rt wallet vaultId now, C.encode appendManifestDiscriminator idlAppendManifest
    [hashValue (vaultIdHash U rt vaultId), .string manifestCid, .u8 manifestSchemaVersion])

/-- The transaction of `publishManifest`, as it is sent. -/
def publishManifestCalls (wallet : Key) (vaultId manifestCid : String)
    (manifestSchemaVersion : UInt8) (registry : Option (RegistryAccount Key)) (now : Int64) :
    List (Context Key Address × List UInt8) :=
  let appendIx :=
    createAppendManifestCall C U rt wallet vaultId manifestCid manifestSchemaVersion now
  if registry.isNone then
    [createInitRegistryCall C U rt wallet vaultId manifestSchemaVersion now, appendIx]
  else [appendIx]

end Calls

/-- A call whose bytes the program reads as the instruction. -/
def ReadAs (D : Deployed Address) (call : Context Key Address × List UInt8)
    (ix : Instruction Key Address) : Prop :=
  ∃ handler, D.read call.2 = some handler ∧ handler.instruction call.1 = ix

section ReadAs

variable [DecidableEq Address] {C : AnchorClient} {U : UnicodeData} {rt : Runtime Key Address}
  {D : Deployed Address} {wallet : Key} {vaultId cid : String} (hC : C.Documented)
  (hD : D.Anchor rt)

include hC hD

theorem readAs_createInitRegistry (h : vaultId.utf8ByteSize + 37 ≤ C.capacity) (version : UInt8)
    (now : Int64) : ReadAs D (createInitRegistryCall C U rt wallet vaultId version now)
      (createInitRegistryInstruction U rt wallet vaultId version now) := by
  have hvault : vaultId.utf8ByteSize < 2 ^ 32 := by
    have := hC.capacity_lt
    omega
  refine ⟨.initRegistry vaultId (vaultIdHash U rt vaultId) version, ?_, rfl⟩
  rw [createInitRegistryCall, hC.encode_initRegistry _ _ h]
  exact hD.read_initRegistry _ _ _ [] hvault

theorem readAs_createAppendManifest (h : cid.utf8ByteSize + 37 ≤ C.capacity) (version : UInt8)
    (now : Int64) : ReadAs D (createAppendManifestCall C U rt wallet vaultId cid version now)
      (createAppendManifestInstruction U rt wallet vaultId cid version now) := by
  have hcid : cid.utf8ByteSize < 2 ^ 32 := by
    have := hC.capacity_lt
    omega
  refine ⟨.appendManifest (vaultIdHash U rt vaultId) cid version, ?_, rfl⟩
  rw [createAppendManifestCall, hC.encode_appendManifest _ _ h]
  exact hD.read_appendManifest _ _ _ [] hcid

theorem readAs_publishManifest (hvault : vaultId.utf8ByteSize + 37 ≤ C.capacity)
    (hcid : cid.utf8ByteSize + 37 ≤ C.capacity) (version : UInt8)
    (registry : Option (RegistryAccount Key)) (now : Int64) : List.Forall₂ (ReadAs D)
      (publishManifestCalls C U rt wallet vaultId cid version registry now)
      (publishManifest U rt wallet vaultId cid version registry now) := by
  have happend : ReadAs D (createAppendManifestCall C U rt wallet vaultId cid version now)
      (createAppendManifestInstruction U rt wallet vaultId cid version now) :=
    readAs_createAppendManifest hC hD hcid version now
  rw [publishManifestCalls, publishManifest]
  split
  · exact .cons (readAs_createInitRegistry hC hD hvault version now) (.cons happend .nil)
  · exact .cons happend .nil

end ReadAs

/-! ### Transactions -/

/-- The data after the calls of a transaction, when all of them succeed. -/
def Deployed.callAll (D : Deployed Address) (data : AccountData Address)
    (tx : List (Context Key Address × List UInt8)) : Except WireError (AccountData Address) :=
  tx.foldlM (fun data call => D.call data call.1 call.2) data

/-- Whether each call of a transaction can be paid for when its turn comes. -/
def Deployed.AllAffordable (D : Deployed Address) :
    AccountData Address → List (Context Key Address × List UInt8) → Prop
  | _, [] => True
  | data, call :: tx => D.affordable data call.1 call.2 ∧
    ∀ data', D.call data call.1 call.2 = .ok data' → D.AllAffordable data' tx

section Transactions

variable {rt : Runtime Key Address} {D : Deployed Address} {data : AccountData Address}
  {s : Accounts Key Address}

theorem Agrees.mono {p q : Prop} {x : Except WireError (AccountData Address)}
    {y : Except ProgramError (Accounts Key Address)} (h : Agrees rt p x y) (hpq : q → p) :
    Agrees rt q x y := by
  cases h with
  | ok data s h => exact .ok data s h
  | custom e => exact .custom e
  | constraint code e h => exact .constraint code e h
  | unaffordable code y h => exact .unaffordable code y fun hq => h (hpq hq)

variable [DecidableEq Address]

/-- A transaction does to the data what its instructions do to the accounts. -/
theorem agrees_callAll (hD : D.Anchor rt) {tx : List (Context Key Address × List UInt8)}
    {ixs : List (Instruction Key Address)} (hread : List.Forall₂ (ReadAs D) tx ixs)
    (hdata : Represents rt data s) (hinv : Invariant rt s) :
    Agrees rt (D.AllAffordable data tx) (D.callAll data tx) (processTransaction rt s ixs) := by
  induction hread generalizing data s with
  | nil => exact .ok _ _ hdata
  | @cons call ix tx ixs hcall _ ih =>
    obtain ⟨handler, hhandler, rfl⟩ := hcall
    have hagrees : Agrees rt (D.affordable data call.1 call.2) (D.call data call.1 call.2)
        (process rt s (handler.instruction call.1)) := agrees_call hD hdata hinv hhandler
    rw [Deployed.callAll, processTransaction, List.foldlM_cons, List.foldlM_cons]
    generalize hx : D.call data call.1 call.2 = x at hagrees
    generalize hy : process rt s (handler.instruction call.1) = y at hagrees
    cases hagrees with
    | ok data' s' hdata' => exact (ih hdata' (hinv.process hy)).mono fun hall => hall.2 data' hx
    | custom e => exact .custom e
    | constraint code e he => exact .constraint code e he
    | unaffordable code _ h => exact .unaffordable code _ fun hall => h hall.1

/-- The client and the program agree on the wire. In every state that any calls reach, the client
reads the registry of a wallet as the account that the program keeps, entry by entry, or as `null`
where there is none; and the transaction by which it publishes has, on the data, the outcome of its
instructions on the accounts, if it can be paid for. -/
theorem publishManifest_on_wire {C : AnchorClient} (hC : C.Documented) (hD : D.Anchor rt)
    (U : UnicodeData) (hrun : DataRun D (fun _ => none) data) :
    ∃ s, Run rt (fun _ => none) s ∧ Represents rt data s ∧ ∀ wallet vaultId,
      (∀ address, ∃ registry,
        fetchRegistryData C address (.ok (data (getRegistryAddress U rt wallet vaultId))) =
          .ok registry ∧
        registry = (fetchRegistry U rt s wallet vaultId).map (accountValue C.name) ∧
        registry.bind toClientEntries =
          (fetchRegistry U rt s wallet vaultId).map fun a => decodeEntries .bn a.entries) ∧
      ∀ cid version registry now, vaultId.utf8ByteSize + 37 ≤ C.capacity →
        cid.utf8ByteSize + 37 ≤ C.capacity →
        let calls := publishManifestCalls C U rt wallet vaultId cid version registry now
        Agrees rt (D.AllAffordable data calls) (D.callAll data calls)
          (processTransaction rt s
            (publishManifest U rt wallet vaultId cid version registry now)) := by
  obtain ⟨s, hrun, hdata⟩ := represents_of_dataRun hD hrun
  refine ⟨s, hrun, hdata, fun wallet vaultId => ⟨fun address => ?_, ?_⟩⟩
  · rw [fetchRegistry]
    cases ha : s (getRegistryAddress U rt wallet vaultId) with
    | none =>
      rw [getRegistryAddress, hdata.none_iff.mpr ha, hC.fetchRegistryData_none]
      exact ⟨none, rfl, rfl, rfl⟩
    | some a =>
      obtain ⟨buffer, hbuffer, hstored⟩ := hdata.stored ha
      rw [getRegistryAddress, hbuffer, hC.fetchRegistryData_stored address hstored]
      exact ⟨_, rfl, rfl, toClientEntries_accountValue hC.name a⟩
  · intro cid version registry now hvault hcid
    exact agrees_callAll hD (readAs_publishManifest hC hD hvault hcid version registry now) hdata
      (invariant_of_run hrun)

end Transactions

/-! ### A library that behaves as documented -/

def sampleName (name : String) : String :=
  ((camelNames.find? fun p => p.1 == name).map Prod.snd).getD name

def sampleDecode (name : String) (data : List UInt8) : Except String IdlValue :=
  if name = "RegistryAccount" ∧ data.take 8 = accountDiscriminator then
    match (IdlType.struct idlAccount).codec.read (data.drop 8) with
    | some (v, _) => .ok (v.rename sampleName)
    | none => .error "The value of offset is out of range"
  else .error "Invalid account discriminator"

def sampleFetch (address : String) (answer : Except String (Option (List UInt8))) :
    Except String IdlValue :=
  match answer with
  | .error msg => .error msg
  | .ok none => .error ("Account does not exist or has no data " ++ address)
  | .ok (some data) => sampleDecode "RegistryAccount" data

def sampleClient : AnchorClient where
  name := sampleName
  fetch := sampleFetch
  encode discriminator args values :=
    discriminator ++ (IdlType.fieldsCodec args).write ((args.map Prod.fst).zip values)
  capacity := 1000

theorem sampleName_camel : Camel sampleName := by
  unfold Camel
  decide

theorem sampleDecode_account (v : IdlValue) (rest : List UInt8)
    (h : (IdlType.struct idlAccount).codec.Valid v) :
    sampleDecode "RegistryAccount" (accountDiscriminator ++
      ((IdlType.struct idlAccount).codec.write v ++ rest)) = .ok (v.rename sampleName) := by
  obtain ⟨htake, hdrop⟩ := take_discriminator (show accountDiscriminator.length = 8 from rfl)
    ((IdlType.struct idlAccount).codec.write v ++ rest)
  rw [sampleDecode, htake, hdrop, if_pos ⟨rfl, rfl⟩, (IdlType.struct idlAccount).codec.read_write h]

theorem sampleClient_documented : sampleClient.Documented where
  name := sampleName_camel
  fetch_none _ := rfl
  fetch_account _ := sampleDecode_account
  encode _ _ _ _ _ := rfl
  capacity_lt := by decide

theorem sampleProgram_allAffordable (data : AccountData (Key × Hash))
    (tx : List (Context Key (Key × Hash) × List UInt8)) : sampleProgram.AllAffordable data tx := by
  induction tx generalizing data with
  | nil => trivial
  | cons call tx ih => exact ⟨trivial, fun data' _ => ih data'⟩

theorem wireAddress :
    getRegistryAddress UnicodeData.basicLatin wireRuntime wireKey "local-default" =
      (wireKey, wireHash) := by decide +kernel

/-- The client reads the registry, which holds one manifest, and publishes another one. -/
theorem publishManifest_on_wire_sample : ∃ s a,
    fetchRegistry UnicodeData.basicLatin wireRuntime s wireKey "local-default" = some a ∧
    (a.entries.map fun e => e.manifestCid) = ["bafy2"] ∧
    (∃ registry, fetchRegistryData sampleClient "registry" (.ok (wireData (wireKey, wireHash))) =
      .ok registry ∧ registry.bind toClientEntries = some (decodeEntries .bn a.entries)) ∧
    Agrees wireRuntime True
      (sampleProgram.callAll wireData (publishManifestCalls sampleClient
        UnicodeData.basicLatin wireRuntime wireKey "local-default" "bafy3" 1 (some a) 1700000001))
      (processTransaction wireRuntime s (publishManifest
        UnicodeData.basicLatin wireRuntime wireKey "local-default" "bafy3" 1 (some a) 1700000001)) := by
  obtain ⟨s, -, hdata, hclient⟩ := publishManifest_on_wire sampleClient_documented
    sampleProgram_anchor UnicodeData.basicLatin (sampleProgram.dataRun_executeAll _ wireCalls)
  obtain ⟨a, hread, hcids⟩ := Option.map_eq_some_iff.mp wireData_cids
  obtain ⟨buffer, hbuffer, hregistry⟩ := Option.bind_eq_some_iff.mp hread
  have hat : wireData (wireRuntime.registryAddress wireKey wireHash) = some buffer := hbuffer
  obtain ⟨b, hb, hstored⟩ := hdata.account hat
  obtain rfl := Option.some.inj ((sampleProgram_anchor.read_stored hstored).symm.trans hregistry)
  have haccount : fetchRegistry UnicodeData.basicLatin wireRuntime s wireKey "local-default" =
      some b := by
    rw [fetchRegistry, wireAddress]
    exact hb
  obtain ⟨hfetch, hpublish⟩ := hclient wireKey "local-default"
  obtain ⟨registry, hregistry', -, hentries⟩ := hfetch "registry"
  rw [wireAddress] at hregistry'
  rw [haccount] at hentries
  have hcalls := hpublish "bafy3" 1 (some b) 1700000001 (by decide) (by decide)
  exact ⟨s, b, haccount, hcids, ⟨registry, hregistry', hentries⟩,
    hcalls.mono fun _ => sampleProgram_allAffordable _ _⟩

end SovereignJedi.Registry
