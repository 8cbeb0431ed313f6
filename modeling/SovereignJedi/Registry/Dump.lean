import SovereignJedi.Registry.Idl

/-! The script `dump_registry.mjs`, which prints the head of a registry account. It finds the account
in the description, and the fields that it needs in what a library decodes, by patterns in their
names, so that it works with the names of the description and with those of the client; it takes for
the head the last entry after a sort by time. -/

namespace SovereignJedi.Registry

open SovereignJedi.Js (UnicodeData)

/-! ### Names by pattern -/

/-- `/pattern/i.test(name)`, for a pattern of lower-case letters. -/
def matchesName (pattern name : String) : Bool :=
  occursIn pattern.toList (name.toList.map Char.toLower)

/-- The names of the `accounts` of `sj_registry_program.json`. -/
def idlAccountNames : List String := ["RegistryAccount"]

def pickRegistryAccountName (names : List String) : Except String String :=
  match names.find? (matchesName "registry") with
  | some hit => .ok hit
  | none =>
    .error ("IDL accounts: " ++ ", ".intercalate names ++ " (aucun ne contient 'registry')")

/-- `Object.keys(v)`. -/
def keys : IdlValue → List String
  | .object fs => fs.map Prod.fst
  | _ => []

/-- `Object.keys(v).find((k) => /pattern/i.test(k))`. -/
def findKey (pattern : String) (v : IdlValue) : Option String := (keys v).find? (matchesName pattern)

/-- `Number(v)`; `none` is `NaN`. -/
def toNumber : Option IdlValue → Option Int
  | none => some 0
  | some (.i64 n) => some (Js.Double.ofInt n.toInt)
  | some (.u8 n) => some n.toNat
  | some _ => none

/-- The comparison of `pickHead`. A difference that is `NaN` counts as zero. -/
def comparePublished (publishedKey : String) (a b : IdlValue) : Int :=
  match toNumber (field a publishedKey), toNumber (field b publishedKey) with
  | some x, some y => x - y
  | _, _ => 0

def pickHead : List IdlValue → Option IdlValue
  | [] => none
  | sample :: rest =>
    match findKey "published" sample with
    | some publishedKey => (sort (comparePublished publishedKey) (sample :: rest)).getLast?
    | none => (sample :: rest).getLast?

def pickCid (entry : Option IdlValue) : Option IdlValue :=
  entry.bind fun entry => (findKey "cid" entry).bind (field entry)

/-- What the script prints about the account. -/
structure Dump where
  accountName : String
  vaultId : Option IdlValue
  updatedAt : Option IdlValue
  entriesLength : Nat
  headCid : Option IdlValue
  head : Option IdlValue

/-- The printed values, for an account that is decoded as `decoded`. -/
def dump (accountName : String) (decoded : IdlValue) : Dump :=
  let entries :=
    match field decoded "entries" with
    | some (.list xs) => xs
    | _ => []
  let head := pickHead entries
  { accountName
    vaultId := (field decoded "vaultId").or (field decoded "vault_id")
    updatedAt := (field decoded "updatedAt").or (field decoded "updated_at")
    entriesLength := entries.length
    headCid := pickCid head
    head }

/-- What `getAccountInfo` answers. -/
structure AccountInfo where
  owner : Key
  data : List UInt8

/-- `main`, for the names of the accounts in a description and the answer of the node; `decode` is
the method of `BorshAccountsCoder`. -/
def dumpRegistry (toBase58 : Key → String) (decode : String → List UInt8 → Except String IdlValue)
    (names : List String) (programId : Key) (info : Option AccountInfo) : Except String Dump := do
  let accountName ← pickRegistryAccountName names
  match info with
  | none => .error "Registry account not found at PDA"
  | some info =>
    if info.owner = programId then
      return dump accountName (← decode accountName info.data)
    else
      .error ("Owner mismatch. account.owner=" ++ toBase58 info.owner ++ " expected=" ++
        toBase58 programId)

/-- What is documented of the coder: it reads Borsh behind the discriminator of the account, and
gives the names that `f` makes of those in the description. -/
def Decodes (decode : String → List UInt8 → Except String IdlValue) (f : String → String) : Prop :=
  ∀ v rest, (IdlType.struct idlAccount).codec.Valid v →
    decode "RegistryAccount" (accountDiscriminator ++
      ((IdlType.struct idlAccount).codec.write v ++ rest)) = .ok (v.rename f)

/-! ### Both spellings -/

/-- Names by which the script finds what it looks for. -/
structure Readable (f : String → String) : Prop where
  published (e : RegistryEntry Key) : findKey "published" (entryValue f e) = some (f "published_at")
  publishedAt (e : RegistryEntry Key) :
    field (entryValue f e) (f "published_at") = some (.i64 e.publishedAt)
  cid (e : RegistryEntry Key) : findKey "cid" (entryValue f e) = some (f "manifest_cid")
  manifestCid (e : RegistryEntry Key) :
    field (entryValue f e) (f "manifest_cid") = some (.string e.manifestCid)
  entries (a : RegistryAccount Key) :
    field (accountValue f a) "entries" = some (.list (a.entries.map (entryValue f)))
  vaultId (name : String) (a : RegistryAccount Key) :
    (dump name (accountValue f a)).vaultId = some (.string a.vaultId)
  updatedAt (name : String) (a : RegistryAccount Key) :
    (dump name (accountValue f a)).updatedAt = some (.i64 a.updatedAt)

theorem readable_id : Readable id := by
  have hpublished : matchesName "published" "manifest_cid" = false ∧
      matchesName "published" "manifest_cid_hash" = false ∧
      matchesName "published" "published_at" = true := by decide
  have hcid : matchesName "cid" "manifest_cid" = true := by decide
  constructor <;> intros <;>
    simp [findKey, keys, entryValue, field, accountValue, dump, hpublished, hcid]

theorem Camel.readable {f : String → String} (hf : Camel f) : Readable f := by
  have hpublished : matchesName "published" "manifestCid" = false ∧
      matchesName "published" "manifestCidHash" = false ∧
      matchesName "published" "publishedAt" = true := by decide
  have hcid : matchesName "cid" "manifestCid" = true := by decide
  constructor <;> intros <;>
    simp [findKey, keys, entryValue, field, accountValue, dump, hf.entry, hf.account, hpublished,
      hcid]

/-! ### The last entry -/

/-- Entries in the order of their times. -/
def Chronological (entries : List (RegistryEntry Key)) : Prop :=
  entries.Pairwise fun e e' => e.publishedAt ≤ e'.publishedAt

namespace Readable

variable {f : String → String} (hf : Readable f) {a : RegistryAccount Key}
  {entries : List (RegistryEntry Key)}

include hf

theorem comparePublished_le (e e' : RegistryEntry Key) :
    comparePublished (f "published_at") (entryValue f e) (entryValue f e') ≤ 0 ↔ e.time ≤ e'.time := by
  rw [comparePublished, hf.publishedAt, hf.publishedAt]
  change e.time - e'.time ≤ 0 ↔ _
  omega

/-- What is in order stays as it is, so that the script picks the last entry. -/
theorem pickHead_eq (h : Chronological entries) :
    pickHead (entries.map (entryValue f)) = entries.getLast?.map (entryValue f) := by
  have hsorted : sort (comparePublished (f "published_at")) (entries.map (entryValue f)) =
      entries.map (entryValue f) := by
    refine List.mergeSort_of_pairwise (List.pairwise_map.mpr (h.imp fun {e e'} hle => ?_))
    exact decide_eq_true ((hf.comparePublished_le e e').mpr (time_mono hle))
  cases entries with
  | nil => rfl
  | cons e rest =>
    rw [List.map_cons, pickHead, hf.published, ← List.getLast?_map, ← List.map_cons]
    exact congrArg List.getLast? hsorted

theorem headCid_eq (h : Chronological a.entries) (name : String) :
    (dump name (accountValue f a)).headCid =
      a.entries.getLast?.map fun e => IdlValue.string e.manifestCid := by
  simp only [dump, hf.entries, hf.pickHead_eq h]
  cases a.entries.getLast? with
  | none => rfl
  | some e => simp only [pickCid, Option.map_some, Option.bind_some, hf.cid, hf.manifestCid]

end Readable

/-! ### Runs -/

variable {Address : Type} [DecidableEq Address] {rt : Runtime Key Address}

/-- Every account lists its entries by their times, none of which is after `now`. -/
def ChronologicalBy (now : Int64) (s : Accounts Key Address) : Prop :=
  PublishedBy now s ∧ ∀ address a, s address = some a → Chronological a.entries

theorem ChronologicalBy.execute {now : Int64} {s : Accounts Key Address}
    (h : ChronologicalBy now s) {ix : Instruction Key Address} (hix : now ≤ ix.ctx.unixTimestamp) :
    ChronologicalBy ix.ctx.unixTimestamp (execute rt s ix) := by
  have hs : PublishedBy ix.ctx.unixTimestamp s := fun address a ha e he =>
    ⟨Int64.le_trans (h.1 address a ha e he).1 hix, (h.1 address a ha e he).2⟩
  refine ⟨hs.execute (Int64.le_refl _), fun address b hb => ?_⟩
  rcases execute_cases rt s ix with hsame | ⟨a, hc⟩ | ⟨a, cid, happend⟩
  · exact h.2 address b (hsame ▸ hb)
  · rw [hc.accounts] at hb
    by_cases hat : address = ix.ctx.registry
    · subst hat
      obtain rfl : a = b := by simpa using hb
      rw [hc.entries]
      exact List.Pairwise.nil
    · exact h.2 address b (by simpa [hat] using hb)
  · rw [happend.accounts] at hb
    by_cases hat : address = ix.ctx.registry
    · subst hat
      rw [Function.update_self, Option.some.injEq] at hb
      subst hb
      refine List.pairwise_append.mpr ⟨h.2 _ a happend.found, List.pairwise_singleton .., ?_⟩
      intro e he e' he'
      obtain rfl := List.mem_singleton.mp he'
      exact (hs _ a happend.found e he).1
    · exact h.2 address b (by simpa [hat] using hb)

/-- When the clock never goes back, the accounts are chronological. -/
theorem chronological_of_calls {D : Deployed Address} (hD : D.Anchor rt)
    {calls : List (Context Key Address × List UInt8)}
    (hclock : calls.Pairwise fun call call' => call.1.unixTimestamp ≤ call'.1.unixTimestamp)
    {data : AccountData Address} {s : Accounts Key Address} {now : Int64}
    (hdata : Represents rt data s) (hinv : Invariant rt s) (hs : ChronologicalBy now s)
    (hnow : ∀ call ∈ calls, now ≤ call.1.unixTimestamp) :
    ∃ t, Represents rt (D.executeAll data calls) t ∧ Invariant rt t ∧
      ∃ now', ChronologicalBy now' t := by
  induction calls generalizing data s now with
  | nil => exact ⟨s, hdata, hinv, now, hs⟩
  | cons call calls ih =>
    rw [List.pairwise_cons] at hclock
    rw [List.forall_mem_cons] at hnow
    -- a call that changes no registry
    have hunchanged (h : Represents rt (D.execute data call.1 call.2) s) :=
      ih hclock.2 h hinv hs hnow.2
    rw [Deployed.executeAll, List.foldl_cons]
    cases h : D.read call.2 with
    | none => exact hunchanged (hdata.other hD h)
    | some handler =>
      have hctx : (handler.instruction call.1).ctx = call.1 := by cases handler <;> rfl
      rcases (agrees_call hD hdata hinv h).execute hdata with hexecute | hexecute
      · refine ih hclock.2 hexecute (hinv.execute _) (hs.execute (hctx.symm ▸ hnow.1)) ?_
        rw [hctx]
        exact hclock.1
      · exact hunchanged hexecute.1

/-! ### The two heads -/

variable {localeCompare : String → String → Int}

theorem nodup_decodeEntries (entries : List (RegistryEntry Key)) :
    (decodeEntries .bn entries).Nodup := by
  refine List.pairwise_iff_getElem.mpr fun i j hi hj hij heq => ?_
  simp [decodeEntries, decodeEntry] at heq
  omega

/-- The sort of the client is stable: the last entry is its head only if it is later than the
others. -/
theorem time_lt_of_selectHead (horder : TotalOrder localeCompare)
    {earlier : List (RegistryEntry Key)} {e last : RegistryEntry Key} (he : e ∈ earlier)
    (hhead : selectHead localeCompare (decodeEntries .bn (earlier ++ [last])) =
      some (decodeEntry .bn earlier.length last)) : e.time < last.time := by
  have hsort : sort (compareHead localeCompare) (decodeEntries .bn (earlier ++ [last])) =
      (decodeEntries .bn (earlier ++ [last])).mergeSort (ranked (tieOf localeCompare .bn)) := by
    simpa [sort] using List.map_mergeSort (f := id)
      fun a ha b hb => compareHead_ranked horder .bn ha hb
  have hsplit : decodeEntries .bn (earlier ++ [last]) =
      decodeEntries .bn earlier ++ [decodeEntry .bn earlier.length last] := by
    rw [decodeEntries, List.mapIdx_concat]
    rfl
  obtain ⟨rest, hrest⟩ : ∃ rest, (decodeEntries .bn (earlier ++ [last])).mergeSort
      (ranked (tieOf localeCompare .bn)) = decodeEntry .bn earlier.length last :: rest := by
    have hempty : (decodeEntries .bn (earlier ++ [last])).isEmpty = false := by simp [hsplit]
    rw [selectHead, hempty, hsort] at hhead
    exact ⟨_, (List.head?_eq_some_iff.mp (List.head?_eq_getElem?.trans hhead)).choose_spec⟩
  obtain ⟨i, hi⟩ := List.mem_iff_getElem?.mp he
  have hmem : decodeEntry .bn i e ∈ decodeEntries .bn earlier :=
    mem_decodeEntries.mpr ⟨i, e, hi, rfl⟩
  by_contra hlt
  have hbefore : [decodeEntry .bn i e, decodeEntry .bn earlier.length last].Sublist
      (decodeEntries .bn (earlier ++ [last])) := by
    rw [hsplit]
    exact (List.singleton_sublist.mpr hmem).append (List.Sublist.refl _)
  have hranked : ranked (tieOf localeCompare .bn) (decodeEntry .bn i e)
      (decodeEntry .bn earlier.length last) := by
    simp only [ranked, tieOf, toNumber_decodeEntry, Bool.and_true, Bool.or_eq_true, decide_eq_true_eq]
    omega
  have hstable := List.pair_sublist_mergeSort (ranked_trans (tieOf_trans horder .bn))
    (ranked_total (tieOf_total horder .bn)) hranked hbefore
  have hnodup := (List.mergeSort_perm _ (ranked (tieOf localeCompare .bn))).nodup_iff.mpr
    (nodup_decodeEntries (earlier ++ [last]))
  rw [hrest] at hstable hnodup
  have hnot := (List.nodup_cons.mp hnodup).1
  generalize decodeEntry .bn i e = x at hstable
  generalize decodeEntry .bn earlier.length last = y at hstable hnot
  cases hstable with
  | cons _ h => exact hnot (h.subset (by simp))
  | cons_cons _ h => exact hnot (h.subset (by simp))

/-- What the script prints of an account, and when the client takes the same entry for the head. -/
structure DumpsHead (localeCompare : String → String → Int) (f : String → String)
    (a : RegistryAccount Key) (d : Dump) : Prop where
  accountName : d.accountName = "RegistryAccount"
  vaultId : d.vaultId = some (.string a.vaultId)
  updatedAt : d.updatedAt = some (.i64 a.updatedAt)
  entriesLength : d.entriesLength = a.entries.length
  head : d.head = a.entries.getLast?.map (entryValue f)
  headCid : d.headCid = a.entries.getLast?.map fun e => .string e.manifestCid
  agrees : ∀ earlier last, a.entries = earlier ++ [last] →
    ((selectHead localeCompare (decodeEntries .bn a.entries)).map (fun e => e.manifestCid) =
      some last.manifestCid ↔ ∀ e ∈ earlier, e.time < last.time)

theorem selectHead_eq_last_iff (horder : TotalOrder localeCompare)
    {earlier : List (RegistryEntry Key)} {last : RegistryEntry Key}
    (hnodup : ((earlier ++ [last]).map fun e => e.manifestCid).Nodup) :
    (selectHead localeCompare (decodeEntries .bn (earlier ++ [last]))).map (fun e => e.manifestCid) =
      some last.manifestCid ↔ ∀ e ∈ earlier, e.time < last.time := by
  obtain ⟨i, head, hi, hhead, hlatest⟩ := selectHead_eq_some horder .bn
    (show earlier ++ [last] ≠ [] by simp)
  rw [hhead]
  constructor
  · intro hcid e he
    have hlast : (earlier ++ [last])[earlier.length]? = some last := by simp
    have hindex : i = earlier.length := by
      have hlt : i < ((earlier ++ [last]).map fun e => e.manifestCid).length := by
        simpa using (List.getElem?_eq_some_iff.mp hi).1
      refine (List.getElem?_inj hlt hnodup).mp ?_
      rw [List.getElem?_map, List.getElem?_map, hi, hlast]
      exact hcid
    subst hindex
    obtain rfl := Option.some.inj (hi.symm.trans hlast)
    exact time_lt_of_selectHead horder he hhead
  · intro hlt
    rcases List.mem_append.mp (List.mem_of_getElem? hi) with he | he
    · have := hlt head he
      have := hlatest last (by simp)
      omega
    · obtain rfl := List.mem_singleton.mp he
      rfl

/-- The dumped head is the entry that was appended last, in either spelling of the names, in every
run of calls whose clock never goes back. The client's head has its CID exactly when no other entry
was published in the same second, as far as a number tells. -/
theorem dump_head {D : Deployed Address} (hD : D.Anchor rt) (horder : TotalOrder localeCompare)
    {decode : String → List UInt8 → Except String IdlValue} {f : String → String}
    (hf : f = id ∨ Camel f) (hdecode : Decodes decode f)
    {calls : List (Context Key Address × List UInt8)}
    (hclock : calls.Pairwise fun call call' => call.1.unixTimestamp ≤ call'.1.unixTimestamp)
    {wallet : Key} {vaultIdHash : Hash} {buffer : List UInt8}
    (hbuffer : D.executeAll (fun _ => none) calls (rt.registryAddress wallet vaultIdHash) =
      some buffer) (toBase58 : Key → String) (programId : Key) :
    ∃ a d, Stored buffer a ∧ dumpRegistry toBase58 decode idlAccountNames programId
      (some ⟨programId, buffer⟩) = .ok d ∧ DumpsHead localeCompare f a d := by
  have hread : Readable f := by
    rcases hf with rfl | hf
    · exact readable_id
    · exact hf.readable
  obtain ⟨s, hdata, hinv, now, hs⟩ : ∃ t, Represents rt (D.executeAll (fun _ => none) calls) t ∧
      Invariant rt t ∧ ∃ now, ChronologicalBy now t := by
    have hs : ChronologicalBy Int64.minValue (fun _ : Address => none) :=
      ⟨fun _ _ h => (Option.some_ne_none _ h.symm).elim,
        fun _ _ h => (Option.some_ne_none _ h.symm).elim⟩
    exact chronological_of_calls hD hclock (fun _ _ => .none) (fun _ _ h => by cases h) hs
      fun _ _ => Int64.minValue_le _
  obtain ⟨a, ha, hstored⟩ := hdata.account hbuffer
  have hchronological := hs.2 _ a ha
  refine ⟨a, dump "RegistryAccount" (accountValue f a), hstored, ?_, ?_⟩
  · obtain ⟨hvalid, rest, rfl⟩ := hstored.eq_append
    have hname : pickRegistryAccountName idlAccountNames = .ok "RegistryAccount" := by decide
    have hdecoded := hdecode _ rest (accountValue_valid hvalid)
    rw [accountValue_write hvalid, accountValue_rename] at hdecoded
    rw [dumpRegistry, hname]
    show (if _ then _ else _) = _
    rw [if_pos rfl, hdecoded]
    rfl
  · exact {
      accountName := rfl
      vaultId := hread.vaultId _ a
      updatedAt := hread.updatedAt _ a
      entriesLength := by simp only [dump, hread.entries, List.length_map]
      head := by simp only [dump, hread.entries, hread.pickHead_eq hchronological]
      headCid := hread.headCid_eq hchronological _
      agrees := fun earlier last hentries => by
        have hnodup := (hinv _ a ha).2.cids_nodup
        rw [hentries] at hnodup ⊢
        exact selectHead_eq_last_iff horder hnodup }

/-- The calls that initialise a registry and publish two manifests, a minute apart. -/
def dumpCalls : List (Context Key (Key × Hash) × List UInt8) :=
  wireCalls ++ [({ wireContext with unixTimestamp := 1700000060 }, wireAppend)]

theorem dumpCalls_cids :
    ((sampleProgram.executeAll (fun _ => none) dumpCalls (wireKey, wireHash)).bind
      sampleDeserialize).map (fun a => a.entries.map fun e => e.manifestCid) =
        some ["bafy2", "bafy3"] := by decide +kernel

theorem dump_head_sample : ∃ buffer a d, Stored buffer a ∧
    (a.entries.map fun e => e.manifestCid) = ["bafy2", "bafy3"] ∧
    dumpRegistry (fun _ => "") sampleDecode idlAccountNames wireKey (some ⟨wireKey, buffer⟩) =
      .ok d ∧ DumpsHead sampleCompare sampleName a d := by
  obtain ⟨b, hread, hcids⟩ := Option.map_eq_some_iff.mp dumpCalls_cids
  obtain ⟨buffer, hbuffer, hregistry⟩ := Option.bind_eq_some_iff.mp hread
  have hclock : dumpCalls.Pairwise fun call call' =>
      call.1.unixTimestamp ≤ call'.1.unixTimestamp := by
    simp [dumpCalls, wireCalls, wireContext]
  have hat : sampleProgram.executeAll (fun _ => none) dumpCalls
      (wireRuntime.registryAddress wireKey wireHash) = some buffer := hbuffer
  obtain ⟨a, d, hstored, hdump⟩ := dump_head sampleProgram_anchor sampleCompare_order
    (Or.inr sampleName_camel) sampleDecode_account hclock hat (fun _ => "") wireKey
  obtain rfl := Option.some.inj ((sampleProgram_anchor.read_stored hstored).symm.trans hregistry)
  exact ⟨buffer, a, d, hstored, hcids, hdump⟩

end SovereignJedi.Registry
