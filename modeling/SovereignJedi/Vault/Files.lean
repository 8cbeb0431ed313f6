import SovereignJedi.Files.Gate
import SovereignJedi.Pages.Operations
import SovereignJedi.Registry.Devices

/-! The files of a vault. On one device a file is encrypted and uploaded, an entry for it appended to
the manifest and the manifest published; another restores the manifest, loads it and lists the file.
Whatever runs at the same time, a row of that list leads back to a file as it was uploaded: to its
name and size, and to a package that opens to its bytes. -/

namespace SovereignJedi.Vault

open SovereignJedi.Js SovereignJedi.Async SovereignJedi.Manifest
open SovereignJedi.Crypto (deriveKekFromSignature_ok)
open SovereignJedi.Files (UploadEnv UploadResult uploadEncryptedToIpfsOrThrow openWith)
open SovereignJedi.Wallet (loadIdentity decodeSignature)
open SovereignJedi.Session (sampleDates sampleCodecs sampleSign)
open SovereignJedi.Pages (FileItem fileItem fileEntry)

/-! ### Uploads -/

section Statements

variable (P : Platform) (T : Dates) (C : TextCodecs)

/-- A file that was uploaded for `w`. -/
structure Upload (w : WalletPubKey) where
  env : UploadEnv
  file : Files.File
  result : UploadResult
  uploaded : uploadEncryptedToIpfsOrThrow P T C env file w.val = .ok result

variable {P T C} {w : WalletPubKey}

/-- The entry that `handleFile` appends for it. -/
def Upload.entry (u : Upload P T C w) : EntryArg :=
  fileEntry u.file ⟨u.result.cid, u.result.object.get "envelope",
    Pages.upload_envelope_wf u.uploaded⟩

/-- The signature of the proof of control that was stored at the upload. -/
def Upload.SignedWith (u : Upload P T C w) (sig : Bytes) : Prop :=
  ∃ identity, loadIdentity P u.env.localStorage = some identity ∧
    decodeSignature C identity.signature = .ok sig

/-- A row of the list shows the uploaded file and leads to it: the object at its CID is the package,
which opens with the signature of the upload, and with whatever signature to nothing but the bytes of
the file. -/
structure Shows (row : FileItem) (u : Upload P T C w) : Prop where
  name : row.name = .str u.file.name
  size : row.sizeBytes = .num u.file.bytes.length
  cid : row.cid = some (.str u.result.cid)
  package : P.decodeBytesToJson (P.content u.result.cid) = .ok u.result.object
  opens : ∃ sig, u.SignedWith sig ∧ openWith P u.result.object sig = .ok u.file.bytes
  nothingElse : ∀ sig bytes, openWith P u.result.object sig = .ok bytes → bytes = u.file.bytes

end Statements

variable {P : Platform} {T : Dates} {C : TextCodecs} {w : WalletPubKey}

theorem Upload.object_wf (u : Upload P T C w) : u.result.object.WF := by
  obtain ⟨draws, plaintext, options, encrypted, hencrypt, -, hobject, -⟩ :=
    Files.upload_object u.uploaded
  obtain ⟨key, id, json, cipher, aad, wrapped, hs⟩ := Files.encryptFile_eq_ok hencrypt
  rw [hobject, hs.encryptedFile, hs.envelope]
  exact Files.buildEncryptedIpfsObjectV1_wf (Files.encryptedFileObject_wf ..)
    (Files.envelopeObject_wf ..) _

theorem Upload.cid_eq (u : Upload P T C w) :
    u.result.cid = P.cidOf (P.encodeJsonToBytes u.result.object) := by
  obtain ⟨-, -, -, -, -, -, -, hcid⟩ := Files.upload_object u.uploaded
  exact hcid

/-- The object at the CID of an upload is the package. -/
theorem Upload.package (hP : P.Lawful) (u : Upload P T C w) :
    P.decodeBytesToJson (P.content u.result.cid) = .ok u.result.object := by
  rw [u.cid_eq, hP.content_cidOf, hP.decode_encode u.object_wf]

/-- There was a proof of control at the upload. -/
theorem Upload.exists_identity (u : Upload P T C w) :
    ∃ identity, loadIdentity P u.env.localStorage = some identity := by
  have h := u.uploaded
  simp only [uploadEncryptedToIpfsOrThrow, bind_eq_ok, require_eq_ok, exists_const] at h
  obtain ⟨-, -, -, h⟩ := h
  cases hid : loadIdentity P u.env.localStorage with
  | some identity => exact ⟨identity, rfl⟩
  | none =>
    rw [hid] at h
    cases h

theorem Upload.opens (hP : P.Lawful) (u : Upload P T C w) :
    ∃ sig, u.SignedWith sig ∧ openWith P u.result.object sig = .ok u.file.bytes := by
  obtain ⟨identity, hid⟩ := u.exists_identity
  obtain ⟨sig, options, encrypted, hsig, hkek, hfileId, hencrypt, hopen⟩ :=
    Files.upload_eq_ok hP u.uploaded hid
  obtain ⟨kek, hkek', hlen⟩ := deriveKekFromSignature_ok hP sig (some u.env.salt.1)
  obtain rfl := Except.ok.inj (hkek.symm.trans hkek')
  refine ⟨sig, ⟨identity, hid, hsig⟩, ?_⟩
  rw [hopen, hkek']
  exact Files.decryptFile_encryptFile hP hencrypt (by simp [hfileId]) hlen

theorem Upload.nothingElse (hP : P.Lawful) (hA : P.IdealAead) (u : Upload P T C w) {sig bytes : Bytes}
    (h : openWith P u.result.object sig = .ok bytes) : bytes = u.file.bytes := by
  obtain ⟨identity, hid⟩ := u.exists_identity
  obtain ⟨-, options, encrypted, -, -, hfileId, hencrypt, hopen⟩ :=
    Files.upload_eq_ok hP u.uploaded hid
  rw [hopen] at h
  obtain ⟨kek, -, hdecrypt⟩ := bind_eq_ok.mp h
  exact (Files.decryptFile_unique hP hA hencrypt (by simp [hfileId]) hdecrypt).2

/-! ### Rows -/

/-- A field of a new entry is as it was given. -/
theorem get_newEntry {p : AppendParams} {f : String × Value}
    (hf : f ∈ [("entryId", some (Json.str p.entryId)), ("fileCid", some (.str p.entry.fileCid)),
      ("addedAt", some (.str p.addedAt)), ("envelope", p.entry.envelope),
      ("originalFileName", p.entry.originalFileName.map .str),
      ("mimeType", p.entry.mimeType.map .str), ("fileSize", p.entry.fileSize.map .num),
      ("fileIntegritySha256B64", p.entry.fileIntegritySha256B64.map .str)]) :
    (newEntry p).get f.1 = f.2 := by
  have hnames : ["entryId", "fileCid", "addedAt", "envelope", "originalFileName", "mimeType",
    "fileSize", "fileIntegritySha256B64"].Nodup := by decide
  exact Json.get_ofFields hnames hf

/-- The entry of an upload is listed as a row that shows it. -/
theorem Upload.listed (hP : P.Lawful) (hA : P.IdealAead) (u : Upload P T C w) {p : AppendParams}
    (hp : p.entry = u.entry) : ∃ row, fileItem (newEntry p) = .ok row ∧ Shows row u := by
  have hname : (newEntry p).get "originalFileName" = some (.str u.file.name) := by
    have h := get_newEntry (p := p) (f := ("originalFileName", p.entry.originalFileName.map .str))
      (by simp)
    rwa [hp] at h
  have hsize : (newEntry p).get "fileSize" = some (.num u.file.bytes.length) := by
    have h := get_newEntry (p := p) (f := ("fileSize", p.entry.fileSize.map .num)) (by simp)
    rwa [hp] at h
  have hcid : (newEntry p).get "fileCid" = some (.str u.result.cid) := by
    have h := get_newEntry (p := p) (f := ("fileCid", some (.str p.entry.fileCid))) (by simp)
    rwa [hp] at h
  refine ⟨_, rfl, ?_, ?_, hcid, u.package hP, u.opens hP, fun _ _ h => u.nothingElse hP hA h⟩
  · simp only [hname, orElse]
  · simp only [hsize, orElse]

/-- A merge adds the entry of the append at most. -/
theorem mem_of_mergeEntry {p : AppendParams} {m m' : Json} (h : mergeEntry p m = .ok m') {x : Json}
    (hx : x ∈ manifestEntries m') : x ∈ manifestEntries m ∨ x = newEntry p := by
  simp only [mergeEntry, bind_eq_ok, require_eq_ok, exists_const, result_pure, Except.ok.injEq] at h
  obtain ⟨-, -, es, hes, dup, -, rfl⟩ := h
  have hget : ∀ (j : Json) (es' : List Json), j.get "entries" = some (.arr es') →
      manifestEntries (j.set "updatedAt" (.str p.env.updatedAtNow)) = es' := by
    intro j es' hj
    exact manifestEntries_ok (entriesOf_eq_ok.mpr (by rw [Json.get_set_ne (by decide), hj]))
  rw [manifestEntries_ok hes]
  cases dup with
  | true =>
    simp only [if_true, hget m es (entriesOf_eq_ok.mp hes)] at hx
    exact Or.inl hx
  | false =>
    obtain ⟨fs, rfl⟩ := Json.exists_obj_of_get (entriesOf_eq_ok.mp hes)
    have hmerged := hget _ _ (Json.get_set_same fs "entries" (.arr (es ++ [newEntry p])))
    simp only [Bool.false_eq_true, if_false, hmerged, List.mem_append, List.mem_singleton] at hx
    exact hx

/-- The entries of a manifest that appends make are entries that it had, and those of the appends. -/
theorem entries_of_makes {ps : List AppendParams} {m₀ m : Json} (h : Makes ps m₀ m) {x : Json}
    (hx : x ∈ manifestEntries m) :
    x ∈ manifestEntries m₀ ∨ ∃ p ∈ ps, x = newEntry p := by
  induction ps generalizing m₀ with
  | nil =>
    obtain rfl := Except.ok.inj h
    exact Or.inl hx
  | cons p ps ih =>
    rw [Makes, List.foldlM_cons, bind_eq_ok] at h
    obtain ⟨m₁, hmerge, h⟩ := h
    rcases ih h with hx | ⟨p', hp', hx⟩
    · rcases mem_of_mergeEntry hmerge hx with hx | hx
      · exact Or.inl hx
      · exact Or.inr ⟨p, List.mem_cons_self, hx⟩
    · exact Or.inr ⟨p', List.mem_cons_of_mem _ hp', hx⟩

/-! ### Restored files -/

section Restored

variable {Pubkey Address : Type} [DecidableEq Pubkey] [DecidableEq Address]
  {W : Registry.Deployment Pubkey Address} {users : WalletPubKey → Prop}
  {s : Registry.World Pubkey Address} {q : Registry.DevicePool Pubkey Address}

/-- Files come to every device. In every run in which the appends for a user are those of uploaded
files, and where the last entry of the user's registry is later than the others, any browser that
restores and loads with the signature that sealed the manifest gets one whose entries were there at
the start, or are listed as rows that show uploaded files. -/
theorem files_restorable (hW : W.Lawful) (hstart : s.Whole W users)
    (hrun : Registry.DevicesRun W users s q) (hw : users w)
    (hfiles : ∀ p, Registry.IssuedOn q (.append p) → Js.trim p.walletPubKey = w.val →
      ∃ u : Upload W.platform T C w, p.entry = u.entry)
    {earlier : List (Registry.RegistryEntry Pubkey)} {e : Registry.RegistryEntry Pubkey}
    (hentries : Registry.entriesOf (W.registry w q.state.accounts) = earlier ++ [e])
    (hlast : ∀ e' ∈ earlier, e'.time < e.time) :
    ∃ sig m, Seals (s.Has W users) (Registry.IssuedOn q) w sig ∧
      (∀ (b : Browser) (p : LoadParams), Js.trim p.walletPubKey = w.val → p.signatureBytes = sig →
        hasUnlock p.unlock = true → p.env.fault.NoneOf readSteps →
          ((loadManifestOrInit W.platform p).run
            (W.restored w (W.registry w q.state.accounts) b)).2 = .ok (.loaded m e.manifestCid)) ∧
      ∀ x ∈ manifestEntries m, (∃ sig₀ m₀, s.Has W users w sig₀ m₀ ∧ x ∈ manifestEntries m₀) ∨
        ∃ (u : Upload W.platform T C w) (row : FileItem), fileItem x = .ok row ∧ Shows row u := by
  obtain ⟨hvalid, sig, m, hat⟩ := (Registry.DevicesRun.holds hW hstart hrun).registries w hw e
    (by simp [hentries])
  refine ⟨sig, m, hat.seals, fun b p hp hsig hunlock hfault => ?_, fun x hx => ?_⟩
  · refine Registry.load_of_open hW.platform hp hunlock hfault
      (Registry.manifestCid_restored hW hentries hlast hvalid b) ?_
    rw [hsig]
    exact hat.opens
  · obtain ⟨m₀, ps, hm₀, hps, hmakes⟩ := hat.explained
    rcases entries_of_makes hmakes hx with hx | ⟨p, hp, rfl⟩
    · rcases hm₀ with ⟨sig₀, hm₀⟩ | ⟨createdAt, rfl⟩
      · exact Or.inl ⟨sig₀, m₀, hm₀, hx⟩
      · cases hx
    · obtain ⟨hissued, hpw⟩ := hps p hp
      obtain ⟨u, hu⟩ := hfiles p hissued hpw
      exact Or.inr ⟨u, u.listed hW.platform hW.idealAead hu⟩

end Restored

/-! ### A sample -/

/-- The file is uploaded likewise where objects have other names, if its package has the same. -/
theorem upload_withIpfs {cidOf : Bytes → String} (content : String → Bytes) {env : UploadEnv}
    {file : Files.File} {w : String} {r : UploadResult}
    (h : uploadEncryptedToIpfsOrThrow P T C env file w = .ok r)
    (hcid : cidOf (P.encodeJsonToBytes r.object) = r.cid) :
    uploadEncryptedToIpfsOrThrow (P.withIpfs cidOf content) T C env file w = .ok r := by
  simp only [uploadEncryptedToIpfsOrThrow, bind_eq_ok, require_eq_ok, exists_const] at h ⊢
  obtain ⟨hwallet, hcan, hsize, h⟩ := h
  refine ⟨hwallet, hcan, hsize, ?_⟩
  have hload : loadIdentity (P.withIpfs cidOf content) env.localStorage =
      loadIdentity P env.localStorage := rfl
  rw [hload]
  split at h
  · cases h
  · simp only [bind_eq_ok, result_pure, Except.ok.injEq] at h ⊢
    obtain ⟨sig, hsig, issuedAt, hissued, unlock, hunlock, kek, hkek, plaintext, hread, encrypted,
      hencrypt, cid, hadd, rfl⟩ := h
    refine ⟨sig, hsig, issuedAt, hissued, unlock, hunlock, kek, hkek, plaintext, hread, encrypted,
      hencrypt, cid, ?_, rfl⟩
    cases hfault : env.addFault with
    | none => exact congrArg Except.ok hcid
    | some e =>
      rw [hfault] at hadd
      cases hadd

/-- The package of an upload is no manifest. -/
theorem Upload.not_manifest (hP : P.Lawful) (u : Upload P T C w) {w' : String} {sig bytes : Bytes}
    {m : Json} (hopen : openManifest P w' sig bytes = .ok m) :
    P.encodeJsonToBytes u.result.object ≠ bytes := by
  rintro rfl
  simp only [openManifest, hP.decode_encode u.object_wf, ok_bind, bind_eq_ok] at hopen
  obtain ⟨key, -, hdecrypt⟩ := hopen
  simp only [decryptManifestV1, bind_eq_ok, require_eq_ok, exists_const, Bool.and_eq_true] at hdecrypt
  obtain ⟨⟨-, hkind⟩, -⟩ := hdecrypt
  obtain ⟨-, -, -, encrypted, -, -, hobject, -⟩ := Files.upload_object u.uploaded
  rw [hobject] at hkind
  cases hkind

/-- A manifest takes the entry of an upload. -/
theorem Upload.valid (hP : P.Lawful) (u : Upload P T C w) : u.entry.Valid := by
  constructor
  · show isBlank u.result.cid = false
    rw [u.cid_eq, isBlank, hP.cidOf_trim]
    exact beq_false_of_ne (hP.cidOf_ne _)
  · show truthy (u.result.object.get "envelope") = true
    obtain ⟨_, _, _, encrypted, hencrypt, -, hobject, -⟩ := Files.upload_object u.uploaded
    obtain ⟨key, id, json, cipher, aad, wrapped, hs⟩ := Files.encryptFile_eq_ok hencrypt
    rw [hobject, hs.envelope]
    rfl

/-- An upload of the sample file, where it is stored under the same CID as on the symbolic
platform. -/
theorem exists_sampleUpload : ∃ (u : Upload symbolic sampleDates sampleCodecs sampleWallet),
    ∀ {bytes sig : Bytes} {w' : String} {m : Json}, openManifest symbolic w' sig bytes = .ok m →
      ∃ u' : Upload (pinned bytes) sampleDates sampleCodecs sampleWallet, u'.entry = u.entry := by
  have hadmitted := Files.sample_admitted Files.sampleSign_length
    (show isBlank sampleWallet.val = false by decide)
  obtain ⟨r, hr⟩ := Files.upload_succeeds symbolic_lawful hadmitted rfl
  refine ⟨⟨_, _, r, hr⟩, fun {bytes _ _ _} hopen => ?_⟩
  let u : Upload symbolic sampleDates sampleCodecs sampleWallet := ⟨_, _, r, hr⟩
  have hcid : (pinned bytes).cidOf (symbolic.encodeJsonToBytes r.object) = r.cid := by
    rw [pinned_cidOf_ne (u.not_manifest symbolic_lawful hopen)]
    exact u.cid_eq.symm
  exact ⟨⟨_, _, r, upload_withIpfs _ hr hcid⟩, rfl⟩

/-- Of the sample wallet, only the empty manifest is there at the start. -/
theorem has_storedWorld {bytes₀ bytes sig₀ : Bytes} {m₀ : Json}
    (hseal : sealEmpty symbolic sampleWallet.val sampleLoad = .ok bytes₀)
    (h : (Registry.storedWorld bytes₀).Has (Registry.sampleDeployment bytes) (fun _ => True)
      sampleWallet sig₀ m₀) : manifestEntries m₀ = [] := by
  obtain ⟨cid, hnames, hopen⟩ := h
  obtain ⟨-, hcontent⟩ := Registry.names_storedWorld hnames
  have hopen : openManifest (pinned bytes) sampleWallet.val sig₀ ((pinned bytes).content cid) =
    .ok m₀ := hopen
  rw [hcontent, Registry.openManifest_pinned] at hopen
  obtain rfl := openManifest_unique symbolic_idealAead hopen
    (openManifest_sealEmpty symbolic_lawful hseal)
  exact manifestEntries_emptyManifest ..

/-- The append of an entry. -/
def appendOf (e : EntryArg) : AppendParams := { sampleAppend with entry := e }

/-- What a load returns is what is at its CID. -/
theorem open_of_load (hP : P.Lawful) {p : LoadParams} (hw : Js.trim p.walletPubKey = w.val)
    (hunlock : hasUnlock p.unlock = true) {b : Browser} {m : Json} {cid : String}
    (h : ((loadManifestOrInit P p).run b).2 = .ok (.loaded m cid)) :
    openManifest P w.val p.signatureBytes (P.content cid) = .ok m := by
  rw [run_loadManifestOrInit hP hw hunlock, loadOutcome] at h
  split at h
  · generalize hfetch : fetchManifest P _ _ _ _ _ = fetched at h
    cases fetched with
    | error e => cases h
    | ok r =>
      obtain ⟨rfl, rfl⟩ := LoadResult.loaded.inj (Except.ok.inj h)
      exact (fetchManifest_eq_ok hfetch).1
  · split at h
    · cases h
    · split at h <;> cases h

/-- A file is uploaded and its entry appended on one device, and the published manifest restored on
another, where it is listed. -/
theorem files_restorable_sample : ∃ (bytes₀ bytes : Bytes)
    (u : Upload (pinned bytes) sampleDates sampleCodecs sampleWallet)
    (q : Registry.DevicePool String (String × Registry.Hash)) (sig : Bytes) (m : Json),
    Registry.SharedAppend (appendOf u.entry) m bytes₀ bytes q ∧
    (∀ (b : Browser) (p : LoadParams), Js.trim p.walletPubKey = sampleWallet.val →
      p.signatureBytes = sig → hasUnlock p.unlock = true → p.env.fault.NoneOf readSteps →
        ((loadManifestOrInit (pinned bytes) p).run
          ((Registry.sampleDeployment bytes).restored sampleWallet
            ((Registry.sampleDeployment bytes).registry sampleWallet q.state.accounts) b)).2 =
              .ok (.loaded m "bb")) ∧
    ∃ x ∈ manifestEntries m, ∃ (u : Upload (pinned bytes) sampleDates sampleCodecs sampleWallet)
      (row : FileItem), fileItem x = .ok row ∧ Shows row u := by
  obtain ⟨u₀, hu₀⟩ := exists_sampleUpload
  have hw : Js.trim (appendOf u₀.entry).walletPubKey = sampleWallet.val := sampleWallet.trim_val
  obtain ⟨m, hmerge⟩ := (exists_mergeEntry_emptyManifest_iff (appendOf u₀.entry) sampleWallet.val
    sampleLoad.env.nowIso).mpr (u₀.valid symbolic_lawful)
  obtain ⟨bytes₀, bytes, q, hq⟩ := Registry.exists_sharedAppend hw (appendChecks_ok hw rfl)
    (fun _ _ => rfl) rfl hmerge
  obtain ⟨u, hu⟩ := hu₀ hq.opens
  rw [← hu] at hq hmerge
  have hfiles : ∀ p, Registry.IssuedOn q (.append p) → Js.trim p.walletPubKey = sampleWallet.val →
      ∃ u : Upload (pinned bytes) sampleDates sampleCodecs sampleWallet, p.entry = u.entry := by
    rintro p ⟨n, tab, hmem⟩ -
    rw [hq.calls] at hmem
    obtain ⟨rfl, rfl, rfl⟩ : n = 0 ∧ tab = 0 ∧ p = appendOf u.entry := by
      simpa using hmem
    exact ⟨u, rfl⟩
  obtain ⟨e, hentries, hbb⟩ := hq.published
  obtain ⟨sig, m', -, hload, hrows⟩ := files_restorable (T := sampleDates) (C := sampleCodecs)
    (Registry.sampleDeployment_lawful bytes) (Registry.storedWorld_whole bytes hq.stored) hq.run
    trivial hfiles (show _ = [] ++ [e] from hentries) (by simp)
  rw [hbb] at hload
  obtain rfl : m' = m := by
    let p : LoadParams := { sampleLoad with signatureBytes := sig }
    have hp : Js.trim p.walletPubKey = sampleWallet.val := sampleWallet.trim_val
    have hrun := hload emptyBrowser p hp rfl rfl fun _ _ => rfl
    exact openManifest_unique (pinned_idealAead bytes)
      (open_of_load (pinned_lawful bytes) hp rfl hrun) hq.content
  obtain ⟨-, x, hx, -⟩ := mergeEntry_entries hmerge
  refine ⟨bytes₀, bytes, u, q, sig, m', hq, hload, x, hx, ?_⟩
  rcases hrows x hx with ⟨sig₀, m₀, hm₀, hx₀⟩ | hrow
  · rw [has_storedWorld hq.stored hm₀] at hx₀
    cases hx₀
  · exact hrow

end SovereignJedi.Vault
