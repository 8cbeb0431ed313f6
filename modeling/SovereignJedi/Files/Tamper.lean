import SovereignJedi.Files.RoundTrip
import SovereignJedi.Js.Canonical

/-! What `decryptFile` notices of a modified package. The metadata are stored twice, and the reader
takes the first copy that is there: a change of the other copy goes unnoticed, and so does the
removal of one of two copies. Everything that is read is bound, to this package or to another one
that was encrypted under the same keys. -/

namespace SovereignJedi.Files

open SovereignJedi.Js SovereignJedi.Crypto

/-! ### Packages -/

section Statements

variable (P : Platform)

/-- The property `k` of the associated data stored with a file. -/
def aadField (encryptedFile : Json) (k : String) : Value := optProp (encryptedFile.get "aad") k

/-- The decoded property `k` of the wrapped key. -/
def wrapField (envelope : Json) (k : String) : Result Bytes := do
  let wrap ← prop (some envelope) "wrap"
  P.fromBase64 (← prop wrap k)

/-- The packages have the same values in the metadata, in the decoded ciphertexts and nonces, and in
what the wrapped key is bound to. -/
structure Untouched (encryptedFile envelope encryptedFile' envelope' : Json) : Prop where
  header : ∀ k ∈ ["originalFileName", "mimeType", "fileSize", "fileId"],
    encryptedFile'.get k = encryptedFile.get k
  aad : ∀ k ∈ ["originalFileName", "mimeType", "fileSize", "fileId", "filename", "size"],
    aadField encryptedFile' k = aadField encryptedFile k
  payload : ∀ k ∈ ["nonce", "ciphertext"],
    P.fromBase64 (encryptedFile'.get k) = P.fromBase64 (encryptedFile.get k)
  wallet : envelope'.get "walletPubKey" = envelope.get "walletPubKey"
  salt : optProp (envelope'.get "kekDerivation") "salt" = optProp (envelope.get "kekDerivation") "salt"
  wrap : ∀ k ∈ ["nonce", "ciphertext"], wrapField P envelope' k = wrapField P envelope k

/-- A copy still gives `original`: it has it, or it is gone and the other copy has it. -/
def Kept (copy other original : Value) : Prop :=
  copy = original ∨ (copy = none ∨ copy = some .null) ∧ other = original

/-- The copies that are read first, and the decoded ciphertexts, nonces and bindings, still give
what was encrypted. -/
structure Unnoticed (encryptedFile envelope encryptedFile' envelope' : Json) : Prop where
  header : ∀ k ∈ ["originalFileName", "mimeType", "fileSize", "fileId"],
    Kept (encryptedFile'.get k) (aadField encryptedFile' k) (encryptedFile.get k)
  filename : Kept (aadField encryptedFile' "filename") (encryptedFile'.get "originalFileName")
    (encryptedFile.get "originalFileName")
  size : Kept (aadField encryptedFile' "size") (encryptedFile'.get "fileSize")
    (encryptedFile.get "fileSize")
  payload : ∀ k ∈ ["nonce", "ciphertext"],
    P.fromBase64 (encryptedFile'.get k) = P.fromBase64 (encryptedFile.get k)
  wallet : envelope'.get "walletPubKey" = envelope.get "walletPubKey"
  salt : optProp (envelope'.get "kekDerivation") "salt" = optProp (envelope.get "kekDerivation") "salt"
  wrap : ∀ k ∈ ["nonce", "ciphertext"], wrapField P envelope' k = wrapField P envelope k

/-- A package with other values than `r` does not open. -/
def TamperEvident (r : EncryptResult) (kek : Bytes) (encryptedFile' envelope' : Json) : Prop :=
  ¬ Untouched P r.encryptedFile r.envelope encryptedFile' envelope' →
    ∃ e, decryptFile P encryptedFile' envelope' kek = .error e

/-- The header that the wrapped key is bound to, as `decryptFile` reads it. -/
def boundHeader (encryptedFile : Json) : Json :=
  headerImmutableSubset
    (orElse (coalesce (encryptedFile.get "originalFileName")
      (coalesce (aadField encryptedFile "originalFileName") (aadField encryptedFile "filename"))) .null)
    (orElse (coalesce (encryptedFile.get "mimeType") (aadField encryptedFile "mimeType")) .null)
    (orElse (coalesce (encryptedFile.get "fileSize")
      (coalesce (aadField encryptedFile "fileSize") (aadField encryptedFile "size"))) .null)
    (orElse (coalesce (encryptedFile.get "fileId") (aadField encryptedFile "fileId")) .null)

/-- One of the two encryptions of `encryptFile`: of the file, and of its key. -/
def SealedBy (draws : EncryptDraws) (plaintext : Bytes) (options : EncryptOptions)
    (r : EncryptResult) (e : Platform.Sealed) : Prop :=
  ∃ id json cipher aad wrapped, EncryptionSteps P draws plaintext options r
      (fileKeyOf draws options) id json cipher aad wrapped ∧
    (e = ⟨fileKeyOf draws options, draws.fileNonce.1, P.utf8Encode json, plaintext, cipher⟩ ∨
      e = ⟨options.kek, draws.wrapNonce.1, aad, fileKeyOf draws options, wrapped⟩)

/-- An ideal AEAD after the encryptions `earlier`, with those of this file among them. -/
structure IdealFor (earlier : Platform.Sealed → Prop) (draws : EncryptDraws) (plaintext : Bytes)
    (options : EncryptOptions) (r : EncryptResult) : Prop where
  ideal : P.IdealAfter earlier
  made : ∀ e, SealedBy P draws plaintext options r e → earlier e

/-- `wrap` and `file` have the nonces, ciphertexts and associated data that `decryptFile` reads in
the package: `wrap` of a key under `kek`, and `file` of a file under this key. -/
structure ReadFrom (kek : Bytes) (encryptedFile envelope : Json) (wrap file : Platform.Sealed) :
    Prop where
  kek : wrap.key = kek
  wrapNonce : wrapField P envelope "nonce" = .ok wrap.nonce
  wrapped : wrapField P envelope "ciphertext" = .ok wrap.ciphertext
  wrapAad : ∃ salt wallet id,
    optProp (envelope.get "kekDerivation") "salt" = some (.str salt) ∧ salt ≠ "" ∧
    envelope.get "walletPubKey" = some (.str wallet) ∧ isBlank wallet = false ∧
    coalesce (encryptedFile.get "fileId") (aadField encryptedFile "fileId") = some (.str id) ∧
    id ≠ "" ∧ wrapAad P salt wallet id (boundHeader encryptedFile) = .ok wrap.aad
  fileKey : file.key = wrap.message
  nonce : P.fromBase64 (encryptedFile.get "nonce") = .ok file.nonce
  ciphertext : P.fromBase64 (encryptedFile.get "ciphertext") = .ok file.ciphertext
  aad : ∃ json, P.canonicalize (payloadAad encryptedFile) = some json ∧ file.aad = P.utf8Encode json

/-- The package is made of earlier encryptions that are not both those of this file. -/
def Foreign (earlier : Platform.Sealed → Prop) (draws : EncryptDraws) (plaintext : Bytes)
    (options : EncryptOptions) (r : EncryptResult) (encryptedFile' envelope' : Json) : Prop :=
  ∃ wrap file, earlier wrap ∧ earlier file ∧
    ReadFrom P options.kek encryptedFile' envelope' wrap file ∧
    ¬ (SealedBy P draws plaintext options r wrap ∧ SealedBy P draws plaintext options r file)

end Statements

variable {P : Platform} {expose : Bool} {draws : EncryptDraws} {plaintext : Bytes}
  {options : EncryptOptions} {r : EncryptResult} {encryptedFile' envelope' : Json}

/-! ### Copies -/

theorem coalesce_of_kept {copy other : Value} {j : Json} (h : Kept copy other (some j))
    (hj : j ≠ .null) (more : Value) :
    coalesce copy (coalesce other more) = some j ∧ coalesce copy other = some j := by
  have hsome : ∀ v, coalesce (some j) v = some j := by
    intro v
    cases j with
    | null => exact absurd rfl hj
    | _ => rfl
  rcases h with rfl | ⟨rfl | rfl, rfl⟩
  · exact ⟨hsome _, hsome _⟩
  · exact ⟨hsome _, rfl⟩
  · exact ⟨hsome _, rfl⟩

theorem kept_of_coalesce {copy other : Value} {j : Json}
    (h : orElse (coalesce copy other) .null = j) (hj : j ≠ .null) : Kept copy other (some j) := by
  have hother : ∀ v : Value, orElse v .null = j → v = some j := by
    intro v hv
    match v with
    | none => exact absurd hv.symm hj
    | some .null => exact absurd hv.symm hj
    | some (.bool _) | some (.num _) | some (.str _) | some (.arr _) | some (.obj _) =>
      exact congrArg some hv
  match copy, h with
  | none, h => exact Or.inr ⟨Or.inl rfl, hother other h⟩
  | some .null, h => exact Or.inr ⟨Or.inr rfl, hother other h⟩
  | some (.bool _), h | some (.num _), h | some (.str _), h | some (.arr _), h | some (.obj _), h =>
    exact Or.inl (congrArg some h)

/-! ### Associated data -/

theorem canonicalizeJSON_eq_ok {j : Json} {s : String} :
    canonicalizeJSON P j = .ok s ↔ P.canonicalize j = some s := by
  unfold canonicalizeJSON
  split <;> simp_all

theorem requireString_eq_ok {v : Value} {ok : String → Bool} {message s : String} :
    requireString v ok message = .ok s ↔ v = some (.str s) ∧ ok s = true := by
  unfold requireString
  split
  · rename_i t
    simp only [Option.some.injEq, Json.str.injEq]
    by_cases ht : ok t = true
    · rw [if_pos ht, Except.ok.injEq]
      exact ⟨fun h => ⟨h, h ▸ ht⟩, fun h => h.1⟩
    · rw [if_neg ht]
      exact ⟨nofun, fun h => absurd (h.1 ▸ h.2) ht⟩
  · rename_i hv
    exact ⟨nofun, fun h => absurd h.1 (hv s)⟩

/-- What `decryptFile` needs to unwrap the file key. -/
theorem unwrapFileKey_eq_ok {encryptedFile envelope : Json} {kek m : Bytes} :
    unwrapFileKey P encryptedFile envelope kek = .ok m ↔ ∃ wrapNonce wrapped salt wallet id aad,
      wrapField P envelope "nonce" = .ok wrapNonce ∧ wrapField P envelope "ciphertext" = .ok wrapped ∧
      optProp (envelope.get "kekDerivation") "salt" = some (.str salt) ∧ salt ≠ "" ∧
      envelope.get "walletPubKey" = some (.str wallet) ∧ isBlank wallet = false ∧
      coalesce (encryptedFile.get "fileId") (aadField encryptedFile "fileId") = some (.str id) ∧
      id ≠ "" ∧ wrapAad P salt wallet id (boundHeader encryptedFile) = .ok aad ∧
      P.aeadDecrypt wrapped aad wrapNonce kek = .ok m := by
  simp only [unwrapFileKey, wrapField, bind_eq_ok, requireString_eq_ok]
  constructor
  · rintro ⟨wrap, hwrap, v, hv, wrapNonce, hnonce, v', hv', wrapped, hwrapped, salt, ⟨hsalt, hsalt'⟩,
      wallet, ⟨hwallet, hwallet'⟩, id, ⟨hid, hid'⟩, aad, haad, hdecrypt⟩
    refine ⟨wrapNonce, wrapped, salt, wallet, id, aad, ⟨wrap, hwrap, v, hv, hnonce⟩,
      ⟨wrap, hwrap, v', hv', hwrapped⟩, hsalt, by simpa using hsalt', hwallet, by simpa using hwallet',
      hid, by simpa using hid', ?_, hdecrypt⟩
    rw [← haad, boundHeader, show coalesce (encryptedFile.get "fileId")
      (aadField encryptedFile "fileId") = some (.str id) from hid]
    rfl
  · rintro ⟨wrapNonce, wrapped, salt, wallet, id, aad, ⟨wrap, hwrap, v, hv, hnonce⟩,
      ⟨wrap', hwrap', v', hv', hwrapped⟩, hsalt, hsalt', hwallet, hwallet', hid, hid', haad, hdecrypt⟩
    obtain rfl := Except.ok.inj (hwrap.symm.trans hwrap')
    refine ⟨wrap, hwrap, v, hv, wrapNonce, hnonce, v', hv', wrapped, hwrapped, salt,
      ⟨hsalt, by simpa using hsalt'⟩, wallet, ⟨hwallet, by simpa using hwallet'⟩, id,
      ⟨hid, by simpa using hid'⟩, aad, ?_, hdecrypt⟩
    rw [← haad, boundHeader, hid]
    rfl

theorem wrapAad_eq_ok {salt wallet id : String} {header : Json} {aad : Bytes} :
    wrapAad P salt wallet id header = .ok aad ↔ ∃ s t, P.canonicalize header = some s ∧
      P.canonicalize (wrapAadObject salt wallet id (P.toBase64 (P.sha256 (P.utf8Encode s)))) = some t ∧
      aad = P.utf8Encode t := by
  simp only [wrapAad, bind_eq_ok, canonicalizeJSON_eq_ok, result_pure, Except.ok.injEq]
  constructor
  · rintro ⟨s, hs, t, ht, rfl⟩
    exact ⟨s, t, hs, ht, rfl⟩
  · rintro ⟨s, t, hs, ht, rfl⟩
    exact ⟨s, hs, t, ht, rfl⟩

/-- The associated data of a wrapped key say what they bind. -/
theorem wrapAad_injective (hC : P.Codecs) {salt salt' wallet wallet' id id' : String}
    {header header' : Json} {aad : Bytes} (h : wrapAad P salt wallet id header = .ok aad)
    (h' : wrapAad P salt' wallet' id' header' = .ok aad) :
    salt = salt' ∧ wallet = wallet' ∧ id = id' := by
  obtain ⟨s, t, -, ht, haad⟩ := wrapAad_eq_ok.mp h
  obtain ⟨s', t', -, ht', haad'⟩ := wrapAad_eq_ok.mp h'
  obtain rfl := hC.utf8_injective (haad.symm.trans haad')
  have hsame := hC.canonicalize_same (wrapAadObject_wf ..) (wrapAadObject_wf ..) ht ht'
  refine ⟨?_, ?_, ?_⟩
  · exact Json.str.inj (hsame.field_eq (k := "salt") rfl rfl trivial)
  · exact Json.str.inj (hsame.field_eq (k := "walletPubKey") rfl rfl trivial)
  · exact Json.str.inj (hsame.field_eq (k := "fileId") rfl rfl trivial)

/-- The associated data of a wrapped key are not those of a file. -/
theorem wrapAad_ne_fileAad (hC : P.Codecs) {salt wallet id json : String} {header : Json} {aad : Bytes}
    {a b c d e f : Json} (h : wrapAad P salt wallet id header = .ok aad)
    (hwf : (fileAad a b c d e f).WF) (hjson : P.canonicalize (fileAad a b c d e f) = some json) :
    aad ≠ P.utf8Encode json := by
  intro haad
  obtain ⟨s, t, -, ht, haad'⟩ := wrapAad_eq_ok.mp h
  obtain rfl := hC.utf8_injective (haad.symm.trans haad')
  have hsame := hC.canonicalize_same (wrapAadObject_wf ..) hwf ht hjson
  cases hsame with
  | obj hkeys _ => exact absurd (hkeys "v") (by simp [Json.field])

/-! ### Reading -/

theorem payloadAad_wf {encryptedFile : Json} (hwf : encryptedFile.WF) :
    (payloadAad encryptedFile).WF := by
  have haad : ∀ k v, aadField encryptedFile k = some v → v.WF := by
    intro k v hv
    unfold aadField optProp at hv
    split at hv
    · rename_i aad haad
      exact (hwf.get haad).get hv
    · cases hv
  have hcoalesce : ∀ v w : Value, (∀ j, v = some j → j.WF) → (∀ j, w = some j → j.WF) →
      (orElse (coalesce v w) .null).WF := by
    intro v w hv hw
    have horElse : ∀ u : Value, (∀ j, u = some j → j.WF) → (orElse u .null).WF := by
      intro u hu
      unfold orElse
      split
      · exact .null
      · exact .null
      · exact hu _ rfl
    unfold coalesce
    split
    · exact horElse w hw
    · exact horElse w hw
    · exact horElse _ hv
  have hget : ∀ k j, encryptedFile.get k = some j → j.WF := fun k j hj => hwf.get hj
  exact fileAad_wf (hcoalesce _ _ (hget _) (haad _)) (hcoalesce _ _ (hget _) (haad _))
    (hcoalesce _ _ (hget _) (haad _)) (hcoalesce _ _ (hget _) (haad _))
    (hcoalesce _ _ (haad _) (hget _)) (hcoalesce _ _ (haad _) (hget _))

/-- What an encryption leaves in its result. -/
structure Stored (P : Platform) (draws : EncryptDraws) (plaintext : Bytes) (options : EncryptOptions)
    (r : EncryptResult) (id : String) (cipher wrapped : Bytes) : Prop where
  originalFileName : r.encryptedFile.get "originalFileName" = some (.str (options.filename.getD ""))
  mimeType : r.encryptedFile.get "mimeType" = some (.str (options.mimeType.getD ""))
  fileSize : r.encryptedFile.get "fileSize" = some (.num plaintext.length)
  fileId : r.encryptedFile.get "fileId" = some (.str id)
  nonce : P.fromBase64 (r.encryptedFile.get "nonce") = .ok draws.fileNonce.1
  ciphertext : P.fromBase64 (r.encryptedFile.get "ciphertext") = .ok cipher
  wallet : r.envelope.get "walletPubKey" = some (.str options.walletPubKey)
  salt : optProp (r.envelope.get "kekDerivation") "salt" = some (.str (P.toBase64 options.salt))
  wrapNonce : wrapField P r.envelope "nonce" = .ok draws.wrapNonce.1
  wrapped : wrapField P r.envelope "ciphertext" = .ok wrapped

theorem EncryptionSteps.stored {key : Bytes} {id json : String} {cipher aad wrapped : Bytes}
    (hC : P.Codecs) (hs : EncryptionSteps P draws plaintext options r key id json cipher aad wrapped) :
    Stored P draws plaintext options r id cipher wrapped := by
  obtain ⟨file, envelope, fileKey⟩ := r
  obtain rfl : file = _ := hs.encryptedFile
  obtain rfl : envelope = _ := hs.envelope
  exact ⟨rfl, rfl, rfl, rfl, hC.base64 _, hC.base64 _, rfl, rfl, hC.base64 _, hC.base64 _⟩

/-- A package in which nothing that is read has changed opens. -/
theorem decryptFile_of_unnoticed (hC : P.Codecs)
    (h : encryptFile P expose draws plaintext options = .ok r) {earlier : Platform.Sealed → Prop}
    (hideal : IdealFor P earlier draws plaintext options r) (hid : options.fileId ≠ some "")
    (hkept : Unnoticed P r.encryptedFile r.envelope encryptedFile' envelope') :
    decryptFile P encryptedFile' envelope' options.kek = .ok plaintext := by
  obtain ⟨id, json, cipher, aad, wrapped, hs⟩ := encryptFile_steps h
  have hst := hs.stored hC
  have hheader := hkept.header
  simp only [List.mem_cons, List.not_mem_nil, or_false, forall_eq_or_imp, forall_eq,
    hst.originalFileName, hst.mimeType, hst.fileSize, hst.fileId] at hheader
  obtain ⟨hname, hmime, hsize, hfileId⟩ := hheader
  have hfilename := hkept.filename
  have hsizeAlias := hkept.size
  rw [hst.originalFileName] at hfilename
  rw [hst.fileSize] at hsizeAlias
  obtain ⟨hname, hname'⟩ :=
    coalesce_of_kept hname nofun (aadField encryptedFile' "filename")
  obtain ⟨-, hmime⟩ := coalesce_of_kept hmime nofun none
  obtain ⟨hsize, hsize'⟩ := coalesce_of_kept hsize nofun (aadField encryptedFile' "size")
  obtain ⟨-, hfileId⟩ := coalesce_of_kept hfileId nofun none
  obtain ⟨-, hfilename⟩ := coalesce_of_kept hfilename nofun none
  obtain ⟨-, hsizeAlias⟩ := coalesce_of_kept hsizeAlias nofun none
  have hbound : boundHeader encryptedFile' = headerImmutableSubset (.str (options.filename.getD ""))
      (.str (options.mimeType.getD "")) (.num plaintext.length) (.str id) := by
    rw [boundHeader, hname, hmime, hsize, hfileId]
    rfl
  have hpayload : payloadAad encryptedFile' = fileAad (.str (options.filename.getD ""))
      (.str (options.mimeType.getD "")) (.num plaintext.length) (.str id)
      (.str (options.filename.getD "")) (.num plaintext.length) := by
    simp only [aadField] at hname' hmime hsize' hfileId hfilename hsizeAlias
    simp only [payloadAad, hname', hmime, hsize', hfileId, hfilename, hsizeAlias]
    rfl
  have hunwrap : unwrapFileKey P encryptedFile' envelope' options.kek =
      .ok (fileKeyOf draws options) := by
    refine unwrapFileKey_eq_ok.mpr ⟨draws.wrapNonce.1, wrapped, P.toBase64 options.salt,
      options.walletPubKey, id, aad, ?_, ?_, ?_, hC.base64_ne hs.salt, ?_, hs.wallet, hfileId,
      hs.id_ne hC.base64_ne hid, ?_, ?_⟩
    · rw [hkept.wrap "nonce" (by simp), hst.wrapNonce]
    · rw [hkept.wrap "ciphertext" (by simp), hst.wrapped]
    · rw [hkept.salt, hst.salt]
    · rw [hkept.wallet, hst.wallet]
    · rw [hbound, hs.aad]
    · exact (hideal.ideal ⟨_, _, _, _, _⟩).mpr (hideal.made _ ⟨_, _, _, _, _, hs, Or.inr rfl⟩)
  rw [decryptFile, hunwrap, hkept.payload "nonce" (by simp), hst.nonce,
    hkept.payload "ciphertext" (by simp), hst.ciphertext, hpayload, hs.aadJson]
  exact (hideal.ideal ⟨_, _, _, _, _⟩).mpr (hideal.made _ ⟨_, _, _, _, _, hs, Or.inl rfl⟩)

/-- A package opens exactly where earlier encryptions have the values that are read in it. -/
theorem decryptFile_eq_ok_iff {earlier : Platform.Sealed → Prop} (hideal : P.IdealAfter earlier)
    {encryptedFile envelope : Json} {kek m : Bytes} :
    decryptFile P encryptedFile envelope kek = .ok m ↔ ∃ wrap file, earlier wrap ∧ earlier file ∧
      ReadFrom P kek encryptedFile envelope wrap file ∧ file.message = m := by
  simp only [decryptFile, bind_eq_ok, canonicalizeJSON_eq_ok]
  constructor
  · rintro ⟨key, hunwrap, nonce, hnonce, cipher, hcipher, json, hjson, hopen⟩
    obtain ⟨wrapNonce, wrapped, salt, wallet, id, aad, hwrapNonce, hwrapped, hsalt, hsalt', hwallet,
      hwallet', hid, hid', haad, hkey⟩ := unwrapFileKey_eq_ok.mp hunwrap
    refine ⟨⟨kek, wrapNonce, aad, key, wrapped⟩, ⟨key, nonce, P.utf8Encode json, m, cipher⟩,
      (hideal ⟨_, _, _, _, _⟩).mp hkey, (hideal ⟨_, _, _, _, _⟩).mp hopen, ?_, rfl⟩
    exact ⟨rfl, hwrapNonce, hwrapped, ⟨salt, wallet, id, hsalt, hsalt', hwallet, hwallet', hid, hid',
      haad⟩, rfl, hnonce, hcipher, json, hjson, rfl⟩
  · rintro ⟨wrap, file, hwrap, hfile, hread, rfl⟩
    obtain ⟨salt, wallet, id, hsalt, hsalt', hwallet, hwallet', hid, hid', haad⟩ := hread.wrapAad
    obtain ⟨json, hjson, hfileAad⟩ := hread.aad
    have hkey := (hideal wrap).mpr hwrap
    have hopen := (hideal file).mpr hfile
    rw [hread.kek] at hkey
    rw [hread.fileKey, hfileAad] at hopen
    refine ⟨wrap.message, ?_, file.nonce, hread.nonce, file.ciphertext, hread.ciphertext, json, hjson,
      hopen⟩
    exact unwrapFileKey_eq_ok.mpr ⟨wrap.nonce, wrap.ciphertext, salt, wallet, id, wrap.aad,
      hread.wrapNonce, hread.wrapped, hsalt, hsalt', hwallet, hwallet', hid, hid', haad, hkey⟩

/-- A package that is made of the encryptions of a file gives, where it is read, what was
encrypted. -/
theorem ReadFrom.unnoticed (hC : P.Codecs) (hwf : encryptedFile'.WF) {wrap file : Platform.Sealed}
    (hread : ReadFrom P options.kek encryptedFile' envelope' wrap file)
    (hwrap : SealedBy P draws plaintext options r wrap)
    (hfile : SealedBy P draws plaintext options r file) :
    options.fileId ≠ some "" ∧ Unnoticed P r.encryptedFile r.envelope encryptedFile' envelope' := by
  obtain ⟨-, hwrapNonce, hwrapped, ⟨salt, wallet, id, hsalt, -, hwallet, -, hid, hid', haad⟩, -, hnonce,
    hcipher, json, hjson, hfileAad⟩ := hread
  have hjsonWf := payloadAad_wf hwf
  -- the wrapped key is the one of the encryption
  obtain ⟨id₀, json₀, cipher₀, aad₀, wrapped₀, hs, rfl | rfl⟩ := hwrap
  · exact absurd rfl (wrapAad_ne_fileAad hC haad (fileAad_wf (.str _) (.str _) (.num _) (.str _)
      (.str _) (.num _)) (canonicalizeJSON_eq_ok.mp hs.aadJson))
  have hst := hs.stored hC
  -- and the payload is the one that was encrypted under it
  obtain ⟨id₁, json₁, cipher₁, aad₁, wrapped₁, hs', rfl | rfl⟩ := hfile
  · have hst' := hs'.stored hC
    obtain rfl := hC.utf8_injective hfileAad
    obtain ⟨rfl, rfl, rfl⟩ := wrapAad_injective hC haad hs.aad
    have hsame := hC.canonicalize_same hjsonWf (fileAad_wf (.str _) (.str _) (.num _) (.str _)
      (.str _) (.num _)) hjson (canonicalizeJSON_eq_ok.mp hs'.aadJson)
    have hname := hsame.field_eq (k := "originalFileName") rfl rfl trivial
    have hmime := hsame.field_eq (k := "mimeType") rfl rfl trivial
    have hsize := hsame.field_eq (k := "fileSize") rfl rfl trivial
    have hfileId := hsame.field_eq (k := "fileId") rfl rfl trivial
    have hfilename := hsame.field_eq (k := "filename") rfl rfl trivial
    have hsizeAlias := hsame.field_eq (k := "size") rfl rfl trivial
    refine ⟨?_, ?_⟩
    · rintro hempty
      exact hid' (by rw [hs.id_eq, hempty, Option.getD_some])
    · constructor
      · simp only [List.mem_cons, List.not_mem_nil, or_false, forall_eq_or_imp, forall_eq,
          hst'.originalFileName, hst'.mimeType, hst'.fileSize, hst'.fileId]
        exact ⟨kept_of_coalesce hname (by simp), kept_of_coalesce hmime (by simp),
          kept_of_coalesce hsize (by simp), kept_of_coalesce hfileId (by simp)⟩
      · rw [hst'.originalFileName]
        exact kept_of_coalesce hfilename (by simp)
      · rw [hst'.fileSize]
        exact kept_of_coalesce hsizeAlias (by simp)
      · simp only [List.mem_cons, List.not_mem_nil, or_false, forall_eq_or_imp, forall_eq]
        exact ⟨hnonce.trans hst'.nonce.symm, hcipher.trans hst'.ciphertext.symm⟩
      · rw [hst.wallet, hwallet]
      · rw [hst.salt, hsalt]
      · simp only [List.mem_cons, List.not_mem_nil, or_false, forall_eq_or_imp, forall_eq]
        exact ⟨hwrapNonce.trans hst.wrapNonce.symm, hwrapped.trans hst.wrapped.symm⟩
  · exact absurd hfileAad (wrapAad_ne_fileAad hC hs'.aad hjsonWf hjson)

/-- After any encryptions, a modified package is noticed exactly when the file id was empty or a
value that is read has changed, and the values that are read are not those of other
encryptions. -/
theorem tamperEvident_iff (hC : P.Codecs)
    (h : encryptFile P expose draws plaintext options = .ok r) {earlier : Platform.Sealed → Prop}
    (hideal : IdealFor P earlier draws plaintext options r) (hwf : encryptedFile'.WF) :
    TamperEvident P r options.kek encryptedFile' envelope' ↔
      (¬ Untouched P r.encryptedFile r.envelope encryptedFile' envelope' →
        (options.fileId = some "" ∨
          ¬ Unnoticed P r.encryptedFile r.envelope encryptedFile' envelope') ∧
        ¬ Foreign P earlier draws plaintext options r encryptedFile' envelope') := by
  refine forall_congr' fun _ => ?_
  constructor
  · rintro ⟨e, he⟩
    constructor
    · by_contra hcontra
      obtain ⟨hid, hkept⟩ := not_or.mp hcontra
      rw [decryptFile_of_unnoticed hC h hideal hid (not_not.mp hkept)] at he
      cases he
    · rintro ⟨wrap, file, hwrap, hfile, hread, -⟩
      have hopens := (decryptFile_eq_ok_iff hideal.ideal).mpr ⟨wrap, file, hwrap, hfile, hread, rfl⟩
      rw [hopens] at he
      cases he
  · rintro ⟨hnoticed, hown⟩
    cases hd : decryptFile P encryptedFile' envelope' options.kek with
    | error e => exact ⟨e, rfl⟩
    | ok m =>
      obtain ⟨wrap, file, hwrap, hfile, hread, -⟩ := (decryptFile_eq_ok_iff hideal.ideal).mp hd
      have hboth : SealedBy P draws plaintext options r wrap ∧
          SealedBy P draws plaintext options r file := by
        by_contra hother
        exact hown ⟨wrap, file, hwrap, hfile, hread, hother⟩
      obtain ⟨hid, hkept⟩ := hread.unnoticed hC hwf hboth.1 hboth.2
      exact absurd hnoticed (not_or.mpr ⟨hid, not_not.mpr hkept⟩)

/-- Where the keys of a file have been used for this file only, no package is made of other
encryptions. -/
theorem not_foreign (hC : P.Codecs) {earlier : Platform.Sealed → Prop}
    (hown : ∀ e, earlier e → e.key = options.kek ∨ e.key = fileKeyOf draws options →
      SealedBy P draws plaintext options r e) :
    ¬ Foreign P earlier draws plaintext options r encryptedFile' envelope' := by
  rintro ⟨wrap, file, hwrap, hfile, hread, hother⟩
  obtain ⟨id, json, cipher, aad, wrapped, hs, rfl | rfl⟩ := hown wrap hwrap (Or.inl hread.kek)
  · obtain ⟨salt, wallet, id, -, -, -, -, -, -, haad⟩ := hread.wrapAad
    exact absurd rfl (wrapAad_ne_fileAad hC haad (fileAad_wf (.str _) (.str _) (.num _) (.str _)
      (.str _) (.num _)) (canonicalizeJSON_eq_ok.mp hs.aadJson))
  · exact hother ⟨⟨id, json, cipher, aad, wrapped, hs, Or.inr rfl⟩,
      hown file hfile (Or.inr hread.fileKey)⟩

/-! ### Samples -/

theorem EncryptionSteps.after {key : Bytes} {id json : String} {cipher aad wrapped : Bytes}
    (hs : EncryptionSteps P draws plaintext options r key id json cipher aad wrapped)
    (earlier : Platform.Sealed → Prop) :
    EncryptionSteps (P.after earlier) draws plaintext options r key id json cipher aad wrapped :=
  ⟨hs.key_length, hs.id_eq, hs.wallet, hs.salt, hs.aadJson, hs.cipherBytes, hs.aad, hs.wrappedKey,
    hs.encryptedFile, hs.envelope⟩

theorem EncryptionSteps.of_after {key : Bytes} {id json : String} {cipher aad wrapped : Bytes}
    {earlier : Platform.Sealed → Prop}
    (hs : EncryptionSteps (P.after earlier) draws plaintext options r key id json cipher aad wrapped) :
    EncryptionSteps P draws plaintext options r key id json cipher aad wrapped :=
  ⟨hs.key_length, hs.id_eq, hs.wallet, hs.salt, hs.aadJson, hs.cipherBytes, hs.aad, hs.wrappedKey,
    hs.encryptedFile, hs.envelope⟩

/-- An AEAD that has made the encryptions of one file only is ideal for it. -/
theorem idealFor_after (hA : P.IdealAead) (draws : EncryptDraws) (plaintext : Bytes)
    (options : EncryptOptions) (r : EncryptResult) :
    IdealFor (P.after (SealedBy P draws plaintext options r)) (SealedBy P draws plaintext options r)
      draws plaintext options r where
  ideal := by
    refine Platform.after_idealAfter hA ?_
    rintro e ⟨id, json, cipher, aad, wrapped, hs, rfl | rfl⟩
    · exact hs.cipherBytes
    · exact hs.wrappedKey
  made := by
    rintro e ⟨id, json, cipher, aad, wrapped, hs, he⟩
    exact ⟨id, json, cipher, aad, wrapped, hs.of_after, he⟩

/-- The package with another `aad.originalFileName`. -/
def renamed (encryptedFile : Json) : Json :=
  encryptedFile.set "aad"
    (((encryptedFile.get "aad").getD .null).set "originalFileName" (.str "renamed"))

theorem renamed_wf {encryptedFile : Json} (hwf : encryptedFile.WF) : (renamed encryptedFile).WF := by
  refine hwf.set (.set ?_ (.str _) (by decide)) (by decide)
  cases haad : encryptedFile.get "aad" with
  | none => exact .null
  | some j => exact hwf.get haad

/-- The new name is in the package, and `decryptFile` does not read it. -/
theorem renamed_unnoticed (hs : ∃ key id json cipher aad wrapped,
      EncryptionSteps P draws plaintext options r key id json cipher aad wrapped)
    (hname : options.filename.getD "" ≠ "renamed") :
    ¬ Untouched P r.encryptedFile r.envelope (renamed r.encryptedFile) r.envelope ∧
      Unnoticed P r.encryptedFile r.envelope (renamed r.encryptedFile) r.envelope := by
  obtain ⟨key, id, json, cipher, aad, wrapped, hs⟩ := hs
  constructor
  · intro h
    have haad := h.aad "originalFileName" (by simp)
    rw [hs.encryptedFile] at haad
    simp [renamed, aadField, encryptedFileObject, fileAad, Json.setField, optProp] at haad
    exact hname haad.symm
  · have hget : ∀ k, k ≠ "aad" → (renamed r.encryptedFile).get k = r.encryptedFile.get k :=
      fun k hk => Json.get_set_ne hk _ _
    have haad : aadField (renamed r.encryptedFile) "filename" = r.encryptedFile.get "originalFileName" ∧
        aadField (renamed r.encryptedFile) "size" = r.encryptedFile.get "fileSize" := by
      rw [hs.encryptedFile]
      constructor <;> rfl
    constructor
    · intro k hk
      exact Or.inl (hget k (by rintro rfl; simp at hk))
    · exact Or.inl haad.1
    · exact Or.inl haad.2
    · intro k hk
      rw [hget k (by rintro rfl; simp at hk)]
    · rfl
    · rfl
    · exact fun _ _ => rfl

/-- A file, encrypted on a platform with an AEAD that is ideal for it. -/
theorem exists_ideal_encryption : ∃ (P : Platform) (earlier : Platform.Sealed → Prop) (r : EncryptResult),
    P.Codecs ∧ encryptFile P false sampleDraws samplePlaintext (sampleOptions none) = .ok r ∧
      IdealFor P earlier sampleDraws samplePlaintext (sampleOptions none) r ∧ r.encryptedFile.WF ∧
      ∀ e, earlier e → SealedBy P sampleDraws samplePlaintext (sampleOptions none) r e := by
  obtain ⟨r, hr⟩ := sampleOptions_encrypted symbolic_lawful none samplePlaintext
  obtain ⟨id, json, cipher, aad, wrapped, hs⟩ := encryptFile_steps hr
  refine ⟨_, _, r, symbolic_codecs.after _, hr, idealFor_after symbolic_idealAead _ _ _ _, ?_, ?_⟩
  · rw [hs.encryptedFile]
    exact encryptedFileObject_wf ..
  · rintro e ⟨id, json, cipher, aad, wrapped, hs, he⟩
    exact ⟨id, json, cipher, aad, wrapped, hs.after _, he⟩

/-- Another type of the file is noticed. -/
theorem tamperEvident_iff_sample : ∃ (P : Platform) (r : EncryptResult),
    encryptFile P false sampleDraws samplePlaintext (sampleOptions none) = .ok r ∧
      TamperEvident P r (sampleOptions none).kek (r.encryptedFile.set "mimeType" (.str "text/html"))
        r.envelope := by
  obtain ⟨P, earlier, r, hC, hr, hideal, hwf, hown⟩ := exists_ideal_encryption
  refine ⟨P, r, hr, (tamperEvident_iff hC hr hideal (hwf.set (.str _) (by decide))).mpr ?_⟩
  refine fun _ => ⟨Or.inr fun hkept => ?_, not_foreign hC fun e he _ => hown e he⟩
  obtain ⟨id, json, cipher, aad, wrapped, hs⟩ := encryptFile_steps hr
  have hmime := hkept.header "mimeType" (by simp)
  rw [hs.encryptedFile] at hmime
  simp [encryptedFileObject, Json.setField, Kept, sampleOptions] at hmime

/-- Another name in the associated data is not. -/
theorem renamed_opens : ∃ (P : Platform) (earlier : Platform.Sealed → Prop) (r : EncryptResult),
    P.Codecs ∧ encryptFile P false sampleDraws samplePlaintext (sampleOptions none) = .ok r ∧
      IdealFor P earlier sampleDraws samplePlaintext (sampleOptions none) r ∧
      (renamed r.encryptedFile).WF ∧
      ¬ TamperEvident P r (sampleOptions none).kek (renamed r.encryptedFile) r.envelope := by
  obtain ⟨P, earlier, r, hC, hr, hideal, hwf, -⟩ := exists_ideal_encryption
  refine ⟨P, earlier, r, hC, hr, hideal, renamed_wf hwf, fun h => ?_⟩
  obtain ⟨huntouched, hunnoticed⟩ := renamed_unnoticed (encryptFile_eq_ok hr) (by decide)
  obtain ⟨e, he⟩ := h huntouched
  rw [decryptFile_of_unnoticed hC hr hideal nofun hunnoticed] at he
  cases he

end SovereignJedi.Files
