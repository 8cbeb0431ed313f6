import SovereignJedi.Crypto.Unlock

/-! File encryption of `localEncryption.ts`. A file is encrypted under a key of its own, which is
wrapped under the key-encryption key in an envelope; the metadata of the file is bound to both. -/

namespace SovereignJedi.Files

open SovereignJedi.Js SovereignJedi.Crypto

structure EncryptOptions where
  fileKey : Option Bytes
  kek : Bytes
  salt : Bytes
  walletPubKey : String
  fileId : Option String
  filename : Option String
  mimeType : Option String

/-- The random bytes behind one encrypted file. -/
structure EncryptDraws where
  fileKey : RandomBytes 32
  fileId : RandomBytes 16
  fileNonce : RandomBytes 24
  wrapNonce : RandomBytes 24

/-- `fileKey` is there in tests only. -/
structure EncryptResult where
  encryptedFile : Json
  envelope : Json
  fileKey : Option Bytes

/-- `v ?? w`. -/
def coalesce (v w : Value) : Value :=
  match v with
  | none => w
  | some .null => w
  | some j => some j

variable (P : Platform)

/-! ### Bound metadata -/

/-- The associated data of the file's ciphertext. -/
def fileAad (originalFileName mimeType fileSize fileId filename size : Json) : Json :=
  .obj [("originalFileName", originalFileName), ("mimeType", mimeType), ("fileSize", fileSize),
    ("fileId", fileId), ("filename", filename), ("size", size)]

def headerImmutableSubset (originalFileName mimeType fileSize fileId : Json) : Json :=
  .obj [("originalFileName", originalFileName), ("mimeType", mimeType), ("fileSize", fileSize),
    ("fileId", fileId)]

def wrapAadObject (salt walletPubKey fileId headerHash : String) : Json :=
  .obj [("v", .num 3), ("salt", .str salt), ("walletPubKey", .str walletPubKey),
    ("fileId", .str fileId), ("headerHash", .str headerHash)]

/-- The associated data of the wrapped key: Wrap AAD Binding V3. -/
def wrapAad (salt walletPubKey fileId : String) (header : Json) : Result Bytes := do
  let headerHash := P.toBase64 (P.sha256 (P.utf8Encode (← canonicalizeJSON P header)))
  let aad ← canonicalizeJSON P (wrapAadObject salt walletPubKey fileId headerHash)
  return P.utf8Encode aad

/-! ### `encryptFile` -/

def encryptedFileObject (nonce ciphertext : Bytes) (fileId originalFileName mimeType : String)
    (fileSize : Nat) : Json :=
  .obj [("version", .num 1), ("cipher", .str "XChaCha20-Poly1305"),
    ("nonce", .str (P.toBase64 nonce)), ("ciphertext", .str (P.toBase64 ciphertext)),
    ("fileId", .str fileId), ("originalFileName", .str originalFileName),
    ("mimeType", .str mimeType), ("fileSize", .num fileSize),
    ("aad", fileAad (.str originalFileName) (.str mimeType) (.num fileSize) (.str fileId)
      (.str originalFileName) (.num fileSize))]

def envelopeObject (walletPubKey : String) (salt nonce ciphertext : Bytes) : Json :=
  .obj [("version", .num 1), ("walletPubKey", .str walletPubKey),
    ("kekDerivation", .obj [("method", .str "wallet-signature"),
      ("messageTemplateId", .str "SJ_UNLOCK_V1"), ("salt", .str (P.toBase64 salt)),
      ("info", .str "SJ-KEK-v1")]),
    ("wrap", .obj [("cipher", .str "XChaCha20-Poly1305"), ("nonce", .str (P.toBase64 nonce)),
      ("ciphertext", .str (P.toBase64 ciphertext)), ("context", .str "wrap-aad-v3"),
      ("aadVersion", .num 3)])]

def encryptFile (exposeFileKey : Bool) (draws : EncryptDraws) (plaintext : Bytes)
    (options : EncryptOptions) : Result EncryptResult := do
  let fileKey := options.fileKey.getD draws.fileKey.1
  require (fileKey.length == 32) "fileKey must be 32 bytes"
  require (!isBlank options.walletPubKey)
    "encryptFile: walletPubKey is required (must be a non-empty base58 string)"
  let fileId := options.fileId.getD (P.toBase64 draws.fileId.1)
  let originalFileName := options.filename.getD ""
  let mimeType := options.mimeType.getD ""
  let fileSize := plaintext.length
  let aadJson ← canonicalizeJSON P (fileAad (.str originalFileName) (.str mimeType) (.num fileSize)
    (.str fileId) (.str originalFileName) (.num fileSize))
  let cipherBytes ← P.aeadEncrypt plaintext (P.utf8Encode aadJson) draws.fileNonce.1 fileKey
  require (options.salt.length == 16 || options.salt.length == 32)
    "encryptFile: options.salt must be a Uint8Array of 16 or 32 bytes (generated by prepareUnlock)"
  let aad ← wrapAad P (P.toBase64 options.salt) options.walletPubKey fileId
    (headerImmutableSubset (.str originalFileName) (.str mimeType) (.num fileSize) (.str fileId))
  let wrapped ← P.aeadEncrypt fileKey aad draws.wrapNonce.1 options.kek
  return {
    encryptedFile := encryptedFileObject P draws.fileNonce.1 cipherBytes fileId originalFileName
      mimeType fileSize
    envelope := envelopeObject P options.walletPubKey options.salt draws.wrapNonce.1 wrapped
    fileKey := if exposeFileKey then some fileKey else none }

/-! ### `decryptFile` -/

/-- The string at `v`, which has to be there and to pass `ok`. -/
def requireString (v : Value) (ok : String → Bool) (message : String) : Result String :=
  match v with
  | some (.str s) => if ok s then .ok s else .error (.error message)
  | _ => .error (.error message)

/-- Unwraps the file key. -/
def unwrapFileKey (encryptedFile envelope : Json) (kek : Bytes) : Result Bytes := do
  let wrap ← prop (some envelope) "wrap"
  let wrapNonce ← P.fromBase64 (← prop wrap "nonce")
  let wrappedCipher ← P.fromBase64 (← prop wrap "ciphertext")
  let saltB64 ← requireString (optProp (envelope.get "kekDerivation") "salt") (fun s => s != "")
    "decryptFile: envelope.kekDerivation.salt is required for wrap AAD V3"
  let walletPubKey ← requireString (envelope.get "walletPubKey") (fun s => !isBlank s)
    "decryptFile: envelope.walletPubKey is required for wrap AAD V3"
  let aad := encryptedFile.get "aad"
  let fileId ← requireString (coalesce (encryptedFile.get "fileId") (optProp aad "fileId"))
    (fun s => s != "") "decryptFile: encryptedFile.fileId is required for wrap AAD V3"
  let originalFileName := orElse (coalesce (encryptedFile.get "originalFileName")
    (coalesce (optProp aad "originalFileName") (optProp aad "filename"))) .null
  let mimeType := orElse (coalesce (encryptedFile.get "mimeType") (optProp aad "mimeType")) .null
  let fileSize := orElse (coalesce (encryptedFile.get "fileSize")
    (coalesce (optProp aad "fileSize") (optProp aad "size"))) .null
  let aad ← wrapAad P saltB64 walletPubKey fileId
    (headerImmutableSubset originalFileName mimeType fileSize (.str fileId))
  P.aeadDecrypt wrappedCipher aad wrapNonce kek

/-- The associated data that the header of `encryptedFile` gives. -/
def payloadAad (encryptedFile : Json) : Json :=
  let aad := encryptedFile.get "aad"
  let either (k : String) := orElse (coalesce (encryptedFile.get k) (optProp aad k)) .null
  fileAad (either "originalFileName") (either "mimeType") (either "fileSize") (either "fileId")
    (orElse (coalesce (optProp aad "filename") (encryptedFile.get "originalFileName")) .null)
    (orElse (coalesce (optProp aad "size") (encryptedFile.get "fileSize")) .null)

def decryptFile (encryptedFile envelope : Json) (kek : Bytes) : Result Bytes := do
  let fileKey ← unwrapFileKey P encryptedFile envelope kek
  let nonce ← P.fromBase64 (encryptedFile.get "nonce")
  let ciphertext ← P.fromBase64 (encryptedFile.get "ciphertext")
  let aadJson ← canonicalizeJSON P (payloadAad encryptedFile)
  P.aeadDecrypt ciphertext (P.utf8Encode aadJson) nonce fileKey

variable {P}

/-! ### Round trip -/

/-- Unwrapping the key of an encrypted file decrypts the ciphertext in the envelope, under the
associated data that it was wrapped with. -/
theorem unwrapFileKey_encrypted (hP : P.Lawful) {walletPubKey fileId originalFileName mimeType : String}
    {salt wrapNonce wrapped nonce ciphertext : Bytes} {fileSize : Nat} (hsalt : salt ≠ [])
    (hwallet : isBlank walletPubKey = false) (hfileId : fileId ≠ "") (kek : Bytes) :
    unwrapFileKey P
      (encryptedFileObject P nonce ciphertext fileId originalFileName mimeType fileSize)
      (envelopeObject P walletPubKey salt wrapNonce wrapped) kek =
    (wrapAad P (P.toBase64 salt) walletPubKey fileId (headerImmutableSubset (.str originalFileName)
      (.str mimeType) (.num fileSize) (.str fileId))).bind fun aad =>
        P.aeadDecrypt wrapped aad wrapNonce kek := by
  have hsalt' := hP.base64_ne hsalt
  simp [unwrapFileKey, encryptedFileObject, envelopeObject, fileAad, prop, optProp, requireString,
    coalesce, orElse, hP.base64, hsalt', hwallet, hfileId]
  rfl

theorem payloadAad_encrypted (nonce ciphertext : Bytes) (fileId originalFileName mimeType : String)
    (fileSize : Nat) :
    payloadAad (encryptedFileObject P nonce ciphertext fileId originalFileName mimeType fileSize) =
      fileAad (.str originalFileName) (.str mimeType) (.num fileSize) (.str fileId)
        (.str originalFileName) (.num fileSize) := by
  simp [payloadAad, encryptedFileObject, fileAad, optProp, coalesce, orElse]

/-- The values that an encryption with result `r` goes through. -/
structure EncryptionSteps (P : Platform) (draws : EncryptDraws) (plaintext : Bytes)
    (options : EncryptOptions) (r : EncryptResult) (key : Bytes) (id json : String)
    (cipher wrapAad' wrapped : Bytes) : Prop where
  key_length : key.length = 32
  id_eq : id = options.fileId.getD (P.toBase64 draws.fileId.1)
  wallet : isBlank options.walletPubKey = false
  salt : options.salt ≠ []
  aadJson : canonicalizeJSON P (fileAad (.str (options.filename.getD ""))
    (.str (options.mimeType.getD "")) (.num plaintext.length) (.str id)
    (.str (options.filename.getD "")) (.num plaintext.length)) = .ok json
  cipherBytes : P.aeadEncrypt plaintext (P.utf8Encode json) draws.fileNonce.1 key = .ok cipher
  aad : wrapAad P (P.toBase64 options.salt) options.walletPubKey id
    (headerImmutableSubset (.str (options.filename.getD "")) (.str (options.mimeType.getD ""))
      (.num plaintext.length) (.str id)) = .ok wrapAad'
  wrappedKey : P.aeadEncrypt key wrapAad' draws.wrapNonce.1 options.kek = .ok wrapped
  encryptedFile : r.encryptedFile = encryptedFileObject P draws.fileNonce.1 cipher id
    (options.filename.getD "") (options.mimeType.getD "") plaintext.length
  envelope : r.envelope = envelopeObject P options.walletPubKey options.salt draws.wrapNonce.1 wrapped

variable {expose : Bool} {draws : EncryptDraws} {plaintext : Bytes} {options : EncryptOptions}
  {r : EncryptResult}

/-- The key that a file is encrypted under. -/
def fileKeyOf (draws : EncryptDraws) (options : EncryptOptions) : Bytes :=
  options.fileKey.getD draws.fileKey.1

theorem encryptFile_steps (h : encryptFile P expose draws plaintext options = .ok r) :
    ∃ id json cipher aad wrapped, EncryptionSteps P draws plaintext options r
      (fileKeyOf draws options) id json cipher aad wrapped := by
  simp only [encryptFile, bind_eq_ok, require_eq_ok, beq_iff_eq, Bool.not_eq_true',
    Bool.or_eq_true, exists_const] at h
  obtain ⟨hkey, hwallet, aadJson, haad, cipherBytes, hcipher, hsalt, aad, hwrapAad, wrapped, hwrapped,
    hr⟩ := h
  obtain rfl := Except.ok.inj hr
  have hne : options.salt ≠ [] := by
    intro hnil
    simp [hnil] at hsalt
  exact ⟨_, aadJson, cipherBytes, aad, wrapped, hkey, rfl, hwallet, hne, haad, hcipher, hwrapAad,
    hwrapped, rfl, rfl⟩

theorem encryptFile_eq_ok (h : encryptFile P expose draws plaintext options = .ok r) :
    ∃ key id json cipher aad wrapped,
      EncryptionSteps P draws plaintext options r key id json cipher aad wrapped :=
  ⟨_, encryptFile_steps h⟩

namespace EncryptionSteps

variable {key : Bytes} {id json : String} {cipher aad wrapped : Bytes}

theorem id_ne (hbase64 : ∀ {b : Bytes}, b ≠ [] → P.toBase64 b ≠ "")
    (h : EncryptionSteps P draws plaintext options r key id json cipher aad wrapped)
    (hid : options.fileId ≠ some "") : id ≠ "" := by
  rw [h.id_eq]
  cases hopt : options.fileId with
  | some id =>
    rintro rfl
    exact hid hopt
  | none =>
    refine hbase64 fun hnil => ?_
    have hlen := draws.fileId.2
    simp [hnil] at hlen

theorem unwrap (hP : P.Lawful)
    (h : EncryptionSteps P draws plaintext options r key id json cipher aad wrapped)
    (hid : options.fileId ≠ some "") (kek : Bytes) :
    unwrapFileKey P r.encryptedFile r.envelope kek =
      P.aeadDecrypt wrapped aad draws.wrapNonce.1 kek := by
  rw [h.encryptedFile, h.envelope,
    unwrapFileKey_encrypted hP h.salt h.wallet (h.id_ne hP.base64_ne hid), h.aad]
  rfl

theorem decrypt (hP : P.Lawful)
    (h : EncryptionSteps P draws plaintext options r key id json cipher aad wrapped)
    (hid : options.fileId ≠ some "") (kek : Bytes) :
    decryptFile P r.encryptedFile r.envelope kek =
      (P.aeadDecrypt wrapped aad draws.wrapNonce.1 kek).bind fun key =>
        P.aeadDecrypt cipher (P.utf8Encode json) draws.fileNonce.1 key := by
  have hnonce : P.fromBase64 (r.encryptedFile.get "nonce") = .ok draws.fileNonce.1 := by
    rw [h.encryptedFile]
    exact hP.base64 _
  have hcipher : P.fromBase64 (r.encryptedFile.get "ciphertext") = .ok cipher := by
    rw [h.encryptedFile]
    exact hP.base64 _
  have haad : canonicalizeJSON P (payloadAad r.encryptedFile) = .ok json := by
    rw [h.encryptedFile, payloadAad_encrypted, h.aadJson]
  rw [decryptFile, h.unwrap hP hid, hnonce, hcipher, haad]
  rfl

end EncryptionSteps

theorem fileAad_wf {a b c d e f : Json} (ha : a.WF) (hb : b.WF) (hc : c.WF) (hd : d.WF) (he : e.WF)
    (hf : f.WF) : (fileAad a b c d e f).WF := by
  refine .obj (show Json.OwnKeys ["originalFileName", "mimeType", "fileSize", "fileId", "filename",
    "size"] by decide) ?_
  simp only [List.mem_cons, List.not_mem_nil, or_false, forall_eq_or_imp, forall_eq]
  exact ⟨ha, hb, hc, hd, he, hf⟩

theorem headerImmutableSubset_wf {a b c d : Json} (ha : a.WF) (hb : b.WF) (hc : c.WF) (hd : d.WF) :
    (headerImmutableSubset a b c d).WF := by
  refine .obj (show Json.OwnKeys ["originalFileName", "mimeType", "fileSize", "fileId"] by decide) ?_
  simp only [List.mem_cons, List.not_mem_nil, or_false, forall_eq_or_imp, forall_eq]
  exact ⟨ha, hb, hc, hd⟩

theorem wrapAadObject_wf (salt walletPubKey fileId headerHash : String) :
    (wrapAadObject salt walletPubKey fileId headerHash).WF := by
  refine .obj (show Json.OwnKeys ["v", "salt", "walletPubKey", "fileId", "headerHash"] by decide) ?_
  simp only [List.mem_cons, List.not_mem_nil, or_false, forall_eq_or_imp, forall_eq]
  exact ⟨.num _, .str _, .str _, .str _, .str _⟩

theorem wrapAad_ok (hP : P.Lawful) (salt walletPubKey fileId : String) {header : Json}
    (hheader : header.WF) : ∃ aad, wrapAad P salt walletPubKey fileId header = .ok aad := by
  obtain ⟨h, hh⟩ := canonicalizeJSON_ok hP hheader
  obtain ⟨aad, haad⟩ := canonicalizeJSON_ok hP (wrapAadObject_wf salt walletPubKey fileId
    (P.toBase64 (P.sha256 (P.utf8Encode h))))
  simp only [wrapAad, hh, ok_bind, haad]
  exact ⟨_, rfl⟩

/-- A file is encrypted when the keys, the salt and the wallet have the right form. -/
theorem encryptFile_ok (hP : P.Lawful) (expose : Bool) (draws : EncryptDraws) (plaintext : Bytes)
    (options : EncryptOptions) (hkey : options.fileKey = none) (hkek : options.kek.length = 32)
    (hwallet : isBlank options.walletPubKey = false)
    (hsalt : options.salt.length = 16 ∨ options.salt.length = 32) :
    ∃ r, encryptFile P expose draws plaintext options = .ok r := by
  obtain ⟨json, hjson⟩ := canonicalizeJSON_ok hP (fileAad_wf
    (.str (options.filename.getD "")) (.str (options.mimeType.getD "")) (.num plaintext.length)
    (.str (options.fileId.getD (P.toBase64 draws.fileId.1))) (.str (options.filename.getD ""))
    (.num plaintext.length))
  obtain ⟨cipher, hcipher, -⟩ := hP.aead plaintext (P.utf8Encode json) draws.fileNonce.2
    draws.fileKey.2
  obtain ⟨aad, haad⟩ := wrapAad_ok hP (P.toBase64 options.salt) options.walletPubKey
    (options.fileId.getD (P.toBase64 draws.fileId.1)) (headerImmutableSubset_wf
      (.str (options.filename.getD "")) (.str (options.mimeType.getD "")) (.num plaintext.length)
      (.str (options.fileId.getD (P.toBase64 draws.fileId.1))))
  obtain ⟨wrapped, hwrapped, -⟩ := hP.aead draws.fileKey.1 aad draws.wrapNonce.2 hkek
  have hsalt' : (options.salt.length == 16 || options.salt.length == 32) = true := by
    simpa using hsalt
  simp only [encryptFile, hkey, Option.getD_none, draws.fileKey.2, beq_self_eq_true, require_true,
    ok_bind, hwallet, Bool.not_false, hjson, hcipher, hsalt', haad, hwrapped]
  exact ⟨_, rfl⟩

/-- Decryption inverts encryption. -/
theorem decryptFile_encryptFile (hP : P.Lawful)
    (h : encryptFile P expose draws plaintext options = .ok r) (hid : options.fileId ≠ some "")
    (hkek : options.kek.length = 32) :
    decryptFile P r.encryptedFile r.envelope options.kek = .ok plaintext := by
  obtain ⟨key, id, json, cipher, aad, wrapped, hs⟩ := encryptFile_eq_ok h
  obtain ⟨c, hc, hdecrypt⟩ := hP.aead key aad draws.wrapNonce.2 hkek
  obtain rfl := Except.ok.inj (hs.wrappedKey.symm.trans hc)
  obtain ⟨c', hc', hdecrypt'⟩ := hP.aead plaintext (P.utf8Encode json) draws.fileNonce.2 hs.key_length
  obtain rfl := Except.ok.inj (hs.cipherBytes.symm.trans hc')
  rw [hs.decrypt hP hid, hdecrypt]
  exact hdecrypt'

/-- Only the key that wrapped the file key opens a file, and it opens it to what was encrypted. -/
theorem decryptFile_unique (hP : P.Lawful) (hA : P.IdealAead)
    (h : encryptFile P expose draws plaintext options = .ok r) (hid : options.fileId ≠ some "")
    {kek message : Bytes} (hd : decryptFile P r.encryptedFile r.envelope kek = .ok message) :
    kek = options.kek ∧ message = plaintext := by
  obtain ⟨key, id, json, cipher, aad, wrapped, hs⟩ := encryptFile_eq_ok h
  rw [hs.decrypt hP hid] at hd
  obtain ⟨key', hkey, hmessage⟩ := bind_eq_ok.mp hd
  obtain ⟨rfl, -, -, rfl⟩ := hA.injective (hA.encrypted hkey) hs.wrappedKey
  exact ⟨rfl, (hA.injective (hA.encrypted hmessage) hs.cipherBytes).1⟩

end SovereignJedi.Files
