import SovereignJedi.Files.Upload

/-! The round trip of `encryptFile` and `decryptFile`, in memory and through the stored object. The
writer takes any `fileId` that it is given, and the reader takes no empty one. -/

namespace SovereignJedi.Files

open SovereignJedi.Js SovereignJedi.Crypto

section Statements

variable (P : Platform)

/-- Decrypts the header and the envelope of an object that was written as JSON and parsed again. -/
def decryptStored (encryptedFile envelope : Json) (integritySha256B64 : String) (kek : Bytes) :
    Result Bytes := do
  let object ← P.jsonParse
    (P.jsonStringify (buildEncryptedIpfsObjectV1 encryptedFile envelope integritySha256B64))
  decryptFile P (orElse (object.get "header") .null) (orElse (object.get "envelope") .null) kek

/-- Both ways give the plaintext back. -/
def RoundTrips (r : EncryptResult) (kek plaintext : Bytes) : Prop :=
  decryptFile P r.encryptedFile r.envelope kek = .ok plaintext ∧
  ∀ sha, decryptStored P r.encryptedFile r.envelope sha kek = .ok plaintext

end Statements

variable {P : Platform} {expose : Bool} {draws : EncryptDraws} {plaintext : Bytes}
  {options : EncryptOptions} {r : EncryptResult}

/-! ### The stored object -/

theorem encryptedFileObject_wf (nonce ciphertext : Bytes) (fileId name mimeType : String)
    (fileSize : Nat) :
    (encryptedFileObject P nonce ciphertext fileId name mimeType fileSize).WF := by
  refine .obj (show Json.OwnKeys ["version", "cipher", "nonce", "ciphertext", "fileId",
    "originalFileName", "mimeType", "fileSize", "aad"] by decide) ?_
  simp only [List.mem_cons, List.not_mem_nil, or_false, forall_eq_or_imp, forall_eq]
  refine ⟨.num _, .str _, .str _, .str _, .str _, .str _, .str _, .num _, ?_⟩
  exact fileAad_wf (.str _) (.str _) (.num _) (.str _) (.str _) (.num _)

theorem envelopeObject_wf (walletPubKey : String) (salt nonce ciphertext : Bytes) :
    (envelopeObject P walletPubKey salt nonce ciphertext).WF := by
  refine .obj (show Json.OwnKeys ["version", "walletPubKey", "kekDerivation", "wrap"] by decide) ?_
  simp only [List.mem_cons, List.not_mem_nil, or_false, forall_eq_or_imp, forall_eq]
  refine ⟨.num _, .str _, ?_, ?_⟩
  · refine .obj (show Json.OwnKeys ["method", "messageTemplateId", "salt", "info"] by decide) ?_
    simp only [List.mem_cons, List.not_mem_nil, or_false, forall_eq_or_imp, forall_eq]
    exact ⟨.str _, .str _, .str _, .str _⟩
  · refine .obj (show Json.OwnKeys ["cipher", "nonce", "ciphertext", "context", "aadVersion"]
      by decide) ?_
    simp only [List.mem_cons, List.not_mem_nil, or_false, forall_eq_or_imp, forall_eq]
    exact ⟨.str _, .str _, .str _, .str _, .num _⟩

theorem buildEncryptedIpfsObjectV1_wf {encryptedFile envelope : Json} (hfile : encryptedFile.WF)
    (henvelope : envelope.WF) (sha : String) :
    (buildEncryptedIpfsObjectV1 encryptedFile envelope sha).WF := by
  refine .obj (show Json.OwnKeys ["version", "header", "envelope", "payload", "integrity"]
    by decide) ?_
  simp only [List.mem_cons, List.not_mem_nil, or_false, forall_eq_or_imp, forall_eq]
  refine ⟨.num _, hfile, henvelope, ?_, ?_⟩
  · apply Json.WF.ofFields
    · simp
    · simp only [List.map_cons, List.map_nil, List.mem_singleton, forall_eq]
      decide
    · simp only [List.mem_singleton, forall_eq]
      exact fun v hv => hfile.get hv
  · refine .obj (show Json.OwnKeys ["sha256B64"] by decide) ?_
    simp only [List.mem_singleton, forall_eq]
    exact .str _

/-- Storing an encrypted file changes nothing. -/
theorem decryptStored_eq (hP : P.Lawful) (h : encryptFile P expose draws plaintext options = .ok r)
    (sha : String) (kek : Bytes) :
    decryptStored P r.encryptedFile r.envelope sha kek =
      decryptFile P r.encryptedFile r.envelope kek := by
  obtain ⟨key, id, json, cipher, aad, wrapped, hs⟩ := encryptFile_eq_ok h
  have hwf : (buildEncryptedIpfsObjectV1 r.encryptedFile r.envelope sha).WF := by
    rw [hs.encryptedFile, hs.envelope]
    exact buildEncryptedIpfsObjectV1_wf (encryptedFileObject_wf ..) (envelopeObject_wf ..) sha
  rw [decryptStored, hP.parse_stringify hwf, hs.encryptedFile, hs.envelope]
  rfl

/-! ### The file id -/

/-- The reader throws on an empty file id. -/
theorem decryptFile_empty_id (hP : P.Lawful) (h : encryptFile P expose draws plaintext options = .ok r)
    (hid : options.fileId = some "") (kek : Bytes) :
    decryptFile P r.encryptedFile r.envelope kek =
      .error (.error "decryptFile: encryptedFile.fileId is required for wrap AAD V3") := by
  obtain ⟨key, id, json, cipher, aad, wrapped, hs⟩ := encryptFile_eq_ok h
  obtain rfl : id = "" := by rw [hs.id_eq, hid, Option.getD_some]
  have hsalt := hP.base64_ne hs.salt
  rw [decryptFile, hs.encryptedFile, hs.envelope]
  simp [unwrapFileKey, encryptedFileObject, envelopeObject, prop, optProp, requireString, coalesce,
    hP.base64, hsalt, hs.wallet]

/-- What is encrypted with a KEK of 32 bytes comes back, in memory and through the stored object,
exactly when the file id is not the empty string. -/
theorem roundTrips_iff (hP : P.Lawful) (h : encryptFile P expose draws plaintext options = .ok r)
    (hkek : options.kek.length = 32) :
    RoundTrips P r options.kek plaintext ↔ options.fileId ≠ some "" := by
  constructor
  · rintro ⟨hdecrypt, -⟩ hid
    rw [decryptFile_empty_id hP h hid] at hdecrypt
    cases hdecrypt
  · intro hid
    have hdecrypt := decryptFile_encryptFile hP h hid hkek
    exact ⟨hdecrypt, fun sha => (decryptStored_eq hP h sha options.kek).trans hdecrypt⟩

/-! ### Samples -/

def sampleDraws : EncryptDraws where
  fileKey := .zeros 32
  fileId := .zeros 16
  fileNonce := .zeros 24
  wrapNonce := .zeros 24

def samplePlaintext : Bytes := [104, 105]

/-- A text file of a wallet. -/
def sampleOptions (fileId : Option String) : EncryptOptions where
  fileKey := none
  kek := (RandomBytes.zeros 32).1
  salt := (RandomBytes.zeros 32).1
  walletPubKey := "Wa11et"
  fileId := fileId
  filename := some "notes.txt"
  mimeType := some "text/plain"

theorem sampleOptions_encrypted (hP : P.Lawful) (fileId : Option String) (plaintext : Bytes) :
    ∃ r, encryptFile P false sampleDraws plaintext (sampleOptions fileId) = .ok r :=
  encryptFile_ok hP false sampleDraws plaintext _ rfl (RandomBytes.zeros 32).2
    (show isBlank "Wa11et" = false by decide) (Or.inr (RandomBytes.zeros 32).2)

theorem roundTrips_sample : ∃ r,
    encryptFile symbolic false sampleDraws samplePlaintext (sampleOptions none) = .ok r ∧
      RoundTrips symbolic r (sampleOptions none).kek samplePlaintext := by
  obtain ⟨r, hr⟩ := sampleOptions_encrypted symbolic_lawful none samplePlaintext
  exact ⟨r, hr, (roundTrips_iff symbolic_lawful hr (RandomBytes.zeros 32).2).mpr nofun⟩

/-- With an empty file id, a file is encrypted and cannot be decrypted. -/
theorem empty_id_lost : ∃ r,
    encryptFile symbolic false sampleDraws samplePlaintext (sampleOptions (some "")) = .ok r ∧
      ¬ RoundTrips symbolic r (sampleOptions (some "")).kek samplePlaintext := by
  obtain ⟨r, hr⟩ := sampleOptions_encrypted symbolic_lawful (some "") samplePlaintext
  refine ⟨r, hr, fun h => ?_⟩
  have hlost := decryptFile_empty_id symbolic_lawful hr rfl (sampleOptions (some "")).kek
  rw [h.1] at hlost
  cases hlost

end SovereignJedi.Files
