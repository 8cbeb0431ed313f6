import SovereignJedi.Files.RoundTrip

/-! The package that an upload adds to IPFS carries the digest of its other parts. The digest is
computed over one object and the bytes are those of another, so that a reader has to take the parts
from what it parses, put them together in the order of the writer and get the same text. -/

namespace SovereignJedi.Files

open SovereignJedi.Js SovereignJedi.Crypto SovereignJedi.Wallet SovereignJedi.Session

section Statements

variable (P : Platform)

/-- The bytes that `addEncryptedPackage` adds to IPFS. -/
def addEncryptedPackage (pkg : Json) : Result Bytes := do
  require (match pkg.get "version" with
    | some (.num v) => v == 1
    | _ => false) "addEncryptedPackage: invalid package (expected version: 1)"
  return P.encodeJsonToBytes pkg

/-- The parts of a package that its digest is over, in order. -/
def partsOf (pkg : Json) : Json :=
  .ofFields [("version", pkg.get "version"), ("header", pkg.get "header"),
    ("envelope", pkg.get "envelope"), ("payload", pkg.get "payload")]

/-- What a reader finds in the bytes of a package: it parses, its digest is the one of its parts and
is `sha256B64`, and the ciphertext of the payload is the one of the header. -/
structure SelfVerifying (bytes : Bytes) (sha256B64 : String) (pkg : Json) : Prop where
  parsed : P.decodeBytesToJson bytes = .ok pkg
  integrity : optProp (pkg.get "integrity") "sha256B64" = some (.str sha256B64)
  digest : P.toBase64 (P.sha256 (P.encodeJsonToBytes (partsOf pkg))) = sha256B64
  payload : ∃ ciphertext, optProp (pkg.get "header") "ciphertext" = some (.str ciphertext) ∧
    optProp (pkg.get "payload") "ciphertextB64" = some (.str ciphertext)

end Statements

variable {P : Platform} {D : Dates} {C : TextCodecs}

/-- The parts of a package are the object that was hashed for it. -/
theorem partsOf_object (encryptedFile envelope : Json) (sha256B64 : String) :
    partsOf (buildEncryptedIpfsObjectV1 encryptedFile envelope sha256B64) =
      hashBasis encryptedFile envelope := rfl

theorem addEncryptedPackage_object (encryptedFile envelope : Json) (sha256B64 : String) :
    addEncryptedPackage P (buildEncryptedIpfsObjectV1 encryptedFile envelope sha256B64) =
      .ok (P.encodeJsonToBytes (buildEncryptedIpfsObjectV1 encryptedFile envelope sha256B64)) := rfl

/-- The package of a successful upload is the one of an encrypted file and its digest, and its bytes
are what was added to IPFS. -/
theorem upload_object {env : UploadEnv} {file : File} {w : String} {r : UploadResult}
    (h : uploadEncryptedToIpfsOrThrow P D C env file w = .ok r) :
    ∃ draws plaintext options encrypted,
      encryptFile P env.exposeFileKey draws plaintext options = .ok encrypted ∧
      r.integritySha256B64 = P.toBase64 (P.sha256 (P.encodeJsonToBytes
        (hashBasis encrypted.encryptedFile encrypted.envelope))) ∧
      r.object = buildEncryptedIpfsObjectV1 encrypted.encryptedFile encrypted.envelope
        r.integritySha256B64 ∧
      r.cid = P.cidOf (P.encodeJsonToBytes r.object) := by
  simp only [uploadEncryptedToIpfsOrThrow, bind_eq_ok, require_eq_ok, exists_const] at h
  obtain ⟨-, -, -, h⟩ := h
  split at h
  · cases h
  · simp only [bind_eq_ok] at h
    obtain ⟨_, -, _, -, unlock, -, kek, -, plaintext, -, encrypted, hencrypt, cid, hadd, hr⟩ := h
    obtain rfl := Except.ok.inj hr
    refine ⟨_, plaintext, _, encrypted, hencrypt, rfl, rfl, ?_⟩
    unfold unlessFault at hadd
    split at hadd
    · cases hadd
    · exact (Except.ok.inj hadd).symm

/-- Uploaded packages are self-verifying, for a JSON codec and a text codec that undo what they
write. -/
theorem upload_selfVerifying
    (hjson : ∀ j : Json, j.WF → P.jsonParse (P.jsonStringify j) = .ok j)
    (hutf8 : ∀ s, P.utf8Decode (P.utf8Encode s) = s) {env : UploadEnv} {file : File} {w : String}
    {r : UploadResult} (h : uploadEncryptedToIpfsOrThrow P D C env file w = .ok r) :
    ∃ bytes pkg, addEncryptedPackage P r.object = .ok bytes ∧ r.cid = P.cidOf bytes ∧
      SelfVerifying P bytes r.integritySha256B64 pkg := by
  obtain ⟨draws, plaintext, options, encrypted, hencrypt, hsha, hobject, hcid⟩ := upload_object h
  obtain ⟨key, id, json, cipher, aad, wrapped, hs⟩ := encryptFile_eq_ok hencrypt
  have hwf : r.object.WF := by
    rw [hobject, hs.encryptedFile, hs.envelope]
    exact buildEncryptedIpfsObjectV1_wf (encryptedFileObject_wf ..) (envelopeObject_wf ..) _
  have hadded : addEncryptedPackage P r.object = .ok (P.encodeJsonToBytes r.object) := by
    rw [hobject]
    exact addEncryptedPackage_object ..
  refine ⟨_, r.object, hadded, hcid, ?_, ?_, ?_, P.toBase64 cipher, ?_, ?_⟩
  · rw [Platform.decodeBytesToJson, Platform.encodeJsonToBytes, hutf8, hjson _ hwf]
  · rw [hobject]
    rfl
  · rw [hobject, partsOf_object, hsha]
  · rw [hobject, hs.encryptedFile]
    rfl
  · rw [hobject, hs.encryptedFile]
    rfl

theorem upload_selfVerifying_sample : ∃ r,
    uploadEncryptedToIpfsOrThrow symbolic sampleDates sampleCodecs (sampleUploadEnv sampleSign)
      sampleFile sampleKey.val = .ok r ∧
    ∃ bytes pkg, addEncryptedPackage symbolic r.object = .ok bytes ∧ r.cid = symbolic.cidOf bytes ∧
      SelfVerifying symbolic bytes r.integritySha256B64 pkg := by
  have hsign : ∀ m, (sampleSign m).length = 64 := fun m => by simp [sampleSign]
  obtain ⟨r, hr⟩ := sample_upload hsign
  have hjson : ∀ j : Json, j.WF → symbolic.jsonParse (symbolic.jsonStringify j) = .ok j :=
    fun _ hj => symbolic_lawful.parse_stringify hj
  have hutf8 : ∀ s, symbolic.utf8Decode (symbolic.utf8Encode s) = s := symbolic_lawful.utf8
  exact ⟨r, hr, upload_selfVerifying hjson hutf8 hr⟩

end SovereignJedi.Files
