import SovereignJedi.Crypto.Kek

/-! The manifest's two layers of encryption: `crypto.ts`, which encrypts the manifest under its key
and hashes the result, and the wrap envelope of `service.ts`, which encrypts that key under the
wallet's stable key. -/

namespace SovereignJedi.Manifest

open SovereignJedi.Js SovereignJedi.Crypto

variable (P : Platform)

/-! ### `crypto.ts` -/

def canonicalizeJSON (obj : Json) : Result String :=
  match P.canonicalize obj with
  | some s => .ok s
  | none => .error (.error "Canonicalization failed: canonicalize() did not return a string")

def deriveManifestKey (kek : Bytes) : Result Bytes := do
  require (!kek.isEmpty) "deriveManifestKey: kek must be a non-empty Uint8Array"
  deriveKeyHKDF P kek none (some (P.utf8Encode "SJ-MANIFEST-v1")) 32

def computeManifestIntegritySha256B64 (basis : Json) : String :=
  P.toBase64 (P.sha256 (P.encodeJsonToBytes basis))

/-- The associated data of a manifest of `walletPubKey`. -/
def manifestAad (walletPubKey : String) : Json :=
  .obj [("walletPubKey", .str walletPubKey), ("manifestVersion", .num 1),
    ("context", .str "manifest")]

/-- The encrypted object without its `integrity`. -/
def hashBasis (version kind header payload envelope : Value) : Json :=
  .ofFields [("version", version), ("kind", kind), ("header", header), ("payload", payload),
    ("envelope", envelope)]

def manifestHeader (walletPubKey : String) (nonce : Bytes) : Json :=
  .obj [("cipher", .str "XChaCha20-Poly1305"), ("nonce", .str (P.toBase64 nonce)),
    ("aad", manifestAad walletPubKey)]

def manifestPayload (cipherBytes : Bytes) : Json :=
  .obj [("ciphertextB64", .str (P.toBase64 cipherBytes))]

def encryptManifestV1 (manifest : Json) (manifestKey : Bytes) (walletPubKey : String)
    (envelope : Json) (nonce : RandomBytes 24) : Result Json := do
  require (!isBlank walletPubKey) "encryptManifestV1: walletPubKey must be a non-empty string"
  require (manifestKey.length == 32) "encryptManifestV1: manifestKey must be 32 bytes"
  require (isNum (manifest.get "version") 1)
    "encryptManifestV1: manifest must be a ManifestV1 (version: 1)"
  require (isStr (manifest.get "walletPubKey") walletPubKey)
    "encryptManifestV1: manifest.walletPubKey must match walletPubKey"
  require (isNum (envelope.get "version") 1)
    "encryptManifestV1: envelope must be present (version: 1)"
  require (isStr (envelope.get "walletPubKey") walletPubKey)
    "encryptManifestV1: envelope.walletPubKey must match walletPubKey"
  let aadJson ← canonicalizeJSON P (manifestAad walletPubKey)
  let cipherBytes ← P.aeadEncrypt (P.encodeJsonToBytes manifest) (P.utf8Encode aadJson) nonce.1
    manifestKey
  let basis := hashBasis (some (.num 1)) (some (.str "SJ_MANIFEST"))
    (some (manifestHeader P walletPubKey nonce.1)) (some (manifestPayload P cipherBytes))
    (some envelope)
  let integrity := Json.obj [("sha256B64", .str (computeManifestIntegritySha256B64 P basis))]
  return basis.set "integrity" integrity

def decryptManifestV1 (encrypted : Json) (manifestKey : Bytes) (walletPubKey : String) :
    Result Json := do
  require (isNum (encrypted.get "version") 1 && isStr (encrypted.get "kind") "SJ_MANIFEST")
    "decryptManifestV1: invalid encrypted manifest object (expected version: 1, kind: SJ_MANIFEST)"
  require (!isBlank walletPubKey) "decryptManifestV1: walletPubKey must be a non-empty string"
  require (manifestKey.length == 32) "decryptManifestV1: manifestKey must be 32 bytes"
  let aad := optProp (encrypted.get "header") "aad"
  require (truthy aad && isStr (optProp aad "context") "manifest" &&
      isNum (optProp aad "manifestVersion") 1 && isStr (optProp aad "walletPubKey") walletPubKey)
    "decryptManifestV1: AAD mismatch (walletPubKey/context/version)"
  let basis := hashBasis (encrypted.get "version") (encrypted.get "kind") (encrypted.get "header")
    (encrypted.get "payload") (encrypted.get "envelope")
  let expected := computeManifestIntegritySha256B64 P basis
  let got := optProp (encrypted.get "integrity") "sha256B64"
  require (truthy got && P.toJsString (got.getD .null) == expected)
    "decryptManifestV1: integrity check failed (sha256 mismatch)"
  let nonce ← P.fromBase64 (← prop (encrypted.get "header") "nonce")
  let ciphertext ← P.fromBase64 (← prop (encrypted.get "payload") "ciphertextB64")
  let aadJson ← canonicalizeJSON P (aad.getD .null)
  let plaintext ← rethrow (P.aeadDecrypt ciphertext (P.utf8Encode aadJson) nonce manifestKey)
    fun e => "decryptManifestV1: decrypt failed: " ++ e.message
  let parsed ← rethrow (P.decodeBytesToJson plaintext)
    fun _ => "decryptManifestV1: decrypted payload is not valid JSON"
  require (isNum (parsed.get "version") 1)
    "decryptManifestV1: decrypted payload is not a ManifestV1 (version: 1)"
  require (isStr (parsed.get "walletPubKey") walletPubKey)
    "decryptManifestV1: decrypted manifest.walletPubKey mismatch"
  return parsed

/-! ### The wrap envelope of `service.ts` -/

/-- The associated data of the key wrap. -/
def wrapAad (aadVersion context : Json) (walletPubKey : String) (messageTemplateId : Json) : Json :=
  .obj [("v", aadVersion), ("context", context), ("walletPubKey", .str walletPubKey),
    ("messageTemplateId", messageTemplateId)]

def manifestEnvelope (walletPubKey : String) (saltBytes wrapNonce wrapped : Bytes)
    (context aadVersion : Json) : Json :=
  .obj [("version", .num 1), ("walletPubKey", .str walletPubKey),
    ("kekDerivation", .obj [("method", .str "wallet-signature"),
      ("messageTemplateId", .str "SJ_VAULT_ROOT_V1"), ("salt", .str (P.toBase64 saltBytes)),
      ("info", .str "SJ-KEK-v1")]),
    ("wrap", .obj [("cipher", .str "XChaCha20-Poly1305"), ("nonce", .str (P.toBase64 wrapNonce)),
      ("ciphertext", .str (P.toBase64 wrapped)), ("context", context),
      ("aadVersion", aadVersion)])]

def buildManifestWrapEnvelope (walletPubKey : String) (kek manifestKey saltBytes : Bytes)
    (wrapNonce : RandomBytes 24) : Result Json := do
  require (!isBlank walletPubKey)
    "buildManifestWrapEnvelope:walletPubKey must be a non-empty string"
  require (!kek.isEmpty) "buildManifestWrapEnvelope: kek invalid"
  require (manifestKey.length == 32) "buildManifestWrapEnvelope: manifestKey must be 32 bytes"
  require (!saltBytes.isEmpty) "buildManifestWrapEnvelope: saltBytes invalid"
  let aadVersion := Json.num 1
  let context := Json.str "manifest-wrap-aad-v1"
  let wrapAadBytes := P.encodeJsonToBytes
    (wrapAad aadVersion context walletPubKey (.str "SJ_VAULT_ROOT_V1"))
  let wrapped ← P.aeadEncrypt manifestKey wrapAadBytes wrapNonce.1 kek
  return manifestEnvelope P walletPubKey saltBytes wrapNonce.1 wrapped context aadVersion

def unwrapManifestKey (encrypted : Json) (walletPubKey : String) (signatureBytes : Bytes) :
    Result Bytes := do
  let env ← prop (some encrypted) "envelope"
  require (isNum (optProp env "version") 1) "unwrapManifestKey: missing envelope"
  require (isStr (optProp env "walletPubKey") walletPubKey)
    "unwrapManifestKey: walletPubKey mismatch"
  let kekDerivation := optProp env "kekDerivation"
  let tpl := orElse (optProp kekDerivation "messageTemplateId") (.str "")
  require (!isStr (some tpl) "SJ_UNLOCK_V1")
    ("Manifest legacy format detected (envelope messageTemplateId=SJ_UNLOCK_V1). " ++
      "This manifest cannot be opened after refresh. Please re-initialize your manifest pointer.")
  require (isStr (some tpl) "SJ_VAULT_ROOT_V1")
    ("unwrapManifestKey: unsupported envelope messageTemplateId: " ++ P.toJsString tpl)
  let saltBytes ← P.fromBase64 (some (orElse (optProp kekDerivation "salt") (.str "")))
  require (!saltBytes.isEmpty) "unwrapManifestKey: invalid envelope.kekDerivation.salt"
  let kek ← deriveVaultRootKekFromSignature P signatureBytes
  let wrap := optProp env "wrap"
  require (truthy wrap) "unwrapManifestKey: missing envelope.wrap"
  let wrapNonce ← P.fromBase64 (optProp wrap "nonce")
  let wrappedCipher ← P.fromBase64 (optProp wrap "ciphertext")
  let aadVersion := orElse (optProp wrap "aadVersion") (.num 1)
  let context := orElse (optProp wrap "context") (.str "manifest-wrap-aad-v1")
  let wrapAadBytes := P.encodeJsonToBytes (wrapAad aadVersion context walletPubKey
    (orElse (optProp kekDerivation "messageTemplateId") (.str "SJ_VAULT_ROOT_V1")))
  let manifestKey ← rethrow (P.aeadDecrypt wrappedCipher wrapAadBytes wrapNonce kek)
    fun e => "unwrapManifestKey: unwrap failed: " ++ e.message
  require (manifestKey.length == 32) "unwrapManifestKey: invalid unwrapped manifestKey length"
  return manifestKey

end SovereignJedi.Manifest
