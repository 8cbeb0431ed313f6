import SovereignJedi.Js.Value

/-! What the program takes from outside the repository: the JSON and text codecs of the language,
the `canonicalize` package, Web Crypto, libsodium and the IPFS node, with the documented properties
of these on which results rely. -/

namespace SovereignJedi.Js

abbrev Bytes := List UInt8

/-- Bytes drawn from a random source that was asked for `n` of them. -/
def RandomBytes (n : Nat) := { b : Bytes // b.length = n }

/-- A draw of zero bytes only. -/
def RandomBytes.zeros (n : Nat) : RandomBytes n := ⟨List.replicate n 0, List.length_replicate⟩

/-- The platform of one build of the program. `cluster` is `NEXT_PUBLIC_SOLANA_CLUSTER`.
`fromBase64` takes any value, since it is called on unchecked properties. IPFS is content-addressed:
`cidOf` gives the CID under which bytes are added, and `content` what a CID denotes. -/
structure Platform where
  cluster : Option String
  jsonStringify : Json → String
  jsonParse : String → Result Json
  toJsString : Json → String
  canonicalize : Json → Option String
  utf8Encode : String → Bytes
  utf8Decode : Bytes → String
  toBase64 : Bytes → String
  fromBase64 : Value → Result Bytes
  sha256 : Bytes → Bytes
  hmacSha256 : (key data : Bytes) → Bytes
  aeadEncrypt : (message aad nonce key : Bytes) → Result Bytes
  aeadDecrypt : (ciphertext aad nonce key : Bytes) → Result Bytes
  cidOf : Bytes → String
  content : String → Bytes

namespace Platform

/-- The codecs round-trip, JSON texts are not empty, digests have 32 bytes, AEAD decryption inverts
encryption, and a CID denotes the bytes that were added under it. -/
structure Lawful (P : Platform) : Prop where
  parse_stringify : ∀ {j : Json}, j.WF → P.jsonParse (P.jsonStringify j) = .ok j
  parse_wf : ∀ {s : String} {j : Json}, P.jsonParse s = .ok j → j.WF
  stringify_ne : ∀ j, P.jsonStringify j ≠ ""
  toJsString_str : ∀ s, P.toJsString (.str s) = s
  canonicalize_some : ∀ {j : Json}, j.WF → ∃ s, P.canonicalize j = some s
  utf8 : ∀ s, P.utf8Decode (P.utf8Encode s) = s
  base64 : ∀ b, P.fromBase64 (some (.str (P.toBase64 b))) = .ok b
  base64_ne : ∀ {b : Bytes}, b ≠ [] → P.toBase64 b ≠ ""
  sha256_length : ∀ b, (P.sha256 b).length = 32
  hmac_length : ∀ k b, (P.hmacSha256 k b).length = 32
  aead : ∀ {nonce key : Bytes} (message aad : Bytes), nonce.length = 24 → key.length = 32 →
    ∃ c, P.aeadEncrypt message aad nonce key = .ok c ∧ P.aeadDecrypt c aad nonce key = .ok message
  content_cidOf : ∀ b, P.content (P.cidOf b) = b
  cidOf_trim : ∀ b, trim (P.cidOf b) = P.cidOf b
  cidOf_ne : ∀ b, P.cidOf b ≠ ""

/-- An ideal AEAD: a ciphertext decrypts only with the key, nonce and associated data of the
encryption that produced it, and only to its message. -/
structure IdealAead (P : Platform) : Prop where
  encrypted : ∀ {c aad nonce key message : Bytes}, P.aeadDecrypt c aad nonce key = .ok message →
    P.aeadEncrypt message aad nonce key = .ok c
  injective : ∀ {message message' aad aad' nonce nonce' key key' c : Bytes},
    P.aeadEncrypt message aad nonce key = .ok c → P.aeadEncrypt message' aad' nonce' key' = .ok c →
      message = message' ∧ aad = aad' ∧ nonce = nonce' ∧ key = key'

/-- A ciphertext opens under at most one key, and to one message. -/
theorem IdealAead.decrypt_unique {P : Platform} (h : P.IdealAead)
    {c aad aad' nonce nonce' key key' m m' : Bytes}
    (h₁ : P.aeadDecrypt c aad nonce key = .ok m) (h₂ : P.aeadDecrypt c aad' nonce' key' = .ok m') :
    key = key' ∧ m = m' := by
  obtain ⟨hm, -, -, hk⟩ := h.injective (h.encrypted h₁) (h.encrypted h₂)
  exact ⟨hk, hm⟩

/-- `TextEncoder.encode(JSON.stringify(obj))`. -/
def encodeJsonToBytes (P : Platform) (j : Json) : Bytes := P.utf8Encode (P.jsonStringify j)

/-- `JSON.parse(TextDecoder.decode(bytes))`. -/
def decodeBytesToJson (P : Platform) (b : Bytes) : Result Json := P.jsonParse (P.utf8Decode b)

theorem Lawful.decode_encode {P : Platform} (h : P.Lawful) {j : Json} (hj : j.WF) :
    P.decodeBytesToJson (P.encodeJsonToBytes j) = .ok j := by
  rw [decodeBytesToJson, encodeJsonToBytes, h.utf8, h.parse_stringify hj]

end Platform

/-- `Date`: the ISO string of a time in milliseconds, and `Date.parse`, which gives `none` for
`NaN`. -/
structure Dates where
  toISOString : Int → Result String
  parse : String → Option Int

/-- ISO strings are one line each. -/
def Dates.OneLine (D : Dates) : Prop :=
  ∀ t s, D.toISOString t = .ok s → '\n' ∉ s.toList

/-- The text encodings of bytes that a page finds: the `bs58` package, and `atob` and `Buffer` where
they exist. -/
structure TextCodecs where
  bs58Encode : Bytes → String
  bs58Decode : String → Option Bytes
  atob : Option (String → Option Bytes)
  buffer : Option (String → Bytes)

/-- Base 58 round-trips. -/
def TextCodecs.Lawful (C : TextCodecs) : Prop := ∀ b, C.bs58Decode (C.bs58Encode b) = some b

end SovereignJedi.Js
