import SovereignJedi.Manifest.Crypto

/-! Sealing and opening manifests. `openManifest` is what the service does with the bytes that a
pointer designates; an object that the service seals under a wallet's signature opens under that
signature to the manifest that was sealed, and with an ideal AEAD an object never opens to two
manifests. -/

namespace SovereignJedi.Manifest

open SovereignJedi.Js SovereignJedi.Crypto

/-- Decodes, unwraps the key and decrypts: the read path of the service on fetched bytes. -/
def openManifest (P : Platform) (walletPubKey : String) (signatureBytes bytes : Bytes) :
    Result Json := do
  let encrypted ← P.decodeBytesToJson bytes
  let manifestKey ← unwrapManifestKey P encrypted walletPubKey signatureBytes
  decryptManifestV1 P encrypted manifestKey walletPubKey

/-- A manifest in memory: an ordered JSON object of version 1 for its wallet. -/
structure IsManifest (walletPubKey : String) (manifest : Json) : Prop where
  wf : manifest.WF
  version : manifest.get "version" = some (.num 1)
  wallet : manifest.get "walletPubKey" = some (.str walletPubKey)

theorem IsManifest.set {w : String} {m v : Json} (h : IsManifest w m) (hv : v.WF) {k : String}
    (hidx : Json.isIndexKey k = false) (hver : k ≠ "version") (hwal : k ≠ "walletPubKey") :
    IsManifest w (m.set k v) :=
  ⟨h.wf.set hv hidx, by rw [Json.get_set_ne (Ne.symm hver), h.version],
    by rw [Json.get_set_ne (Ne.symm hwal), h.wallet]⟩

variable {P : Platform}

/-! ### Round trips -/

theorem deriveManifestKey_ok (hP : P.Lawful) {kek : Bytes} (hkek : kek.length = 32) :
    ∃ key, deriveManifestKey P kek = .ok key ∧ key.length = 32 := by
  have hne : kek.isEmpty = false := by
    cases kek with
    | nil => simp at hkek
    | cons a l => rfl
  simp only [deriveManifestKey, hne, Bool.not_false, require_true, ok_bind, deriveKeyHKDF]
  exact hkdfExpand_ok hP _ _ (show (0 : Int) < 32 by omega) (by omega)

theorem manifestAad_wf (w : String) : (manifestAad w).WF := by
  refine .obj (show Json.OwnKeys ["walletPubKey", "manifestVersion", "context"] by decide) ?_
  simp only [List.mem_cons, List.not_mem_nil, or_false, forall_eq_or_imp, forall_eq]
  exact ⟨.str _, .num _, .str _⟩

theorem manifestHeader_wf (w : String) (nonce : Bytes) : (manifestHeader P w nonce).WF := by
  refine .obj (show Json.OwnKeys ["cipher", "nonce", "aad"] by decide) ?_
  simp only [List.mem_cons, List.not_mem_nil, or_false, forall_eq_or_imp, forall_eq]
  exact ⟨.str _, .str _, manifestAad_wf w⟩

theorem manifestPayload_wf (c : Bytes) : (manifestPayload P c).WF := by
  refine .obj (show Json.OwnKeys ["ciphertextB64"] by decide) ?_
  simp only [List.mem_cons, List.not_mem_nil, or_false, forall_eq]
  exact .str _

theorem manifestEnvelope_wf (w : String) (salt nonce c : Bytes) {context aadVersion : Json}
    (hc : context.WF) (hv : aadVersion.WF) :
    (manifestEnvelope P w salt nonce c context aadVersion).WF := by
  refine .obj (show Json.OwnKeys ["version", "walletPubKey", "kekDerivation", "wrap"] by decide) ?_
  simp only [List.mem_cons, List.not_mem_nil, or_false, forall_eq_or_imp, forall_eq]
  refine ⟨.num _, .str _,
    .obj (show Json.OwnKeys ["method", "messageTemplateId", "salt", "info"] by decide) ?_,
    .obj (show Json.OwnKeys ["cipher", "nonce", "ciphertext", "context", "aadVersion"] by decide) ?_⟩
  · simp only [List.mem_cons, List.not_mem_nil, or_false, forall_eq_or_imp, forall_eq]
    exact ⟨.str _, .str _, .str _, .str _⟩
  · simp only [List.mem_cons, List.not_mem_nil, or_false, forall_eq_or_imp, forall_eq]
    exact ⟨.str _, .str _, .str _, hc, hv⟩

theorem isEmpty_of_length {b : Bytes} {n : Nat} (h : b.length = n + 1) : b.isEmpty = false := by
  cases b with
  | nil => cases h
  | cons a l => rfl

/-- The envelope that wraps a key under the wallet's stable key is unwrapped by the same
signature. -/
theorem buildManifestWrapEnvelope_spec (hP : P.Lawful) {w : String} (hw : isBlank w = false)
    {sig kek key : Bytes} (hkek : deriveVaultRootKekFromSignature P sig = .ok kek)
    (hkey : key.length = 32) (salt : RandomBytes 32) (nonce : RandomBytes 24) :
    ∃ env, buildManifestWrapEnvelope P w kek key salt.1 nonce = .ok env ∧ env.WF ∧
      env.get "version" = some (.num 1) ∧ env.get "walletPubKey" = some (.str w) ∧
      ∀ encrypted : Json, encrypted.get "envelope" = some env →
        unwrapManifestKey P encrypted w sig = .ok key := by
  obtain ⟨kek', hkek', hlen⟩ := deriveKekFromSignature_ok hP sig none
  obtain rfl : kek' = kek := Except.ok.inj (hkek'.symm.trans hkek)
  have hne := isEmpty_of_length hlen
  have hsalt := isEmpty_of_length salt.2
  obtain ⟨c, henc, hdec⟩ := hP.aead key (P.encodeJsonToBytes (wrapAad (.num 1)
    (.str "manifest-wrap-aad-v1") w (.str "SJ_VAULT_ROOT_V1"))) nonce.2 hlen
  refine ⟨manifestEnvelope P w salt.1 nonce.1 c (.str "manifest-wrap-aad-v1") (.num 1), ?_,
    manifestEnvelope_wf _ _ _ _ (.str _) (.num _), rfl, rfl, ?_⟩
  · simp [buildManifestWrapEnvelope, hw, hne, hkey, hsalt, henc]
  · intro encrypted hget
    obtain ⟨fs, rfl⟩ := Json.exists_obj_of_get hget
    rw [Json.get_obj] at hget
    simp [unwrapManifestKey, manifestEnvelope, hget, orElse, hP.base64, hsalt, hkek, truthy, hdec,
      hkey]

theorem hashBasis_some (v k h p e : Json) :
    hashBasis (some v) (some k) (some h) (some p) (some e) = .obj [("version", v), ("kind", k),
      ("header", h), ("payload", p), ("envelope", e)] := rfl

/-- What is encrypted under a key is decrypted by it, integrity included. -/
theorem encryptManifestV1_spec (hP : P.Lawful) {w : String} (hw : isBlank w = false)
    {manifest env : Json} (hm : IsManifest w manifest) {key : Bytes} (hkey : key.length = 32)
    (henvwf : env.WF) (hver : env.get "version" = some (.num 1))
    (hwal : env.get "walletPubKey" = some (.str w)) (nonce : RandomBytes 24) :
    ∃ obj, encryptManifestV1 P manifest key w env nonce = .ok obj ∧ obj.WF ∧
      obj.get "envelope" = some env ∧ decryptManifestV1 P obj key w = .ok manifest := by
  obtain ⟨aad, haad⟩ := hP.canonicalize_some (manifestAad_wf w)
  obtain ⟨c, henc, hdec⟩ := hP.aead (P.encodeJsonToBytes manifest) (P.utf8Encode aad) nonce.2 hkey
  obtain ⟨sha, hbasis, hsha⟩ : ∃ sha, computeManifestIntegritySha256B64 P (.obj [("version", .num 1),
      ("kind", .str "SJ_MANIFEST"), ("header", manifestHeader P w nonce.1),
      ("payload", manifestPayload P c), ("envelope", env)]) = sha ∧ sha ≠ "" :=
    ⟨_, rfl, hP.base64_ne (List.ne_nil_of_length_eq_add_one (hP.sha256_length _))⟩
  refine ⟨.obj [("version", .num 1), ("kind", .str "SJ_MANIFEST"),
    ("header", manifestHeader P w nonce.1), ("payload", manifestPayload P c), ("envelope", env),
    ("integrity", .obj [("sha256B64", .str sha)])], ?_, ?_, by simp, ?_⟩
  · simp [encryptManifestV1, hw, hkey, hm.version, hm.wallet, hver, hwal, canonicalizeJSON, haad, henc,
      hashBasis_some, Json.setField, hbasis]
  · refine .obj (show Json.OwnKeys ["version", "kind", "header", "payload", "envelope", "integrity"]
      by decide) ?_
    simp only [List.mem_cons, List.not_mem_nil, or_false, forall_eq_or_imp, forall_eq]
    refine ⟨.num _, .str _, manifestHeader_wf _ _, manifestPayload_wf _, henvwf,
      .obj (show Json.OwnKeys ["sha256B64"] by decide) ?_⟩
    simp only [List.mem_cons, List.not_mem_nil, or_false, forall_eq]
    exact .str _
  · have haadGet : optProp (some (manifestHeader P w nonce.1)) "aad" = some (manifestAad w) := by
      simp [manifestHeader]
    have haadOk : (truthy (some (manifestAad w)) &&
        isStr ((manifestAad w).get "context") "manifest" &&
        isNum ((manifestAad w).get "manifestVersion") 1 &&
        isStr ((manifestAad w).get "walletPubKey") w) = true := by
      simp [manifestAad, truthy]
    have hnonce : prop (some (manifestHeader P w nonce.1)) "nonce" =
        .ok (some (.str (P.toBase64 nonce.1))) := by
      simp [manifestHeader]
    have hcipher : prop (some (manifestPayload P c)) "ciphertextB64" =
        .ok (some (.str (P.toBase64 c))) := by
      simp [manifestPayload]
    have hgot : (truthy (some (.str sha)) && P.toJsString (.str sha) == sha) = true := by
      simp [truthy, hsha, hP.toJsString_str]
    simp [decryptManifestV1, hw, hkey, hashBasis_some, haadGet, haadOk, hbasis, hgot, hnonce, hcipher,
      hP.base64, canonicalizeJSON, haad, hdec, hP.decode_encode hm.wf, hm.version, hm.wallet]

/-- An object sealed under a signature opens under it. -/
theorem openManifest_sealed (hP : P.Lawful) {w : String} (hw : isBlank w = false) {sig kek key : Bytes}
    (hkek : deriveVaultRootKekFromSignature P sig = .ok kek) (hkey : key.length = 32)
    {manifest env obj : Json} (hm : IsManifest w manifest) {salt : RandomBytes 32}
    {wrapNonce nonce : RandomBytes 24}
    (hbuild : buildManifestWrapEnvelope P w kek key salt.1 wrapNonce = .ok env)
    (hencrypt : encryptManifestV1 P manifest key w env nonce = .ok obj) :
    openManifest P w sig (P.encodeJsonToBytes obj) = .ok manifest := by
  obtain ⟨env', hbuild', hwf, hver, hwal, hunwrap⟩ :=
    buildManifestWrapEnvelope_spec hP hw hkek hkey salt wrapNonce
  obtain rfl : env' = env := Except.ok.inj (hbuild'.symm.trans hbuild)
  obtain ⟨obj', hencrypt', hobj, henv, hdecrypt⟩ :=
    encryptManifestV1_spec hP hw hm hkey hwf hver hwal nonce
  obtain rfl : obj' = obj := Except.ok.inj (hencrypt'.symm.trans hencrypt)
  simp [openManifest, hP.decode_encode hobj, hunwrap _ henv, hdecrypt]

/-! ### What opens -/

theorem decryptManifestV1_isManifest (hP : P.Lawful) {encrypted m : Json} {key : Bytes} {w : String}
    (h : decryptManifestV1 P encrypted key w = .ok m) : IsManifest w m := by
  simp only [decryptManifestV1, bind_eq_ok, require_eq_ok, rethrow_eq_ok, exists_const,
    Platform.decodeBytesToJson, result_pure, Except.ok.injEq] at h
  obtain ⟨-, -, -, -, -, _, -, _, -, _, -, _, -, _, -, _, -, parsed, hparse, hversion, hwallet, rfl⟩ :=
    h
  exact ⟨hP.parse_wf hparse, isNum_iff.mp hversion, isStr_iff.mp hwallet⟩

theorem openManifest_isManifest (hP : P.Lawful) {w : String} {sig bytes : Bytes} {m : Json}
    (h : openManifest P w sig bytes = .ok m) : IsManifest w m := by
  simp only [openManifest, bind_eq_ok] at h
  obtain ⟨encrypted, -, key, -, h⟩ := h
  exact decryptManifestV1_isManifest hP h

/-- The key that is unwrapped was wrapped under the key of the signature, in the object's own
terms. -/
theorem unwrapManifestKey_decrypts {encrypted : Json} {w : String} {sig key : Bytes}
    (h : unwrapManifestKey P encrypted w sig = .ok key) :
    key.length = 32 ∧ ∃ env nonce c kek, prop (some encrypted) "envelope" = .ok env ∧
      P.fromBase64 (optProp (optProp env "wrap") "nonce") = .ok nonce ∧
      P.fromBase64 (optProp (optProp env "wrap") "ciphertext") = .ok c ∧
      deriveVaultRootKekFromSignature P sig = .ok kek ∧
      P.aeadDecrypt c (P.encodeJsonToBytes (wrapAad
        (orElse (optProp (optProp env "wrap") "aadVersion") (.num 1))
        (orElse (optProp (optProp env "wrap") "context") (.str "manifest-wrap-aad-v1")) w
        (orElse (optProp (optProp env "kekDerivation") "messageTemplateId")
          (.str "SJ_VAULT_ROOT_V1")))) nonce kek = .ok key := by
  simp only [unwrapManifestKey, bind_eq_ok, require_eq_ok, rethrow_eq_ok, exists_const, result_pure,
    Except.ok.injEq] at h
  obtain ⟨env, henv, -, -, -, -, salt, -, -, kek, hkek, -, nonce, hnonce, c, hc, key', hdec, hlen,
    rfl⟩ := h
  exact ⟨by simpa using hlen, env, nonce, c, kek, henv, hnonce, hc, hkek, hdec⟩

theorem unwrapManifestKey_unique (hA : P.IdealAead) {encrypted : Json} {w : String}
    {sig sig' key key' : Bytes} (h : unwrapManifestKey P encrypted w sig = .ok key)
    (h' : unwrapManifestKey P encrypted w sig' = .ok key') : key = key' := by
  obtain ⟨-, env, nonce, c, kek, henv, hnonce, hc, -, hdec⟩ := unwrapManifestKey_decrypts h
  obtain ⟨-, env', nonce', c', kek', henv', hnonce', hc', -, hdec'⟩ := unwrapManifestKey_decrypts h'
  obtain rfl : env = env' := Except.ok.inj (henv.symm.trans henv')
  obtain rfl : nonce = nonce' := Except.ok.inj (hnonce.symm.trans hnonce')
  obtain rfl : c = c' := Except.ok.inj (hc.symm.trans hc')
  exact (hA.decrypt_unique hdec hdec').2

/-- Whatever the signatures, an object opens to one manifest. -/
theorem openManifest_unique (hA : P.IdealAead) {w : String} {sig sig' bytes : Bytes} {m m' : Json}
    (h : openManifest P w sig bytes = .ok m) (h' : openManifest P w sig' bytes = .ok m') : m = m' := by
  simp only [openManifest, bind_eq_ok] at h h'
  obtain ⟨encrypted, hparse, key, hkey, hm⟩ := h
  obtain ⟨encrypted', hparse', key', hkey', hm'⟩ := h'
  obtain rfl : encrypted = encrypted' := Except.ok.inj (hparse.symm.trans hparse')
  obtain rfl := unwrapManifestKey_unique hA hkey hkey'
  exact Except.ok.inj (hm.symm.trans hm')

end SovereignJedi.Manifest
