import SovereignJedi.Files.Tamper
import SovereignJedi.Manifest.Seal

/-! Who can make a manifest that opens. The reader takes the context, the template, the associated
data and the nonces from the object that it reads; still, with an ideal AEAD, what opens is a key that
was wrapped for the wallet, and a manifest that was encrypted under this key. -/

namespace SovereignJedi.Manifest

open SovereignJedi.Js SovereignJedi.Crypto SovereignJedi.Files

/-! ### Earlier encryptions -/

/-- A call that encrypts: it wraps the key of a manifest, or encrypts a manifest or a file. -/
inductive EncryptCall where
  | wrap (walletPubKey : String) (kek manifestKey saltBytes : Bytes) (wrapNonce : RandomBytes 24)
  | manifest (manifest : Json) (manifestKey : Bytes) (walletPubKey : String) (envelope : Json)
      (nonce : RandomBytes 24)
  | file (draws : EncryptDraws) (plaintext : Bytes) (options : EncryptOptions)

/-- What the call is given is data. -/
def EncryptCall.WF : EncryptCall → Prop
  | .manifest m _ _ envelope _ => m.WF ∧ envelope.WF
  | _ => True

section Statements

variable (P : Platform)

/-- The associated data of the key wrap of `buildManifestWrapEnvelope`. -/
def manifestWrapAad (walletPubKey : String) : Json :=
  wrapAad (.num 1) (.str "manifest-wrap-aad-v1") walletPubKey (.str "SJ_VAULT_ROOT_V1")

/-- The AEAD encryption `e` is made by the call. That of a file is made even where its key is not
wrapped afterwards. -/
def EncryptCall.Seals : EncryptCall → Platform.Sealed → Prop
  | .wrap w kek key salt nonce, e => ∃ envelope c,
      buildManifestWrapEnvelope P w kek key salt nonce = .ok envelope ∧
      P.aeadEncrypt key (P.encodeJsonToBytes (manifestWrapAad w)) nonce.1 kek = .ok c ∧
      e = ⟨kek, nonce.1, P.encodeJsonToBytes (manifestWrapAad w), key, c⟩
  | .manifest m key w envelope nonce, e => ∃ encrypted aad c,
      encryptManifestV1 P m key w envelope nonce = .ok encrypted ∧
      P.canonicalize (manifestAad w) = some aad ∧
      P.aeadEncrypt (P.encodeJsonToBytes m) (P.utf8Encode aad) nonce.1 key = .ok c ∧
      e = ⟨key, nonce.1, P.utf8Encode aad, P.encodeJsonToBytes m, c⟩
  | .file draws plaintext options, e =>
      (∃ id json c, P.canonicalize (fileAad (.str (options.filename.getD ""))
          (.str (options.mimeType.getD "")) (.num plaintext.length) (.str id)
          (.str (options.filename.getD "")) (.num plaintext.length)) = some json ∧
        P.aeadEncrypt plaintext (P.utf8Encode json) draws.fileNonce.1 (fileKeyOf draws options) =
          .ok c ∧
        e = ⟨fileKeyOf draws options, draws.fileNonce.1, P.utf8Encode json, plaintext, c⟩) ∨
      ∃ id aad c, Files.wrapAad P (P.toBase64 options.salt) options.walletPubKey id
          (headerImmutableSubset (.str (options.filename.getD "")) (.str (options.mimeType.getD ""))
            (.num plaintext.length) (.str id)) = .ok aad ∧
        P.aeadEncrypt (fileKeyOf draws options) aad draws.wrapNonce.1 options.kek = .ok c ∧
        e = ⟨options.kek, draws.wrapNonce.1, aad, fileKeyOf draws options, c⟩

/-- The AEAD encryption `e` is made by one of the calls. -/
def MadeBy (calls : List EncryptCall) (e : Platform.Sealed) : Prop := ∃ call ∈ calls, call.Seals P e

/-- The decoded property `k` of the wrapped key of an encrypted manifest. -/
def wrapBytes (encrypted : Json) (k : String) : Result Bytes :=
  P.fromBase64 (optProp (optProp (encrypted.get "envelope") "wrap") k)

/-- An encrypted manifest that opens to `m` for `w` under `sig`, with the manifest key `key`: the key
was wrapped for `w` under the key of `sig`, and `m` was encrypted under it for `w`; its ciphertexts
are those of these two encryptions. -/
structure Authentic (calls : List EncryptCall) (encrypted : Json) (w : String) (sig key : Bytes)
    (m : Json) : Prop where
  wrapped : ∃ kek salt nonce c, deriveVaultRootKekFromSignature P sig = .ok kek ∧
    .wrap w kek key salt nonce ∈ calls ∧ wrapBytes P encrypted "nonce" = .ok nonce.1 ∧
    wrapBytes P encrypted "ciphertext" = .ok c ∧
    (EncryptCall.wrap w kek key salt nonce).Seals P
      ⟨kek, nonce.1, P.encodeJsonToBytes (manifestWrapAad w), key, c⟩
  encrypted : ∃ envelope nonce aad c, .manifest m key w envelope nonce ∈ calls ∧
    P.fromBase64 (optProp (encrypted.get "header") "nonce") = .ok nonce.1 ∧
    P.fromBase64 (optProp (encrypted.get "payload") "ciphertextB64") = .ok c ∧
    (EncryptCall.manifest m key w envelope nonce).Seals P
      ⟨key, nonce.1, P.utf8Encode aad, P.encodeJsonToBytes m, c⟩

/-- The properties that the integrity of an encrypted manifest covers. -/
def integrityKeys : List String := ["version", "kind", "header", "payload", "envelope"]

/-- What is hashed for the integrity of an encrypted manifest. -/
def basisOf (encrypted : Json) : Json :=
  hashBasis (encrypted.get "version") (encrypted.get "kind") (encrypted.get "header")
    (encrypted.get "payload") (encrypted.get "envelope")

/-- Only authentic manifests open; and an object with the integrity value of a produced one and with
another text of a property opens with no key, unless SHA-256 has a collision there. -/
structure ManifestAuthenticity (calls : List EncryptCall) : Prop where
  opened : ∀ encrypted w sig key m, encrypted.WF →
    unwrapManifestKey P encrypted w sig = .ok key → decryptManifestV1 P encrypted key w = .ok m →
      Authentic P calls encrypted w sig key m
  integrity : ∀ m key w envelope nonce produced encrypted, envelope.WF → encrypted.WF →
    encryptManifestV1 P m key w envelope nonce = .ok produced →
    optProp (encrypted.get "integrity") "sha256B64" = optProp (produced.get "integrity") "sha256B64" →
    (∃ k ∈ integrityKeys,
      (encrypted.get k).map P.jsonStringify ≠ (produced.get k).map P.jsonStringify) →
    (P.sha256 (P.encodeJsonToBytes (basisOf encrypted)) =
        P.sha256 (P.encodeJsonToBytes (basisOf produced)) →
      P.encodeJsonToBytes (basisOf encrypted) = P.encodeJsonToBytes (basisOf produced)) →
    ∀ key' w', ∃ e, decryptManifestV1 P encrypted key' w' = .error e

end Statements

variable {P : Platform}

/-! ### Associated data -/

theorem wrapAad_wf {aadVersion context template : Json} (w : String) (hv : aadVersion.WF)
    (hc : context.WF) (ht : template.WF) : (wrapAad aadVersion context w template).WF := by
  refine .obj (show Json.OwnKeys ["v", "context", "walletPubKey", "messageTemplateId"] by decide) ?_
  simp only [List.mem_cons, List.not_mem_nil, or_false, forall_eq_or_imp, forall_eq]
  exact ⟨hv, hc, .str _, ht⟩

theorem manifestWrapAad_wf (w : String) : (manifestWrapAad w).WF :=
  wrapAad_wf w (.num _) (.str _) (.str _)

theorem orElse_wf {v : Value} {d : Json} (hv : ∀ j, v = some j → j.WF) (hd : d.WF) :
    (orElse v d).WF := by
  unfold orElse
  split
  · exact hd
  · exact hd
  · exact hv _ rfl

theorem optProp_wf {v : Value} {k : String} (hv : ∀ j, v = some j → j.WF) :
    ∀ j, optProp v k = some j → j.WF := by
  intro j hj
  cases v with
  | none => cases hj
  | some o => exact (hv o rfl).get hj

/-- What was encrypted with the associated data of a key wrap is a wrapped key. -/
theorem seals_wrapAad (hC : P.Codecs) (hT : P.Texts) {call : EncryptCall}
    {e : Platform.Sealed} (h : call.Seals P e) {aadVersion context template : Json} {w : String}
    (hwf : (wrapAad aadVersion context w template).WF)
    (haad : e.aad = P.encodeJsonToBytes (wrapAad aadVersion context w template)) :
    ∃ salt nonce c, call = .wrap w e.key e.message salt nonce ∧
      e = ⟨e.key, nonce.1, P.encodeJsonToBytes (manifestWrapAad w), e.message, c⟩ := by
  -- no canonical text is that of a value with these properties
  have hnot : ∀ j s key, j.WF → P.canonicalize j = some s → e.aad = P.utf8Encode s →
      (j.get key).isSome ≠ ((wrapAad aadVersion context w template).get key).isSome → False := by
    intro j s key hj hs he hne
    obtain rfl := hC.utf8_injective (he.symm.trans haad)
    exact hne ((hT.same_of_canonicalize hj hwf hs).isSome_get key)
  cases call with
  | wrap w' kek key salt nonce =>
    obtain ⟨envelope, c, -, -, rfl⟩ := h
    have hsame := hT.stringify_injective (manifestWrapAad_wf w') hwf (hC.utf8_injective haad)
    obtain rfl : w' = w := by
      simpa [manifestWrapAad, wrapAad] using congrArg (fun j => Json.get j "walletPubKey") hsame
    exact ⟨salt, nonce, c, rfl, rfl⟩
  | manifest m key w' envelope nonce =>
    obtain ⟨encrypted, aad, c, -, hs, -, rfl⟩ := h
    exact (hnot _ _ "manifestVersion" (manifestAad_wf w') hs rfl
      (by simp [manifestAad, wrapAad])).elim
  | file draws plaintext options =>
    rcases h with ⟨id, json, c, hs, -, rfl⟩ | ⟨id, aad, c, hs, -, rfl⟩
    · exact (hnot _ _ "fileId" (fileAad_wf (.str _) (.str _) (.num _) (.str _) (.str _) (.num _)) hs
        rfl (by simp [fileAad, wrapAad])).elim
    · obtain ⟨_, t, -, ht, rfl⟩ := wrapAad_eq_ok.mp hs
      exact (hnot _ _ "salt" (wrapAadObject_wf ..) ht rfl (by simp [wrapAadObject, wrapAad])).elim

/-- What was encrypted with the associated data of a manifest is a manifest. -/
theorem seals_manifestAad (hC : P.Codecs) (hT : P.Texts) {call : EncryptCall}
    {e : Platform.Sealed} (h : call.Seals P e) {aad : Json} {text w : String} (hwf : aad.WF)
    (htext : P.canonicalize aad = some text) (haad : e.aad = P.utf8Encode text)
    (hcontext : aad.get "context" = some (.str "manifest"))
    (hwallet : aad.get "walletPubKey" = some (.str w)) :
    ∃ m envelope nonce c, call = .manifest m e.key w envelope nonce ∧
      e = ⟨e.key, nonce.1, P.utf8Encode text, P.encodeJsonToBytes m, c⟩ := by
  have hnot : ∀ j s, j.WF → P.canonicalize j = some s → e.aad = P.utf8Encode s →
      j.get "context" = none → False := by
    intro j s hj hs he hnone
    obtain rfl := hC.utf8_injective (he.symm.trans haad)
    have hsame := (hC.canonicalize_same hj hwf hs htext).isSome_get "context"
    rw [hnone, hcontext] at hsame
    cases hsame
  cases call with
  | wrap w' kek key salt nonce =>
    obtain ⟨envelope, c, -, -, rfl⟩ := h
    have hsame := hT.same_of_canonicalize hwf (manifestWrapAad_wf w')
      (hC.utf8_injective haad ▸ htext)
    have hother := hsame.get_eq hcontext (w := .str "manifest-wrap-aad-v1") rfl trivial
    exact absurd (Json.str.inj hother) (by decide)
  | manifest m key w' envelope nonce =>
    obtain ⟨encrypted, text', c, -, hs, -, rfl⟩ := h
    obtain rfl := hC.utf8_injective haad
    have hsame := hC.canonicalize_same hwf (manifestAad_wf w') htext hs
    obtain rfl := Json.str.inj (hsame.get_eq hwallet (w := .str w') rfl trivial)
    exact ⟨m, envelope, nonce, c, rfl, rfl⟩
  | file draws plaintext options =>
    rcases h with ⟨id, json, c, hs, -, rfl⟩ | ⟨id, aad', c, hs, -, rfl⟩
    · exact (hnot _ _ (fileAad_wf (.str _) (.str _) (.num _) (.str _) (.str _) (.num _)) hs rfl
        rfl).elim
    · obtain ⟨_, t, -, ht, rfl⟩ := wrapAad_eq_ok.mp hs
      exact (hnot _ _ (wrapAadObject_wf ..) ht rfl rfl).elim

/-! ### What decrypts -/

theorem optProp_of_prop {v u : Value} {k : String} (h : prop v k = .ok u) : optProp v k = u := by
  unfold prop at h
  split at h
  · cases h
  · cases h
  · exact Except.ok.inj h

theorem canonicalize_of_ok {j : Json} {text : String} (h : canonicalizeJSON P j = .ok text) :
    P.canonicalize j = some text := by
  unfold canonicalizeJSON at h
  split at h
  · exact Except.ok.inj h ▸ ‹_›
  · cases h

/-- The associated data of an object that decrypts names the wallet and the context, and its
integrity is that of its other properties. -/
theorem decryptManifestV1_decrypts {encrypted m : Json} {key : Bytes} {w : String}
    (h : decryptManifestV1 P encrypted key w = .ok m) :
    (∃ aad text nonce c plaintext, optProp (encrypted.get "header") "aad" = some aad ∧
      aad.get "context" = some (.str "manifest") ∧ aad.get "walletPubKey" = some (.str w) ∧
      P.canonicalize aad = some text ∧
      P.fromBase64 (optProp (encrypted.get "header") "nonce") = .ok nonce ∧
      P.fromBase64 (optProp (encrypted.get "payload") "ciphertextB64") = .ok c ∧
      P.aeadDecrypt c (P.utf8Encode text) nonce key = .ok plaintext ∧
      P.decodeBytesToJson plaintext = .ok m) ∧
    P.toJsString ((optProp (encrypted.get "integrity") "sha256B64").getD .null) =
      computeManifestIntegritySha256B64 P (basisOf encrypted) := by
  simp only [decryptManifestV1, bind_eq_ok, require_eq_ok, rethrow_eq_ok, exists_const, result_pure,
    Except.ok.injEq, Bool.and_eq_true, isStr_iff] at h
  obtain ⟨-, -, -, haad, hgot, header, hheader, nonce, hnonce, payload, hpayload, c, hc, text, htext,
    plaintext, hplaintext, parsed, hparse, -, -, rfl⟩ := h
  obtain ⟨⟨⟨-, hcontext⟩, -⟩, hwallet⟩ := haad
  obtain rfl := optProp_of_prop hheader
  obtain rfl := optProp_of_prop hpayload
  refine ⟨?_, eq_of_beq hgot.2⟩
  cases haad : optProp (encrypted.get "header") "aad" with
  | none =>
    rw [haad] at hcontext
    cases hcontext
  | some aad =>
    rw [haad] at hcontext hwallet htext
    exact ⟨aad, text, nonce, c, plaintext, rfl, hcontext, hwallet, canonicalize_of_ok htext, hnonce,
      hc, hplaintext, hparse⟩

/-- What is decrypted by an ideal AEAD is what was encrypted: the key by a wrap for the wallet, and
the manifest by an encryption for the wallet under that key. -/
theorem opened_authentic (hC : P.Codecs) (hT : P.Texts) {calls : List EncryptCall}
    (hcalls : ∀ call ∈ calls, call.WF)
    (hideal : P.IdealAfter (MadeBy P calls)) {encrypted m : Json}
    (hwf : encrypted.WF) {w : String} {sig key : Bytes}
    (hunwrap : unwrapManifestKey P encrypted w sig = .ok key)
    (hdecrypt : decryptManifestV1 P encrypted key w = .ok m) :
    Authentic P calls encrypted w sig key m := by
  have hget : ∀ k j, encrypted.get k = some j → j.WF := fun k j hj => hwf.get hj
  constructor
  · obtain ⟨-, env, nonce, c, kek, henv, hnonce, hc, hkek, hopen⟩ := unwrapManifestKey_decrypts hunwrap
    obtain rfl : encrypted.get "envelope" = env := optProp_of_prop henv
    obtain ⟨call, hmem, hseals⟩ := (hideal ⟨_, _, _, _, _⟩).mp hopen
    have hwrap := optProp_wf (k := "wrap") (hget "envelope")
    have hkekDerivation := optProp_wf (k := "kekDerivation") (hget "envelope")
    have haad := wrapAad_wf w
      (orElse_wf (optProp_wf (k := "aadVersion") hwrap) (.num 1))
      (orElse_wf (optProp_wf (k := "context") hwrap) (.str "manifest-wrap-aad-v1"))
      (orElse_wf (optProp_wf (k := "messageTemplateId") hkekDerivation) (.str "SJ_VAULT_ROOT_V1"))
    obtain ⟨salt, wrapNonce, c', rfl, he⟩ := seals_wrapAad hC hT hseals haad rfl
    simp only [Platform.Sealed.mk.injEq, true_and] at he
    obtain ⟨rfl, haad', rfl⟩ := he
    refine ⟨kek, salt, wrapNonce, c, hkek, hmem, hnonce, hc, ?_⟩
    rw [← haad']
    exact hseals
  · obtain ⟨⟨aad, text, nonce, c, plaintext, haad, hcontext, hwallet, htext, hnonce, hc, hopen,
      hparse⟩, -⟩ := decryptManifestV1_decrypts hdecrypt
    obtain ⟨call, hmem, hseals⟩ := (hideal ⟨_, _, _, _, _⟩).mp hopen
    have hwfAad : aad.WF := optProp_wf (hget "header") _ haad
    obtain ⟨m', envelope, nonce', c', rfl, he⟩ :=
      seals_manifestAad hC hT hseals hwfAad htext rfl hcontext hwallet
    simp only [Platform.Sealed.mk.injEq, true_and] at he
    obtain ⟨rfl, rfl, rfl⟩ := he
    obtain rfl : m' = m := by
      rw [Platform.decodeBytesToJson, Platform.encodeJsonToBytes, hC.utf8,
        hT.parse_stringify (hcalls _ hmem).1] at hparse
      exact Except.ok.inj hparse
    exact ⟨envelope, nonce', text, c, hmem, hnonce, hc, hseals⟩

/-! ### Integrity -/

theorem basisOf_wf {encrypted : Json} (hwf : encrypted.WF) : (basisOf encrypted).WF := by
  refine .ofFields (show integrityKeys.Nodup by decide)
    (show ∀ k ∈ integrityKeys, Json.isIndexKey k = false by decide) ?_
  simp only [List.mem_cons, List.not_mem_nil, or_false, forall_eq_or_imp, forall_eq]
  exact ⟨fun _ h => hwf.get h, fun _ h => hwf.get h, fun _ h => hwf.get h, fun _ h => hwf.get h,
    fun _ h => hwf.get h⟩

/-- A produced object carries the hash of its other properties. -/
theorem encryptManifestV1_integrity {m envelope produced : Json} {key : Bytes} {w : String}
    {nonce : RandomBytes 24} (henvelope : envelope.WF)
    (h : encryptManifestV1 P m key w envelope nonce = .ok produced) :
    (basisOf produced).WF ∧ optProp (produced.get "integrity") "sha256B64" =
      some (.str (computeManifestIntegritySha256B64 P (basisOf produced))) := by
  simp only [encryptManifestV1, bind_eq_ok, require_eq_ok, exists_const, result_pure,
    Except.ok.injEq] at h
  obtain ⟨-, -, -, -, -, -, text, -, c, -, rfl⟩ := h
  refine ⟨?_, rfl⟩
  change (Json.obj [("version", .num 1), ("kind", .str "SJ_MANIFEST"),
    ("header", manifestHeader P w nonce.1), ("payload", manifestPayload P c),
    ("envelope", envelope)]).WF
  refine .obj (show Json.OwnKeys integrityKeys by decide) ?_
  simp only [List.mem_cons, List.not_mem_nil, or_false, forall_eq_or_imp, forall_eq]
  exact ⟨.num _, .str _, manifestHeader_wf _ _, manifestPayload_wf _, henvelope⟩

theorem basisOf_get (encrypted : Json) {k : String} (hk : k ∈ integrityKeys) :
    (basisOf encrypted).get k = encrypted.get k := by
  have hnodup : integrityKeys.Nodup := by decide
  refine Json.get_ofFields (f := (k, encrypted.get k)) hnodup ?_
  simp only [integrityKeys, List.mem_cons, List.not_mem_nil, or_false] at hk
  rcases hk with rfl | rfl | rfl | rfl | rfl <;> simp

/-- An object that keeps the integrity of a produced one, and decrypts, has the texts of its other
properties. -/
theorem decryptManifestV1_same_basis (hC : P.Codecs) (hT : P.Texts)
    {encrypted produced m m' envelope : Json} {key key' : Bytes} {w w' : String}
    {nonce : RandomBytes 24} (henvelope : envelope.WF) (hwf : encrypted.WF)
    (hproduced : encryptManifestV1 P m key w envelope nonce = .ok produced)
    (hkept : optProp (encrypted.get "integrity") "sha256B64" =
      optProp (produced.get "integrity") "sha256B64")
    (hsha : P.sha256 (P.encodeJsonToBytes (basisOf encrypted)) =
        P.sha256 (P.encodeJsonToBytes (basisOf produced)) →
      P.encodeJsonToBytes (basisOf encrypted) = P.encodeJsonToBytes (basisOf produced))
    (hdecrypt : decryptManifestV1 P encrypted key' w' = .ok m') :
    ∀ k ∈ integrityKeys, encrypted.get k = produced.get k := by
  obtain ⟨-, hintegrity⟩ := decryptManifestV1_decrypts hdecrypt
  obtain ⟨hproducedWf, hvalue⟩ := encryptManifestV1_integrity henvelope hproduced
  rw [hkept, hvalue, Option.getD_some, hT.toJsString_str] at hintegrity
  have htext := hsha (hC.base64_injective hintegrity).symm
  have hbasis := hT.stringify_injective (basisOf_wf hwf) hproducedWf (hC.utf8_injective htext)
  intro k hk
  rw [← basisOf_get encrypted hk, hbasis, basisOf_get produced hk]

/-- Whatever the object, what opens is authentic, and the integrity of a produced object goes with
its other properties only. -/
theorem manifest_authenticity (hC : P.Codecs) (hT : P.Texts) {calls : List EncryptCall}
    (hcalls : ∀ call ∈ calls, call.WF)
    (hideal : P.IdealAfter (MadeBy P calls)) :
    ManifestAuthenticity P calls where
  opened _ _ _ _ _ hwf hunwrap hdecrypt := opened_authentic hC hT hcalls hideal hwf hunwrap hdecrypt
  integrity m key w envelope nonce produced encrypted henvelope hwf hproduced hkept hother hsha := by
    intro key' w'
    cases hdecrypt : decryptManifestV1 P encrypted key' w' with
    | error e => exact ⟨e, rfl⟩
    | ok m' =>
      obtain ⟨k, hk, hne⟩ := hother
      have hsame :=
        decryptManifestV1_same_basis hC hT henvelope hwf hproduced hkept hsha hdecrypt k hk
      exact absurd (congrArg (Option.map P.jsonStringify) hsame) hne

/-! ### Samples -/

/-- An AEAD that has made an encryption only opens it, and only as it was made. -/
theorem after_decrypt (hA : P.IdealAead) {earlier : Platform.Sealed → Prop}
    (hideal : (P.after earlier).IdealAfter earlier) {e : Platform.Sealed} (he : earlier e)
    (hmade : P.aeadEncrypt e.message e.aad e.nonce e.key = .ok e.ciphertext)
    {aad nonce key message : Bytes}
    (h : P.aeadDecrypt e.ciphertext aad nonce key = .ok message) :
    (P.after earlier).aeadDecrypt e.ciphertext aad nonce key = .ok message := by
  obtain ⟨rfl, rfl, rfl, rfl⟩ := hA.injective (hA.encrypted h) hmade
  exact (hideal e).mpr he

theorem unwrapManifestKey_after (hA : P.IdealAead) {earlier : Platform.Sealed → Prop}
    (hideal : (P.after earlier).IdealAfter earlier) {e : Platform.Sealed} (he : earlier e)
    (hmade : P.aeadEncrypt e.message e.aad e.nonce e.key = .ok e.ciphertext) {encrypted : Json}
    {w : String} {sig key : Bytes} (hc : wrapBytes P encrypted "ciphertext" = .ok e.ciphertext)
    (h : unwrapManifestKey P encrypted w sig = .ok key) :
    unwrapManifestKey (P.after earlier) encrypted w sig = .ok key := by
  simp only [unwrapManifestKey, bind_eq_ok, require_eq_ok, rethrow_eq_ok, exists_const, result_pure,
    Except.ok.injEq] at h ⊢
  obtain ⟨env, henv, hversion, hwallet, hlegacy, htpl, salt, hsalt, hne, kek, hkek, hwrap, nonce,
    hnonce, c, hc', key', hdec, hlen, rfl⟩ := h
  obtain rfl : e.ciphertext = c := by
    rw [← optProp_of_prop henv] at hc'
    exact Except.ok.inj (hc.symm.trans hc')
  exact ⟨env, henv, hversion, hwallet, hlegacy, htpl, salt, hsalt, hne, kek, hkek, hwrap, nonce,
    hnonce, _, hc', _, after_decrypt hA hideal he hmade hdec, hlen, rfl⟩

theorem decryptManifestV1_after (hA : P.IdealAead) {earlier : Platform.Sealed → Prop}
    (hideal : (P.after earlier).IdealAfter earlier) {e : Platform.Sealed} (he : earlier e)
    (hmade : P.aeadEncrypt e.message e.aad e.nonce e.key = .ok e.ciphertext) {encrypted m : Json}
    {w : String} {key : Bytes}
    (hc : P.fromBase64 (optProp (encrypted.get "payload") "ciphertextB64") = .ok e.ciphertext)
    (h : decryptManifestV1 P encrypted key w = .ok m) :
    decryptManifestV1 (P.after earlier) encrypted key w = .ok m := by
  simp only [decryptManifestV1, bind_eq_ok, require_eq_ok, rethrow_eq_ok, exists_const, result_pure,
    Except.ok.injEq] at h ⊢
  obtain ⟨hkind, hw, hkey, haad, hgot, header, hheader, nonce, hnonce, payload, hpayload, c, hc', text,
    htext, plaintext, hdec, rest⟩ := h
  obtain rfl : e.ciphertext = c := by
    rw [← optProp_of_prop hpayload] at hc'
    exact Except.ok.inj (hc.symm.trans hc')
  exact ⟨hkind, hw, hkey, haad, hgot, header, hheader, nonce, hnonce, payload, hpayload, _, hc', text,
    htext, plaintext, after_decrypt hA hideal he hmade hdec, rest⟩

/-- Which encryptions are made does not depend on what decrypts. -/
theorem seals_after (call : EncryptCall) (earlier : Platform.Sealed → Prop) (e : Platform.Sealed) :
    call.Seals (P.after earlier) e ↔ call.Seals P e := by
  cases call <;> rfl

theorem madeBy_encrypted {calls : List EncryptCall} (e : Platform.Sealed) (h : MadeBy P calls e) :
    P.aeadEncrypt e.message e.aad e.nonce e.key = .ok e.ciphertext := by
  obtain ⟨call, -, h⟩ := h
  cases call with
  | wrap w kek key salt nonce =>
    obtain ⟨envelope, c, -, hc, rfl⟩ := h
    exact hc
  | manifest m key w envelope nonce =>
    obtain ⟨encrypted, aad, c, -, -, hc, rfl⟩ := h
    exact hc
  | file draws plaintext options =>
    rcases h with ⟨id, json, c, -, hc, rfl⟩ | ⟨id, aad, c, -, hc, rfl⟩
    · exact hc
    · exact hc

/-- An AEAD that is ideal after the calls. -/
theorem after_calls_ideal (hA : P.IdealAead) (calls : List EncryptCall) :
    (P.after (MadeBy P calls)).IdealAfter (MadeBy (P.after (MadeBy P calls)) calls) := by
  have hsame : MadeBy (P.after (MadeBy P calls)) calls = MadeBy P calls :=
    funext fun e => propext (exists_congr fun call => and_congr_right fun _ => seals_after call _ e)
  rw [hsame]
  exact Platform.after_idealAfter hA madeBy_encrypted

/-- A manifest that is sealed by two calls opens where the AEAD is ideal after these. -/
theorem sealed_opens (hP : P.Lawful) (hA : P.IdealAead) {w : String} (hw : isBlank w = false)
    {sig kek key : Bytes} (hkek : deriveVaultRootKekFromSignature P sig = .ok kek)
    (hkey : key.length = 32) {m : Json} (hm : IsManifest w m) (salt : RandomBytes 32)
    (wrapNonce nonce : RandomBytes 24) :
    ∃ envelope encrypted calls, calls = [EncryptCall.wrap w kek key salt.1 wrapNonce,
        .manifest m key w envelope nonce] ∧ envelope.WF ∧ encrypted.WF ∧
      unwrapManifestKey (P.after (MadeBy P calls)) encrypted w sig = .ok key ∧
      decryptManifestV1 (P.after (MadeBy P calls)) encrypted key w = .ok m := by
  obtain ⟨envelope, hbuild, henvwf, hver, hwal, hunwrap⟩ :=
    buildManifestWrapEnvelope_spec hP hw hkek hkey salt wrapNonce
  obtain ⟨encrypted, hencrypt, hwf, henv, hdecrypt⟩ :=
    encryptManifestV1_spec hP hw hm hkey henvwf hver hwal nonce
  refine ⟨envelope, encrypted, _, rfl, henvwf, hwf, ?_⟩
  have hideal : (P.after (MadeBy P [EncryptCall.wrap w kek key salt.1 wrapNonce,
      .manifest m key w envelope nonce])).IdealAfter _ :=
    Platform.after_idealAfter hA madeBy_encrypted
  have hb := hbuild
  simp only [buildManifestWrapEnvelope, bind_eq_ok, require_eq_ok, exists_const, result_pure,
    Except.ok.injEq] at hb
  obtain ⟨-, -, -, -, c, hc, rfl⟩ := hb
  have he := hencrypt
  simp only [encryptManifestV1, bind_eq_ok, require_eq_ok, exists_const, result_pure,
    Except.ok.injEq] at he
  obtain ⟨-, -, -, -, -, -, text, htext, c', hc', rfl⟩ := he
  constructor
  · refine unwrapManifestKey_after hA hideal (e := ⟨kek, wrapNonce.1, _, key, c⟩)
      ⟨_, List.mem_cons_self, _, c, hbuild, hc, rfl⟩ hc ?_ (hunwrap _ henv)
    rw [wrapBytes, henv]
    exact hP.base64 c
  · refine decryptManifestV1_after hA hideal (e := ⟨key, nonce.1, _, P.encodeJsonToBytes m, c'⟩)
      ⟨_, List.mem_cons_of_mem _ List.mem_cons_self, _, text, c', hencrypt,
        canonicalize_of_ok htext, hc', rfl⟩ hc' ?_ hdecrypt
    exact hP.base64 c'

/-- A manifest with no entries, sealed by two calls on a platform with an AEAD that is ideal after
them: it opens, and only what is authentic does. -/
theorem manifest_authenticity_sample : ∃ (P : Platform) (calls : List EncryptCall)
    (encrypted m : Json) (sig key : Bytes), ManifestAuthenticity P calls ∧ encrypted.WF ∧
      unwrapManifestKey P encrypted "Wa11etM" sig = .ok key ∧
      decryptManifestV1 P encrypted key "Wa11etM" = .ok m := by
  have hm : IsManifest "Wa11etM" (.obj [("version", .num 1), ("walletPubKey", .str "Wa11etM")]) := by
    refine ⟨.obj (show Json.OwnKeys ["version", "walletPubKey"] by decide) ?_, rfl, rfl⟩
    simp only [List.mem_cons, List.not_mem_nil, or_false, forall_eq_or_imp, forall_eq]
    exact ⟨.num _, .str _⟩
  obtain ⟨kek, hkek, -⟩ := deriveKekFromSignature_ok symbolic_lawful [] none
  obtain ⟨envelope, encrypted, calls, hcalls, henvelope, hwf, hunwrap, hdecrypt⟩ :=
    sealed_opens symbolic_lawful symbolic_idealAead (by decide) hkek (RandomBytes.zeros 32).2 hm
      (.zeros 32) (.zeros 24) (.zeros 24)
  refine ⟨_, calls, encrypted, _, _, _, manifest_authenticity (symbolic_codecs.after _)
    (symbolic_texts.after _) ?_ (after_calls_ideal symbolic_idealAead calls), hwf, hunwrap, hdecrypt⟩
  rw [hcalls]
  simp only [List.mem_cons, List.not_mem_nil, or_false, forall_eq_or_imp, forall_eq]
  exact ⟨trivial, hm.wf, henvelope⟩

end SovereignJedi.Manifest
