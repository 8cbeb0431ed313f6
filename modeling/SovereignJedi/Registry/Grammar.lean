import SovereignJedi.Manifest.PointerMap
import SovereignJedi.Registry.Head
import SovereignJedi.Registry.Publish

/-! The languages that the program accepts: CIDs, which the pointer of a client keeps as they are,
and vault ids. -/

namespace SovereignJedi.Registry

open SovereignJedi.Js (UnicodeData isSpace JsError)
open SovereignJedi.Js.UnicodeData
open SovereignJedi.Manifest (LocalStorage setItem scopedKey canonicalizeWalletPubKey
  setManifestCid getManifestCid setManifestCid_canonical getManifestCid_canonical found cidFound)

/-! ### CIDs -/

/-- Version 1 in base 32, or version 0 in base58btc. -/
def IsCid (cid : String) : Prop :=
  (∃ cs, cid.toList = 'b' :: cs ∧ ∀ c ∈ cs, ('a' ≤ c ∧ c ≤ 'z') ∨ ('2' ≤ c ∧ c ≤ '7')) ∨
    ∃ cs, cid.toList = 'Q' :: 'm' :: cs ∧ ∀ c ∈ cs, c ∈ base58Chars

theorem isBase32Char_iff {c : Char} :
    isBase32Char c = true ↔ ('a' ≤ c ∧ c ≤ 'z') ∨ ('2' ≤ c ∧ c ≤ '7') := by
  simp [isBase32Char, isAsciiLowercase]

theorem base58_Qm {cs : List Char} :
    ('Q' :: 'm' :: cs).all base58Chars.contains = true ↔ ∀ c ∈ cs, c ∈ base58Chars := by
  have hQ : base58Chars.contains 'Q' = true := by decide
  have hm : base58Chars.contains 'm' = true := by decide
  simp only [List.all_cons, hQ, hm, Bool.true_and, List.all_eq_true, List.contains_iff_mem]

theorem not_isCid_of_empty {cid : String} (h : cid.isEmpty = true) : ¬IsCid cid := by
  rw [String.isEmpty_iff] at h
  subst h
  rintro (⟨cs, hcs, -⟩ | ⟨cs, hcs, -⟩) <;> simp at hcs

/-- The checks after that of the length. -/
theorem validateCidStrict_short {cid : String} (h : cid.utf8ByteSize ≤ maxCidLen) :
    (IsCid cid → validateCidStrict cid = .ok ()) ∧
      (¬IsCid cid → validateCidStrict cid = .error .invalidCidFormat) := by
  have hlen : require (decide (cid.utf8ByteSize ≤ maxCidLen)) .cidTooLong = .ok () :=
    require_eq_ok.mpr (decide_eq_true h)
  have hcheck : ∀ {b : Bool} {p : Prop}, (b = true ↔ p) →
      (p → require b ErrorCode.invalidCidFormat = .ok ()) ∧
        (¬p → require b ErrorCode.invalidCidFormat = .error .invalidCidFormat) := by
    intro b p hb
    cases b <;> simp [require, ← hb]
  rw [validateCidStrict, hlen]
  cases hempty : cid.isEmpty with
  | true => exact ⟨fun hcid => absurd hcid (not_isCid_of_empty hempty), fun _ => rfl⟩
  | false =>
    simp only [Bool.not_false, require, if_true, bind, Except.bind] at hcheck ⊢
    split
    · next cs hcs =>
      refine hcheck ?_
      simp only [IsCid, hcs, List.all_eq_true, isBase32Char_iff]
      simp
    · next cs hcs =>
      refine hcheck ?_
      rw [hcs, base58_Qm]
      simp [IsCid, hcs]
    · next hb hQm =>
      refine ⟨fun hcid => ?_, fun _ => rfl⟩
      rcases hcid with ⟨cs, hcs, -⟩ | ⟨cs, hcs, -⟩
      · exact absurd hcs (hb cs)
      · exact absurd hcs (hQm cs)

theorem validateCidStrict_long {cid : String} (h : maxCidLen < cid.utf8ByteSize) :
    validateCidStrict cid = .error .cidTooLong := by
  rw [validateCidStrict, require, decide_eq_false (Nat.not_le.mpr h)]
  rfl

theorem validateCidStrict_cases (cid : String) :
    (cid.utf8ByteSize ≤ 64 ∧ IsCid cid ∧ validateCidStrict cid = .ok ()) ∨
      (cid.utf8ByteSize ≤ 64 ∧ ¬IsCid cid ∧ validateCidStrict cid = .error .invalidCidFormat) ∨
      (64 < cid.utf8ByteSize ∧ validateCidStrict cid = .error .cidTooLong) := by
  by_cases hlen : cid.utf8ByteSize ≤ maxCidLen
  · obtain ⟨hyes, hno⟩ := validateCidStrict_short hlen
    by_cases hcid : IsCid cid
    · exact Or.inl ⟨hlen, hcid, hyes hcid⟩
    · exact Or.inr (Or.inl ⟨hlen, hcid, hno hcid⟩)
  · exact Or.inr (Or.inr ⟨Nat.not_le.mp hlen, validateCidStrict_long (Nat.not_le.mp hlen)⟩)

/-- A trimmed CID that is set for a wallet is read back. -/
theorem getManifestCid_set {cluster : Option String} {w pk cid : String} {s : LocalStorage}
    (hw : canonicalizeWalletPubKey w = .ok pk) (htrim : Js.trim cid = cid) (hne : cid ≠ "") :
    getManifestCid cluster w (setItem s (scopedKey cluster pk) cid) =
      .ok (setItem s (scopedKey cluster pk) cid, some cid) := by
  rw [getManifestCid_canonical hw]
  simp [Manifest.migrate, found, cidFound, setItem, htrim, hne]

/-- The accepted CIDs are those of the grammar with at most 64 bytes, longer strings and all others
have their errors, and an accepted CID is read back as it was set, for any wallet and storage. -/
theorem validateCidStrict_grammar (cid : String) :
    (validateCidStrict cid = .ok () ↔ cid.utf8ByteSize ≤ 64 ∧ IsCid cid) ∧
    (validateCidStrict cid = .error .cidTooLong ↔ 64 < cid.utf8ByteSize) ∧
    (validateCidStrict cid = .error .invalidCidFormat ↔ cid.utf8ByteSize ≤ 64 ∧ ¬IsCid cid) ∧
    (validateCidStrict cid = .ok () →
      ∀ cluster w pk (s : LocalStorage), canonicalizeWalletPubKey w = .ok pk →
        setManifestCid cluster w cid s = .ok (setItem s (scopedKey cluster pk) cid) ∧
        getManifestCid cluster w (setItem s (scopedKey cluster pk) cid) =
          .ok (setItem s (scopedKey cluster pk) cid, some cid)) := by
  refine ⟨?_, ?_, ?_, fun hok cluster w pk s hw => ?_⟩
  · rcases validateCidStrict_cases cid with ⟨hlen, hcid, h⟩ | ⟨hlen, hcid, h⟩ | ⟨hlen, h⟩
    · simp [h, hlen, hcid]
    · simp [h, hcid]
    · simp [h, Nat.not_le.mpr hlen]
  · rcases validateCidStrict_cases cid with ⟨hlen, hcid, h⟩ | ⟨hlen, hcid, h⟩ | ⟨hlen, h⟩
    · simp [h, hlen]
    · simp [h, hlen]
    · simp [h, hlen]
  · rcases validateCidStrict_cases cid with ⟨hlen, hcid, h⟩ | ⟨hlen, hcid, h⟩ | ⟨hlen, h⟩
    · simp [h, hcid]
    · simp [h, hlen, hcid]
    · simp [h, Nat.not_le.mpr hlen]
  · obtain ⟨hne, hchars⟩ := validateCidStrict_chars hok
    have htrim := Js.trim_of_no_space hchars
    have hset : setManifestCid cluster w cid s =
        .ok (setItem s (scopedKey cluster pk) (Js.trim cid)) :=
      setManifestCid_canonical hw (by rwa [htrim])
    rw [htrim] at hset
    exact ⟨hset, getManifestCid_set hw htrim hne⟩

/-! ### Vault ids -/

/-- `s` with `k` for the Kelvin sign. -/
def withoutKelvin (s : String) : String :=
  .ofList (s.toList.map fun c => if c = kelvinSign then 'k' else c)

/-- A vault id is taken as it is, and any other string is rejected. -/
structure FollowsGrammar (U : UnicodeData) (id : String) : Prop where
  accepts : IsVaultId id → validateAndCanonicalizeVaultId U.toLowercase id = .ok id
  rejects : ¬IsVaultId id →
    validateAndCanonicalizeVaultId U.toLowercase id = .error .invalidVaultIdFormat

/-- `id` is no vault id, but what is left of it when white space around it is removed, none of which
is U+0020, and each Kelvin sign is read as `k`, is one. -/
structure Misread (id : String) : Prop where
  noSpace : ' ' ∉ id.toList
  inner : IsVaultId (withoutKelvin (trim id))
  differs : withoutKelvin (trim id) ≠ id

variable {U : UnicodeData} {id id' : String}

theorem validateAndCanonicalizeVaultId_eq_error {lower : String → String} {e : ErrorCode}
    (h : validateAndCanonicalizeVaultId lower id = .error e) : e = .invalidVaultIdFormat := by
  have hrequire : ∀ {α : Type} {b : Bool} {f : Except ErrorCode α},
      (require b .invalidVaultIdFormat >>= fun _ => f) = .error e →
        e = .invalidVaultIdFormat ∨ f = .error e := by
    intro α b f hb
    cases b with
    | true => exact Or.inr hb
    | false => exact Or.inl (Except.error.inj hb).symm
  rw [validateAndCanonicalizeVaultId] at h
  rcases hrequire h with rfl | h
  · rfl
  · rcases hrequire h with rfl | h
    · rfl
    · rcases hrequire h with rfl | h
      · rfl
      · cases h

theorem toLower_of_not_upper {c : Char} (h : isAsciiUppercase c = false) : c.toLower = c := by
  refine dif_neg ?_
  rintro ⟨hge, hle⟩
  rw [isAsciiUppercase, Bool.and_eq_false_iff, decide_eq_false_iff_not,
    decide_eq_false_iff_not] at h
  rcases h with h | h
  · exact h hge
  · exact h hle

/-- The characters that are left by trimming are not white space at the ends only. -/
theorem mem_trim_or_isWhitespace {c : Char} (h : c ∈ id.toList) :
    c ∈ (trim id).toList ∨ isWhitespace c = true := by
  cases hc : isWhitespace c with
  | true => exact Or.inr rfl
  | false =>
    rw [trim_eq_trimBy, String.toList_ofList]
    exact Or.inl (Js.mem_trimBy h hc)

theorem isAsciiUppercase_iff {c : Char} :
    isAsciiUppercase c = true ↔ 65 ≤ c.toNat ∧ c.toNat ≤ 90 := by
  rw [isAsciiUppercase, Bool.and_eq_true, decide_eq_true_eq, decide_eq_true_eq]
  exact Iff.rfl

theorem not_upper_of_isWhitespace {c : Char} (h : isWhitespace c = true) :
    isAsciiUppercase c = false := by
  rw [← Bool.not_eq_true, isAsciiUppercase_iff]
  simp only [isWhitespace, Bool.or_eq_true, Bool.and_eq_true, decide_eq_true_eq, beq_iff_eq] at h
  omega

theorem not_upper_of_isVaultIdChar {c : Char} (h : isVaultIdChar c = true) :
    isAsciiUppercase c = false := by
  rw [← Bool.not_eq_true, isAsciiUppercase_iff]
  have := isVaultIdChar_cases h
  omega

/-- Lower-casing changes nothing but Kelvin signs where no ASCII letter is upper case. -/
theorem toLowercase_eq_withoutKelvin (hU : U.Standard) (hK : U.KelvinOnly) {s : String}
    (hascii : ∀ c ∈ s.toList, c.toNat < 128 ∨ c = kelvinSign)
    (hupper : ∀ c ∈ s.toList, isAsciiUppercase c = false) :
    U.toLowercase s = withoutKelvin s := by
  rw [UnicodeData.toLowercase, lowercaseAfter_eq_map hU hK hascii, withoutKelvin]
  congr 1
  refine List.map_congr_left fun c hc => ?_
  rw [lowerAscii, toLower_of_not_upper (hupper c hc)]

/-- The characters of a string that is a vault id once Kelvin signs are read as `k`. -/
theorem char_of_withoutKelvin {s : String} (h : IsVaultId (withoutKelvin s)) {c : Char}
    (hc : c ∈ s.toList) : c = kelvinSign ∨ isVaultIdChar c = true := by
  by_cases hkelvin : c = kelvinSign
  · exact Or.inl hkelvin
  · refine Or.inr (h.chars c ?_)
    rw [withoutKelvin, String.toList_ofList]
    exact List.mem_map.mpr ⟨c, hc, if_neg hkelvin⟩

/-- What the program accepts, and as what. -/
theorem validateAndCanonicalizeVaultId_iff (hU : U.Standard) (hK : U.KelvinOnly) :
    validateAndCanonicalizeVaultId U.toLowercase id = .ok id' ↔
      ' ' ∉ id.toList ∧ IsVaultId (withoutKelvin (trim id)) ∧ id' = withoutKelvin (trim id) := by
  constructor
  · intro h
    have hid' := validateAndCanonicalizeVaultId_isVaultId h
    simp only [validateAndCanonicalizeVaultId, except_bind_eq_ok, require_eq_ok, exists_const,
      except_pure_eq_ok, Bool.not_eq_true', Bool.or_eq_false_iff, List.any_eq_false,
      Bool.not_eq_true] at h
    obtain ⟨-, -, ⟨hspace, hupper⟩, hlower⟩ := h
    have hspace : ' ' ∉ id.toList := by
      rw [← List.contains_iff_mem, hspace]
      simp
    have hsub : ∀ c ∈ (trim id).toList, c ∈ id.toList := by
      intro c hc
      rw [trim_eq_trimBy, String.toList_ofList] at hc
      exact Js.trimBy_subset hc
    have hascii : ∀ c ∈ (trim id).toList, c.toNat < 128 ∨ c = kelvinSign := by
      have hbefore : ∀ d ∈ U.lowercaseAfter [] (trim id).toList, d.toNat < 128 := by
        intro d hd
        refine hid'.ascii ?_
        rw [← hlower, UnicodeData.toLowercase, String.toList_ofList]
        exact hd
      exact ascii_of_lowercaseAfter hK hbefore
    have heq : id' = withoutKelvin (trim id) := by
      rw [← hlower]
      exact toLowercase_eq_withoutKelvin hU hK hascii fun c hc => hupper c (hsub c hc)
    exact ⟨hspace, heq ▸ hid', heq⟩
  · rintro ⟨hspace, hinner, rfl⟩
    have hchar := fun c (hc : c ∈ (trim id).toList) => char_of_withoutKelvin hinner hc
    have hupper : ∀ c ∈ id.toList, isAsciiUppercase c = false := by
      intro c hc
      rcases mem_trim_or_isWhitespace hc with htrim | hwhite
      · rcases hchar c htrim with rfl | hvault
        · decide
        · exact not_upper_of_isVaultIdChar hvault
      · exact not_upper_of_isWhitespace hwhite
    have hsub : ∀ c ∈ (trim id).toList, isAsciiUppercase c = false := by
      intro c hc
      rcases hchar c hc with rfl | hvault
      · decide
      · exact not_upper_of_isVaultIdChar hvault
    have hlower : U.toLowercase (trim id) = withoutKelvin (trim id) := by
      refine toLowercase_eq_withoutKelvin hU hK (fun c hc => ?_) hsub
      rcases hchar c hc with rfl | hvault
      · exact Or.inr rfl
      · have := isVaultIdChar_cases hvault
        omega
    have hchars := List.all_eq_true.mpr hinner.chars
    have hnoSpace : id.toList.contains ' ' = false := by
      rw [← Bool.not_eq_true, List.contains_iff_mem]
      exact hspace
    have hnoUpper : id.toList.any isAsciiUppercase = false := by
      simpa using hupper
    simp only [validateAndCanonicalizeVaultId, hlower, hinner.isEmpty_eq, hinner.utf8ByteSize_le,
      hchars, hnoSpace, hnoUpper, except_bind_eq_ok, require_eq_ok, exists_const, except_pure_eq_ok]
    simp

/-- The program follows the grammar of vault ids exactly on the strings that it does not misread. -/
theorem followsGrammar_iff (hU : U.Standard) (hK : U.KelvinOnly) (id : String) :
    FollowsGrammar U id ↔ ¬Misread id := by
  constructor
  · intro h hmis
    have hok := (validateAndCanonicalizeVaultId_iff hU hK).mpr ⟨hmis.noSpace, hmis.inner, rfl⟩
    by_cases hid : IsVaultId id
    · exact hmis.differs (Except.ok.inj (hok.symm.trans (h.accepts hid)))
    · rw [h.rejects hid] at hok
      cases hok
  · refine fun hmis => ⟨fun hid => hid.validate hU, fun hid => ?_⟩
    cases hv : validateAndCanonicalizeVaultId U.toLowercase id with
    | error e => rw [validateAndCanonicalizeVaultId_eq_error hv]
    | ok id' =>
      obtain ⟨hspace, hinner, -⟩ := (validateAndCanonicalizeVaultId_iff hU hK).mp hv
      refine absurd ⟨hspace, hinner, fun hsame => hid ?_⟩ hmis
      rwa [hsame] at hinner

theorem isVaultId_of_all {id : String} (hchars : id.toList.all isVaultIdChar = true)
    (hne : 1 ≤ id.toList.length) (hlen : id.toList.length ≤ maxVaultIdLen) : IsVaultId id :=
  ⟨List.all_eq_true.mp hchars, hne, hlen⟩

theorem followsGrammar_iff_sample : ¬FollowsGrammar latinKelvin "\tk" := fun h =>
  (followsGrammar_iff latinKelvin_standard latinKelvin_kelvinOnly "\tk").mp h
    ⟨by decide, isVaultId_of_all (by decide) (by decide) (by decide), by decide⟩

/-- A tab at the front and a Kelvin sign are accepted. -/
theorem not_followsGrammar :
    (validateAndCanonicalizeVaultId latinKelvin.toLowercase "\tk" = .ok "k" ∧
      ¬FollowsGrammar latinKelvin "\tk") ∧
    validateAndCanonicalizeVaultId latinKelvin.toLowercase (.singleton kelvinSign) = .ok "k" ∧
      ¬FollowsGrammar latinKelvin (.singleton kelvinSign) := by
  have haccepted : ∀ {id : String}, id.toList.all isVaultIdChar = false →
      validateAndCanonicalizeVaultId latinKelvin.toLowercase id = .ok "k" →
        ¬FollowsGrammar latinKelvin id := by
    intro id hid hok h
    have hnot : ¬IsVaultId id := fun h => by simp [List.all_eq_true.mpr h.chars] at hid
    rw [h.rejects hnot] at hok
    cases hok
  exact ⟨⟨by decide, haccepted (by decide) (by decide)⟩, by decide,
    haccepted (by decide) (by decide)⟩

end SovereignJedi.Registry
