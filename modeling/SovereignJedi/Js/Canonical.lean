import SovereignJedi.Js.Symbolic

/-! Assumptions on ideal cryptography: canonical JSON texts that are alike only for the same data,
and an AEAD under which exactly the ciphertexts of earlier encryptions decrypt. -/

namespace SovereignJedi.Js

namespace Json

/-- Two values are the same data: objects may list their properties in another order. -/
inductive Same : Json → Json → Prop
  | null : Same .null .null
  | bool (b : Bool) : Same (.bool b) (.bool b)
  | num (q : ℚ) : Same (.num q) (.num q)
  | str (s : String) : Same (.str s) (.str s)
  | arr {xs ys : List Json} (h : List.Forall₂ Same xs ys) : Same (.arr xs) (.arr ys)
  | obj {fs gs : List (String × Json)}
      (hkeys : ∀ k, (field k fs).isSome = (field k gs).isSome)
      (h : ∀ k v w, field k fs = some v → field k gs = some w → Same v w) : Same (.obj fs) (.obj gs)

mutual

theorem Same.refl : ∀ j : Json, Same j j
  | .null => .null
  | .bool b => .bool b
  | .num q => .num q
  | .str s => .str s
  | .arr xs => .arr (same_items xs)
  | .obj fs => .obj (fun _ => rfl) fun k v w hv hw => by
    obtain rfl := Option.some.inj (hv.symm.trans hw)
    exact same_fields fs (k, v) (mem_of_field hv)

theorem same_items : ∀ xs : List Json, List.Forall₂ Same xs xs
  | [] => .nil
  | x :: xs => .cons (Same.refl x) (same_items xs)

theorem same_fields : ∀ (fs : List (String × Json)), ∀ f ∈ fs, Same f.2 f.2
  | (k, x) :: fs, f, hf => by
    rcases List.mem_cons.mp hf with rfl | hf
    · exact Same.refl x
    · exact same_fields fs f hf

end

/-- A value that is not an array or object is the same as itself only. -/
def IsLeaf : Json → Prop
  | .arr _ => False
  | .obj _ => False
  | _ => True

theorem Same.eq_of_leaf {j k : Json} (h : Same j k) (hk : k.IsLeaf) : j = k := by
  cases h with
  | arr h => exact hk.elim
  | obj hkeys h => exact hk.elim
  | _ => rfl

theorem Same.field_eq {fs gs : List (String × Json)} (h : Same (.obj fs) (.obj gs)) {k : String}
    {v w : Json} (hv : field k fs = some v) (hw : field k gs = some w) (hleaf : w.IsLeaf) : v = w := by
  cases h with
  | obj hkeys h => exact (h k v w hv hw).eq_of_leaf hleaf

theorem Same.isSome_get {j k : Json} (h : j.Same k) (key : String) :
    (j.get key).isSome = (k.get key).isSome := by
  cases h with
  | obj hkeys h => exact hkeys key
  | _ => rfl

theorem Same.get_eq {j k v w : Json} (h : j.Same k) {key : String} (hv : j.get key = some v)
    (hw : k.get key = some w) (hleaf : w.IsLeaf) : v = w := by
  obtain ⟨fs, rfl⟩ := exists_obj_of_get hv
  obtain ⟨gs, rfl⟩ := exists_obj_of_get hw
  exact h.field_eq hv hw hleaf

end Json

namespace Platform

/-- The round trips of texts and bytes, and canonical texts. -/
structure Codecs (P : Platform) : Prop where
  utf8 : ∀ s, P.utf8Decode (P.utf8Encode s) = s
  base64 : ∀ b, P.fromBase64 (some (.str (P.toBase64 b))) = .ok b
  base64_ne : ∀ {b : Bytes}, b ≠ [] → P.toBase64 b ≠ ""
  canonicalize_same : ∀ {j k : Json} {s : String}, j.WF → k.WF → P.canonicalize j = some s →
    P.canonicalize k = some s → j.Same k

/-- `JSON.parse` inverts `JSON.stringify`, and reads a canonical text as the same data. -/
structure Texts (P : Platform) : Prop where
  parse_stringify : ∀ {j : Json}, j.WF → P.jsonParse (P.jsonStringify j) = .ok j
  parse_canonicalize : ∀ {j : Json} {s : String}, j.WF → P.canonicalize j = some s →
    ∃ k, P.jsonParse s = .ok k ∧ j.Same k
  toJsString_str : ∀ s, P.toJsString (.str s) = s

/-- An AEAD encryption. -/
structure Sealed where
  key : Bytes
  nonce : Bytes
  aad : Bytes
  message : Bytes
  ciphertext : Bytes

/-- What decrypts is what has been encrypted earlier. -/
def IdealAfter (P : Platform) (earlier : Sealed → Prop) : Prop :=
  ∀ e : Sealed, P.aeadDecrypt e.ciphertext e.aad e.nonce e.key = .ok e.message ↔ earlier e

variable {P : Platform}

theorem Codecs.utf8_injective (h : P.Codecs) {s t : String} (hst : P.utf8Encode s = P.utf8Encode t) :
    s = t := by
  rw [← h.utf8 s, hst, h.utf8]

theorem Codecs.base64_injective (h : P.Codecs) {b c : Bytes} (hbc : P.toBase64 b = P.toBase64 c) :
    b = c := by
  have hb := h.base64 b
  rw [hbc, h.base64] at hb
  exact (Except.ok.inj hb).symm

theorem Texts.stringify_injective (h : P.Texts) {j k : Json} (hj : j.WF) (hk : k.WF)
    (hjk : P.jsonStringify j = P.jsonStringify k) : j = k := by
  have hparse := h.parse_stringify hj
  rw [hjk, h.parse_stringify hk] at hparse
  exact (Except.ok.inj hparse).symm

/-- A canonical text is the text of the same data only. -/
theorem Texts.same_of_canonicalize (h : P.Texts) {j k : Json} (hj : j.WF) (hk : k.WF)
    (hjk : P.canonicalize j = some (P.jsonStringify k)) : j.Same k := by
  obtain ⟨k', hparse, hsame⟩ := h.parse_canonicalize hj hjk
  rw [h.parse_stringify hk] at hparse
  exact Except.ok.inj hparse ▸ hsame

open Classical in
/-- `P` with an AEAD that decrypts what has been encrypted earlier only. -/
noncomputable def after (P : Platform) (earlier : Sealed → Prop) : Platform :=
  { P with
    aeadDecrypt := fun ciphertext aad nonce key =>
      if h : ∃ message, earlier ⟨key, nonce, aad, message, ciphertext⟩ then .ok h.choose
      else .error (.error "wrong secret key for the given ciphertext") }

open Classical in
theorem after_idealAfter (hP : P.IdealAead) {earlier : Sealed → Prop}
    (hearlier : ∀ e, earlier e → P.aeadEncrypt e.message e.aad e.nonce e.key = .ok e.ciphertext) :
    (P.after earlier).IdealAfter earlier := by
  intro e
  change (if h : ∃ m, earlier ⟨e.key, e.nonce, e.aad, m, e.ciphertext⟩ then _ else _) = _ ↔ _
  split
  · rename_i h
    have hmessage : ∀ m, earlier ⟨e.key, e.nonce, e.aad, m, e.ciphertext⟩ → h.choose = m := by
      intro m hm
      have hchosen := hearlier _ h.choose_spec
      have hgiven := hearlier _ hm
      exact (hP.injective hchosen hgiven).1
    rw [Except.ok.injEq]
    constructor
    · intro hm
      have he := h.choose_spec
      rw [hm] at he
      exact he
    · exact hmessage e.message
  · rename_i h
    exact ⟨nofun, fun he => absurd ⟨e.message, he⟩ h⟩

theorem Codecs.after (h : P.Codecs) (earlier : Sealed → Prop) : (P.after earlier).Codecs :=
  ⟨h.utf8, h.base64, h.base64_ne, h.canonicalize_same⟩

theorem Texts.after (h : P.Texts) (earlier : Sealed → Prop) : (P.after earlier).Texts :=
  ⟨h.parse_stringify, h.parse_canonicalize, h.toJsString_str⟩

end Platform

theorem symbolic_texts : symbolic.Texts where
  parse_stringify := symbolic_lawful.parse_stringify
  parse_canonicalize {j s} hj hs := by
    obtain rfl := Option.some.inj hs
    exact ⟨j, symbolic_lawful.parse_stringify hj, .refl j⟩
  toJsString_str := symbolic_lawful.toJsString_str

theorem symbolic_codecs : symbolic.Codecs where
  utf8 := symbolic_lawful.utf8
  base64 := symbolic_lawful.base64
  base64_ne := symbolic_lawful.base64_ne
  canonicalize_same {j k s} _ _ hj hk := by
    obtain rfl := Symbolic.jsonStringify_injective (Option.some.inj (hj.trans hk.symm))
    exact .refl j

end SovereignJedi.Js
