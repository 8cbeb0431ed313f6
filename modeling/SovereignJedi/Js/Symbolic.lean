import SovereignJedi.Js.Platform

/-! A concrete platform on which the documented properties hold: JSON in a prefix-free notation,
real UTF-8, one character for each byte in place of base 64, and an ideal AEAD whose ciphertexts
spell out the key, nonce and associated data in front of the message. It shows that results that
assume these properties are about something, and carries their instances. -/

namespace SovereignJedi.Js.Symbolic

open SovereignJedi.Js

/-! ### JSON text -/

def natText (n : Nat) : List Char := List.replicate n 'i' ++ ['.']

def intText : Int → List Char
  | .ofNat n => '+' :: natText n
  | .negSucc n => '-' :: natText n

def stringText (s : String) : List Char := natText s.toList.length ++ s.toList

mutual

def jsonText : Json → List Char
  | .null => ['n']
  | .bool true => ['t']
  | .bool false => ['f']
  | .num q => 'd' :: (intText q.num ++ natText q.den)
  | .str s => '"' :: stringText s
  | .arr xs => '[' :: itemsText xs
  | .obj fs => '{' :: fieldsText fs

def itemsText : List Json → List Char
  | [] => [']']
  | x :: xs => ',' :: (jsonText x ++ itemsText xs)

def fieldsText : List (String × Json) → List Char
  | [] => ['}']
  | (k, x) :: fs => ',' :: (stringText k ++ (jsonText x ++ fieldsText fs))

end

theorem natText_split {n m : Nat} {r r' : List Char} (h : natText n ++ r = natText m ++ r') :
    n = m ∧ r = r' := by
  induction n generalizing m with
  | zero =>
    cases m with
    | zero => simpa [natText] using h
    | succ m => simp [natText, List.replicate_succ] at h
  | succ n ih =>
    cases m with
    | zero => simp [natText, List.replicate_succ] at h
    | succ m =>
      have h' : natText n ++ r = natText m ++ r' := by
        simpa [natText, List.replicate_succ] using h
      obtain ⟨rfl, hr⟩ := ih h'
      exact ⟨rfl, hr⟩

theorem intText_split {n m : Int} {r r' : List Char} (h : intText n ++ r = intText m ++ r') :
    n = m ∧ r = r' := by
  cases n <;> cases m <;> simp only [intText, List.cons_append, List.cons.injEq] at h
  · obtain ⟨rfl, hr⟩ := natText_split h.2
    exact ⟨rfl, hr⟩
  · exact absurd h.1 (by decide)
  · exact absurd h.1 (by decide)
  · obtain ⟨rfl, hr⟩ := natText_split h.2
    exact ⟨rfl, hr⟩

theorem stringText_split {s t : String} {r r' : List Char}
    (h : stringText s ++ r = stringText t ++ r') : s = t ∧ r = r' := by
  simp only [stringText, List.append_assoc] at h
  obtain ⟨hlen, h⟩ := natText_split h
  obtain ⟨hst, hr⟩ := List.append_inj h hlen
  exact ⟨String.toList_inj.mp hst, hr⟩

mutual

/-- A text is the beginning of at most one value's text. -/
theorem jsonText_split : ∀ (j k : Json) {r r' : List Char}, jsonText j ++ r = jsonText k ++ r' →
    j = k ∧ r = r'
  | .null, k, r, r', h => by
    cases k with
    | bool b => cases b <;> simp [jsonText] at h
    | _ => simp_all [jsonText]
  | .bool b, k, r, r', h => by
    cases b <;> cases k with
    | bool c => cases c <;> simp_all [jsonText]
    | _ => simp [jsonText] at h
  | .num q, k, r, r', h => by
    cases k with
    | num q' =>
      simp only [jsonText, List.cons_append, List.append_assoc, List.cons.injEq, true_and] at h
      obtain ⟨hnum, h⟩ := intText_split h
      obtain ⟨hden, hr⟩ := natText_split h
      exact ⟨congrArg _ (Rat.ext hnum hden), hr⟩
    | bool c => cases c <;> simp [jsonText] at h
    | _ => simp [jsonText] at h
  | .str s, k, r, r', h => by
    cases k with
    | str t =>
      simp only [jsonText, List.cons_append, List.cons.injEq, true_and] at h
      obtain ⟨rfl, hr⟩ := stringText_split h
      exact ⟨rfl, hr⟩
    | bool c => cases c <;> simp [jsonText] at h
    | _ => simp [jsonText] at h
  | .arr xs, k, r, r', h => by
    cases k with
    | arr ys =>
      simp only [jsonText, List.cons_append, List.cons.injEq, true_and] at h
      obtain ⟨rfl, hr⟩ := itemsText_split xs ys h
      exact ⟨rfl, hr⟩
    | bool c => cases c <;> simp [jsonText] at h
    | _ => simp [jsonText] at h
  | .obj fs, k, r, r', h => by
    cases k with
    | obj gs =>
      simp only [jsonText, List.cons_append, List.cons.injEq, true_and] at h
      obtain ⟨rfl, hr⟩ := fieldsText_split fs gs h
      exact ⟨rfl, hr⟩
    | bool c => cases c <;> simp [jsonText] at h
    | _ => simp [jsonText] at h

theorem itemsText_split : ∀ (xs ys : List Json) {r r' : List Char},
    itemsText xs ++ r = itemsText ys ++ r' → xs = ys ∧ r = r'
  | [], ys, r, r', h => by
    cases ys <;> simp_all [itemsText]
  | x :: xs, ys, r, r', h => by
    cases ys with
    | nil => simp [itemsText] at h
    | cons y ys =>
      simp only [itemsText, List.cons_append, List.append_assoc, List.cons.injEq, true_and] at h
      obtain ⟨rfl, hxs⟩ := jsonText_split x y h
      obtain ⟨rfl, hr⟩ := itemsText_split xs ys hxs
      exact ⟨rfl, hr⟩

theorem fieldsText_split : ∀ (fs gs : List (String × Json)) {r r' : List Char},
    fieldsText fs ++ r = fieldsText gs ++ r' → fs = gs ∧ r = r'
  | [], gs, r, r', h => by
    cases gs <;> simp_all [fieldsText]
  | (k, x) :: fs, gs, r, r', h => by
    cases gs with
    | nil => simp [fieldsText] at h
    | cons g gs =>
      obtain ⟨l, y⟩ := g
      simp only [fieldsText, List.cons_append, List.append_assoc, List.cons.injEq, true_and] at h
      obtain ⟨rfl, hx⟩ := stringText_split h
      obtain ⟨rfl, hfs⟩ := jsonText_split x y hx
      obtain ⟨rfl, hr⟩ := fieldsText_split fs gs hfs
      exact ⟨rfl, hr⟩

end

def jsonStringify (j : Json) : String := .ofList (jsonText j)

theorem jsonStringify_injective {j k : Json} (h : jsonStringify j = jsonStringify k) : j = k := by
  have hlist : jsonText j ++ [] = jsonText k ++ [] := by
    simpa [jsonStringify] using congrArg String.toList h
  exact (jsonText_split j k hlist).1

theorem jsonStringify_ne_empty (j : Json) : jsonStringify j ≠ "" := by
  intro h
  have hlist : jsonText j = [] := by simpa [jsonStringify] using congrArg String.toList h
  unfold jsonText at hlist
  split at hlist <;> simp at hlist

open Classical in
/-- Reads the text of a value back. -/
noncomputable def jsonParse (s : String) : Result Json :=
  if h : ∃ j : Json, j.WF ∧ jsonStringify j = s then .ok h.choose
  else .error (.error "SyntaxError")

/-! ### Bytes -/

def utf8Encode (s : String) : Bytes := s.toByteArray.data.toList

def utf8Decode (b : Bytes) : String := (String.fromUTF8? ⟨b.toArray⟩).getD ""

/-- The character that stands for a byte: no white space, and no two alike. -/
def byteChar (b : UInt8) : Char := Char.ofNat (0x100 + b.toNat)

def charByte (c : Char) : UInt8 := UInt8.ofNat (c.toNat - 0x100)

def toBase64 (b : Bytes) : String := .ofList (b.map byteChar)

def fromBase64 : Value → Result Bytes
  | some (.str s) => .ok (s.toList.map charByte)
  | _ => .error (.typeError "not a string")

def sha256 (b : Bytes) : Bytes := (b ++ List.replicate 32 0).take 32

def hmacSha256 (key data : Bytes) : Bytes := sha256 (data ++ key)

/-- `b` with its length in front. -/
def framed (b : Bytes) : Bytes := List.replicate b.length 1 ++ 0 :: b

def aeadHeader (aad nonce key : Bytes) : Bytes := framed key ++ (framed nonce ++ framed aad)

def aeadEncrypt (message aad nonce key : Bytes) : Result Bytes :=
  .ok (aeadHeader aad nonce key ++ message)

def aeadDecrypt (ciphertext aad nonce key : Bytes) : Result Bytes :=
  if (aeadHeader aad nonce key).isPrefixOf ciphertext then
    .ok (ciphertext.drop (aeadHeader aad nonce key).length)
  else .error (.error "wrong secret key for the given ciphertext")

def cidOf (b : Bytes) : String := .ofList ('b' :: b.map byteChar)

def content (cid : String) : Bytes := (cid.toList.drop 1).map charByte

theorem utf8Decode_encode (s : String) : utf8Decode (utf8Encode s) = s := by
  have h : (ByteArray.mk (utf8Encode s).toArray) = s.toByteArray := rfl
  rw [utf8Decode, h, String.fromUTF8?, dif_pos s.isValidUTF8]
  rfl

theorem byteChar_toNat (b : UInt8) : (byteChar b).toNat = 0x100 + b.toNat := by
  have hb := b.toNat_lt
  have hv : (0x100 + b.toNat).isValidChar := Or.inl (by omega)
  rw [byteChar, Char.ofNat, dif_pos hv]
  rfl

theorem charByte_byteChar (b : UInt8) : charByte (byteChar b) = b := by
  simp [charByte, byteChar_toNat]

theorem map_charByte (b : Bytes) : (b.map byteChar).map charByte = b := by
  simp [Function.comp_def, charByte_byteChar]

theorem isSpace_byteChar (b : UInt8) : isSpace (byteChar b) = false := by
  have hb := b.toNat_lt
  simp only [isSpace, byteChar_toNat]
  simp
  omega

theorem framed_split {b c r r' : Bytes} (h : framed b ++ r = framed c ++ r') : b = c ∧ r = r' := by
  have hlen : ∀ {n m : Nat} {u v : Bytes},
      List.replicate n (1 : UInt8) ++ 0 :: u = List.replicate m 1 ++ 0 :: v → n = m ∧ u = v := by
    intro n
    induction n with
    | zero =>
      intro m u v h
      cases m with
      | zero => simpa using h
      | succ m => simp [List.replicate_succ] at h
    | succ n ih =>
      intro m u v h
      cases m with
      | zero => simp [List.replicate_succ] at h
      | succ m =>
        simp only [List.replicate_succ, List.cons_append, List.cons.injEq, true_and] at h
        obtain ⟨rfl, huv⟩ := ih h
        exact ⟨rfl, huv⟩
  simp only [framed, List.append_assoc, List.cons_append] at h
  obtain ⟨hbc, h'⟩ := hlen h
  exact List.append_inj h' hbc

theorem aeadHeader_split {aad aad' nonce nonce' key key' r r' : Bytes}
    (h : aeadHeader aad nonce key ++ r = aeadHeader aad' nonce' key' ++ r') :
    r = r' ∧ aad = aad' ∧ nonce = nonce' ∧ key = key' := by
  simp only [aeadHeader, List.append_assoc] at h
  obtain ⟨hkey, h₁⟩ := framed_split h
  obtain ⟨hnonce, h₂⟩ := framed_split h₁
  obtain ⟨haad, hr⟩ := framed_split h₂
  exact ⟨hr, haad, hnonce, hkey⟩

theorem aeadDecrypt_eq_ok {c aad nonce key m : Bytes} (h : aeadDecrypt c aad nonce key = .ok m) :
    c = aeadHeader aad nonce key ++ m := by
  unfold aeadDecrypt at h
  split at h
  · rename_i hprefix
    obtain ⟨r, rfl⟩ := List.isPrefixOf_iff_prefix.mp hprefix
    obtain rfl := Except.ok.inj h
    simp
  · cases h

end SovereignJedi.Js.Symbolic

namespace SovereignJedi.Js

open Symbolic in
/-- The symbolic platform. -/
noncomputable def symbolic : Platform where
  cluster := none
  jsonStringify := jsonStringify
  jsonParse := jsonParse
  toJsString
    | .str s => s
    | j => jsonStringify j
  canonicalize j := some (jsonStringify j)
  utf8Encode := utf8Encode
  utf8Decode := utf8Decode
  toBase64 := toBase64
  fromBase64 := fromBase64
  sha256 := sha256
  hmacSha256 := hmacSha256
  aeadEncrypt := aeadEncrypt
  aeadDecrypt := aeadDecrypt
  cidOf := cidOf
  content := content

open Symbolic in
theorem symbolic_lawful : symbolic.Lawful where
  parse_stringify {j} hj := by
    have hex : ∃ k : Json, k.WF ∧ jsonStringify k = jsonStringify j := ⟨j, hj, rfl⟩
    show jsonParse (jsonStringify j) = .ok j
    rw [jsonParse, dif_pos hex, jsonStringify_injective hex.choose_spec.2]
  parse_wf {s j} h := by
    change jsonParse s = .ok j at h
    unfold jsonParse at h
    split at h
    · rename_i hex
      exact Except.ok.inj h ▸ hex.choose_spec.1
    · cases h
  stringify_ne := jsonStringify_ne_empty
  toJsString_str _ := rfl
  canonicalize_some _ := ⟨_, rfl⟩
  utf8 := utf8Decode_encode
  base64 b := by
    show Except.ok ((toBase64 b).toList.map charByte) = Except.ok b
    rw [toBase64, String.toList_ofList, map_charByte]
  base64_ne {b} hb h := by
    have hlist := congrArg String.toList h
    simp [symbolic, toBase64] at hlist
    exact hb hlist
  sha256_length b := by
    show ((b ++ List.replicate 32 0).take 32).length = 32
    simp
  hmac_length k b := by
    show (((b ++ k) ++ List.replicate 32 0).take 32).length = 32
    simp only [List.length_take, List.length_append, List.length_replicate]
    omega
  aead message aad _ _ := ⟨_, rfl, by simp [symbolic, aeadDecrypt, List.isPrefixOf_iff_prefix]⟩
  content_cidOf b := by
    show ((cidOf b).toList.drop 1).map charByte = b
    rw [cidOf, String.toList_ofList, List.drop_one, List.tail_cons, map_charByte]
  cidOf_trim b := trim_of_no_space fun c hc => by
    change c ∈ (cidOf b).toList at hc
    rw [cidOf, String.toList_ofList, List.mem_cons] at hc
    rcases hc with rfl | hc
    · decide
    · obtain ⟨x, -, rfl⟩ := List.mem_map.mp hc
      exact isSpace_byteChar x
  cidOf_ne b h := by
    have hlist := congrArg String.toList h
    simp [symbolic, cidOf] at hlist

open Symbolic in
theorem symbolic_idealAead : symbolic.IdealAead where
  encrypted h := by
    rw [aeadDecrypt_eq_ok h]
    rfl
  injective h h' := aeadHeader_split (Except.ok.inj (h.trans h'.symm))

/-! ### A short CID -/

/-- The platform with another naming of the objects on IPFS. -/
def Platform.withIpfs (P : Platform) (cidOf : Bytes → String) (content : String → Bytes) : Platform :=
  { P with cidOf, content }

/-- The symbolic platform, on which `bytes` have the CID `bb`. -/
noncomputable def pinned (bytes : Bytes) : Platform :=
  symbolic.withIpfs (fun b => if b = bytes then "bb" else symbolic.cidOf b)
    fun cid => if cid = "bb" then bytes else symbolic.content cid

theorem symbolic_cidOf_ne (b : Bytes) : symbolic.cidOf b ≠ "bb" := by
  intro h
  have hlist : 'b' :: b.map Symbolic.byteChar = ['b', 'b'] := by
    have h' := congrArg String.toList h
    rwa [show symbolic.cidOf b = .ofList ('b' :: b.map Symbolic.byteChar) from rfl,
      String.toList_ofList] at h'
  cases b with
  | nil => simp at hlist
  | cons x b =>
    have hx : Symbolic.byteChar x = 'b' := by simp at hlist; exact hlist.1
    have hnat := congrArg Char.toNat hx
    rw [Symbolic.byteChar_toNat] at hnat
    have hb : 'b'.toNat = 98 := rfl
    omega

theorem pinned_cidOf (bytes : Bytes) : (pinned bytes).cidOf bytes = "bb" := if_pos rfl

theorem pinned_cidOf_ne {b bytes : Bytes} (h : b ≠ bytes) :
    (pinned bytes).cidOf b = symbolic.cidOf b := if_neg h

theorem pinned_content (bytes : Bytes) : (pinned bytes).content "bb" = bytes := by
  simp [pinned, Platform.withIpfs]

theorem pinned_content_cidOf (bytes b : Bytes) : (pinned bytes).content (symbolic.cidOf b) = b :=
  (if_neg (symbolic_cidOf_ne b)).trans (symbolic_lawful.content_cidOf b)

theorem pinned_lawful (bytes : Bytes) : (pinned bytes).Lawful :=
  { symbolic_lawful with
    content_cidOf := fun b => by
      by_cases hb : b = bytes
      · rw [hb, pinned_cidOf, pinned_content]
      · rw [pinned_cidOf_ne hb, pinned_content_cidOf]
    cidOf_trim := fun b => by
      by_cases hb : b = bytes
      · rw [hb, pinned_cidOf]
        decide
      · rw [pinned_cidOf_ne hb, symbolic_lawful.cidOf_trim]
    cidOf_ne := fun b => by
      by_cases hb : b = bytes
      · rw [hb, pinned_cidOf]
        decide
      · rw [pinned_cidOf_ne hb]
        exact symbolic_lawful.cidOf_ne b }

theorem pinned_idealAead (bytes : Bytes) : (pinned bytes).IdealAead :=
  ⟨symbolic_idealAead.encrypted, symbolic_idealAead.injective⟩

end SovereignJedi.Js
