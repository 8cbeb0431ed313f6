import SovereignJedi.Js.Platform

/-! Components of a URL. `encodeURIComponent` writes a text with characters that mean nothing in a
query, so that whoever takes the query apart as the URL standard says finds the text again, and
nothing else. -/

namespace SovereignJedi.Js

/-- The bytes of a text in UTF-8. -/
def utf8 (s : String) : Bytes := s.toList.flatMap String.utf8EncodeChar

theorem utf8_injective {s t : String} (h : utf8 s = utf8 t) : s = t := by
  have hbytes : s.toList.utf8Encode = t.toList.utf8Encode := congrArg List.toByteArray h
  rw [← String.toByteArray_ofList, ← String.toByteArray_ofList, String.toByteArray_inj,
    String.ofList_toList, String.ofList_toList] at hbytes
  exact hbytes

/-! ### Writing -/

/-- The characters that `encodeURIComponent` leaves: letters, digits and marks, among them the
apostrophe. -/
def isUnreserved (c : Char) : Bool :=
  c.isAlphanum || ['-', '_', '.', '!', '~', '*', Char.ofNat 39, '(', ')'].contains c

def hexDigit (n : Nat) : Char := if n < 10 then .ofNat (48 + n) else .ofNat (55 + n)

def percentEncode (b : UInt8) : List Char :=
  ['%', hexDigit (b.toNat / 16), hexDigit (b.toNat % 16)]

def encodeComponentChar (c : Char) : List Char :=
  if isUnreserved c then [c] else (String.utf8EncodeChar c).flatMap percentEncode

def encodeURIComponent (s : String) : String := .ofList (s.toList.flatMap encodeComponentChar)

/-! ### Reading -/

def hexValue (c : Char) : Option Nat :=
  if '0' ≤ c ∧ c ≤ '9' then some (c.toNat - 48)
  else if 'A' ≤ c ∧ c ≤ 'F' then some (c.toNat - 55)
  else if 'a' ≤ c ∧ c ≤ 'f' then some (c.toNat - 87)
  else none

/-- The bytes of a percent-encoded text; a `%` that no two hex digits follow stands for itself. -/
def percentDecode : List Char → Bytes
  | [] => []
  | '%' :: h :: l :: cs =>
    match hexValue h, hexValue l with
    | some a, some b => .ofNat (16 * a + b) :: percentDecode cs
    | _, _ => 37 :: percentDecode (h :: l :: cs)
  | c :: cs => String.utf8EncodeChar c ++ percentDecode cs

/-- The path of a URL with the server in front: what stands before the query and the fragment. -/
def urlPath (url : List Char) : List Char := (url.takeWhile (· ≠ '#')).takeWhile (· ≠ '?')

def urlQuery (url : List Char) : List Char := ((url.takeWhile (· ≠ '#')).dropWhile (· ≠ '?')).drop 1

/-- The names and values of an `application/x-www-form-urlencoded` text. -/
def formParse (query : List Char) : List (Bytes × Bytes) :=
  ((query.splitOn '&').filter fun s => !s.isEmpty).map fun s =>
    let plus := s.map fun c => if c = '+' then ' ' else c
    (percentDecode (plus.takeWhile (· ≠ '=')), percentDecode ((plus.dropWhile (· ≠ '=')).drop 1))

/-! ### Round trip -/

theorem hexValue_hexDigit : ∀ n, n < 16 → hexValue (hexDigit n) = some n := by decide

theorem isUnreserved_hexDigit : ∀ n, n < 16 → isUnreserved (hexDigit n) = true := by decide

theorem percentDecode_percentEncode (b : UInt8) (cs : List Char) :
    percentDecode (percentEncode b ++ cs) = b :: percentDecode cs := by
  have hb : b.toNat < 256 := b.toNat_lt
  have hhigh : b.toNat / 16 < 16 := by omega
  have hlow : b.toNat % 16 < 16 := by omega
  have hsum : 16 * (b.toNat / 16) + b.toNat % 16 = b.toNat := by omega
  simp only [percentEncode, List.cons_append, List.nil_append, percentDecode,
    hexValue_hexDigit _ hhigh, hexValue_hexDigit _ hlow, hsum, UInt8.ofNat_toNat]

theorem percentDecode_flatMap (bytes : Bytes) (cs : List Char) :
    percentDecode (bytes.flatMap percentEncode ++ cs) = bytes ++ percentDecode cs := by
  induction bytes with
  | nil => rfl
  | cons b bytes ih =>
    rw [List.flatMap_cons, List.append_assoc, percentDecode_percentEncode, ih, List.cons_append]

theorem percentDecode_cons {c : Char} (h : c ≠ '%') (cs : List Char) :
    percentDecode (c :: cs) = String.utf8EncodeChar c ++ percentDecode cs := by
  rw [percentDecode]
  exact fun _ _ _ hc => absurd hc h

theorem percentDecode_encodeComponentChar (c : Char) (cs : List Char) :
    percentDecode (encodeComponentChar c ++ cs) = String.utf8EncodeChar c ++ percentDecode cs := by
  by_cases h : isUnreserved c = true
  · have hne : c ≠ '%' := by
      rintro rfl
      exact absurd h (by decide)
    rw [encodeComponentChar, if_pos h, List.singleton_append, percentDecode_cons hne]
  · rw [encodeComponentChar, if_neg h, percentDecode_flatMap]

/-- A component is read again. -/
theorem percentDecode_encodeURIComponent (s : String) :
    percentDecode (encodeURIComponent s).toList = utf8 s := by
  rw [encodeURIComponent, String.toList_ofList, utf8]
  induction s.toList with
  | nil => rfl
  | cons c cs ih => rw [List.flatMap_cons, percentDecode_encodeComponentChar, ih, List.flatMap_cons]

/-- A component is written with unreserved characters and `%`. -/
theorem encodeURIComponent_chars {s : String} {c : Char} (hc : c ∈ (encodeURIComponent s).toList) :
    isUnreserved c = true ∨ c = '%' := by
  rw [encodeURIComponent, String.toList_ofList, List.mem_flatMap] at hc
  obtain ⟨d, -, hc⟩ := hc
  unfold encodeComponentChar at hc
  split at hc
  · rename_i h
    obtain rfl := List.mem_singleton.mp hc
    exact Or.inl h
  · obtain ⟨b, -, hc⟩ := List.mem_flatMap.mp hc
    have hb : b.toNat < 256 := b.toNat_lt
    simp only [percentEncode, List.mem_cons, List.not_mem_nil, or_false] at hc
    rcases hc with rfl | rfl | rfl
    · exact Or.inr rfl
    · exact Or.inl (isUnreserved_hexDigit _ (by omega))
    · exact Or.inl (isUnreserved_hexDigit _ (by omega))

theorem not_mem_encodeURIComponent {c : Char} (h : isUnreserved c = false) (hne : c ≠ '%')
    (s : String) : c ∉ (encodeURIComponent s).toList := by
  intro hc
  rcases encodeURIComponent_chars hc with hc | hc
  · rw [h] at hc
    cases hc
  · exact hne hc

theorem forall_ne {c : Char} {a : List Char} (h : c ∉ a) : ∀ d ∈ a, decide (d ≠ c) = true :=
  fun d hd => decide_eq_true fun hdc : d = c => h (hdc ▸ hd)

theorem takeWhile_ne_append {c : Char} {a b : List Char} (h : c ∉ a) :
    (a ++ c :: b).takeWhile (· ≠ c) = a := by
  rw [List.takeWhile_append_of_pos (forall_ne h)]
  simp

theorem dropWhile_ne_append {c : Char} {a b : List Char} (h : c ∉ a) :
    (a ++ c :: b).dropWhile (· ≠ c) = c :: b := by
  rw [List.dropWhile_append_of_pos (forall_ne h)]
  simp

theorem takeWhile_ne_self {c : Char} {a : List Char} (h : c ∉ a) : a.takeWhile (· ≠ c) = a :=
  List.takeWhile_eq_self_iff.mpr (forall_ne h)

/-- The path and the query of a URL without a fragment. -/
theorem urlPath_append {path query : List Char} (hpath : '?' ∉ path) (hpath' : '#' ∉ path)
    (hquery : '#' ∉ query) : urlPath (path ++ '?' :: query) = path ∧
      urlQuery (path ++ '?' :: query) = query := by
  have hfragment : '#' ∉ path ++ '?' :: query := by simp [hpath', hquery]
  rw [urlPath, urlQuery, takeWhile_ne_self hfragment, takeWhile_ne_append hpath,
    dropWhile_ne_append hpath]
  exact ⟨rfl, rfl⟩

/-- One name with a component as its value is read as that, whatever is in the component. -/
theorem formParse_component {name : List Char} (hname : ∀ c ∈ name, isUnreserved c = true)
    (s : String) : formParse (name ++ '=' :: (encodeURIComponent s).toList) =
      [(percentDecode name, utf8 s)] := by
  have hunreserved : ∀ c, isUnreserved c = false → c ∉ name := fun c hc hmem => by
    rw [hname c hmem] at hc
    cases hc
  have hamp : '&' ∉ name ++ '=' :: (encodeURIComponent s).toList := by
    simp [hunreserved '&' (by decide), not_mem_encodeURIComponent (c := '&') (by decide) (by decide)]
  have hplus : ∀ c ∈ name ++ '=' :: (encodeURIComponent s).toList,
      (if c = '+' then ' ' else c) = c := by
    intro c hc
    refine if_neg ?_
    rintro rfl
    simp [hunreserved '+' (by decide),
      not_mem_encodeURIComponent (c := '+') (by decide) (by decide)] at hc
  have hsplit : (name ++ '=' :: (encodeURIComponent s).toList).splitOn '&' =
      [name ++ '=' :: (encodeURIComponent s).toList] := List.splitOn_eq_singleton hamp
  have hnonempty : (name ++ '=' :: (encodeURIComponent s).toList).isEmpty = false := by simp
  have hname' : '=' ∉ name := hunreserved '=' (by decide)
  simp only [formParse, hsplit, List.filter_cons, hnonempty, Bool.not_false, if_true,
    List.filter_nil, List.map_cons, List.map_nil, List.map_congr_left hplus, List.map_id',
    takeWhile_ne_append hname', dropWhile_ne_append hname', List.drop_one, List.tail_cons,
    percentDecode_encodeURIComponent]

end SovereignJedi.Js
