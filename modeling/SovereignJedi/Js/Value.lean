import Mathlib.Data.Rat.Defs
import Mathlib.Data.List.DropRight

/-! The JavaScript values that the program's data is made of: JSON values with objects as lists of
own properties in order, property access as the language does it on unchecked data, thrown errors,
and the trimming of strings. -/

namespace SovereignJedi.Js

/-- What a `throw` carries. -/
inductive JsError where
  | error (message : String)
  | typeError (message : String)
  | rangeError (message : String)
  deriving DecidableEq, Repr

abbrev Result := Except JsError

@[simp] theorem ok_bind {α β : Type} (a : α) (f : α → Result β) : (Except.ok a >>= f) = f a := rfl
@[simp] theorem error_bind {α β : Type} (e : JsError) (f : α → Result β) :
    (Except.error e >>= f) = .error e := rfl
@[simp] theorem result_throw {α : Type} (e : JsError) : (throw e : Result α) = .error e := rfl
@[simp] theorem result_pure {α : Type} (a : α) : (pure a : Result α) = .ok a := rfl

/-- `if (!b) throw new Error(message)`. -/
def require (b : Bool) (message : String) : Result Unit :=
  if b then .ok () else .error (.error message)

@[simp] theorem require_true (message : String) : require true message = .ok () := rfl
@[simp] theorem require_false (message : String) : require false message = .error (.error message) :=
  rfl

theorem require_eq_ok {b : Bool} {message : String} {u : Unit} :
    require b message = .ok u ↔ b = true := by
  cases b <;> simp

/-- `e?.message`. -/
def JsError.message : JsError → String
  | .error m => m
  | .typeError m => m
  | .rangeError m => m

/-- `try { x } catch (e) { throw new Error(f(e)) }`. -/
def rethrow {α : Type} (x : Result α) (f : JsError → String) : Result α :=
  match x with
  | .ok a => .ok a
  | .error e => .error (.error (f e))

@[simp] theorem rethrow_ok {α : Type} (a : α) (f : JsError → String) :
    rethrow (.ok a) f = .ok a := rfl

theorem rethrow_eq_ok {α : Type} {x : Result α} {f : JsError → String} {a : α} :
    rethrow x f = .ok a ↔ x = .ok a := by
  cases x <;> simp [rethrow]

theorem bind_eq_ok {α β : Type} {x : Result α} {f : α → Result β} {b : β} :
    x >>= f = .ok b ↔ ∃ a, x = .ok a ∧ f a = .ok b := by
  cases x <;> simp

/-- A JSON value. The own properties of an object stand in the order in which the language lists
them. -/
inductive Json where
  | null
  | bool (b : Bool)
  | num (q : ℚ)
  | str (s : String)
  | arr (xs : List Json)
  | obj (fields : List (String × Json))

/-- A value that may be `undefined`. -/
abbrev Value := Option Json

namespace Json

/-- The number that a string of digits writes. -/
def digits (k : String) : Nat := k.toList.foldl (fun n c => 10 * n + (c.toNat - '0'.toNat)) 0

/-- `k` is an array index, `"0"` to `"4294967294"`: such keys come first among an object's own
properties, by value. -/
def isIndexKey (k : String) : Bool :=
  k.toList.all Char.isDigit && (k == "0" || k.toList.head?.any (· != '0')) && digits k < 4294967295

/-- A list of own property names, as an object can have it. -/
structure OwnKeys (ks : List String) : Prop where
  nodup : ks.Nodup
  split : ks = ks.filter isIndexKey ++ ks.filter fun k => !isIndexKey k
  sorted : (ks.filter isIndexKey).Pairwise fun a b => digits a < digits b

instance (ks : List String) : Decidable (OwnKeys ks) :=
  decidable_of_iff (ks.Nodup ∧ ks = ks.filter isIndexKey ++ (ks.filter fun k => !isIndexKey k) ∧
      (ks.filter isIndexKey).Pairwise fun a b => digits a < digits b)
    ⟨fun h => ⟨h.1, h.2.1, h.2.2⟩, fun h => ⟨h.nodup, h.split, h.sorted⟩⟩

/-- Every object in the value lists its own properties as the language does. -/
inductive WF : Json → Prop
  | null : WF .null
  | bool (b : Bool) : WF (.bool b)
  | num (q : ℚ) : WF (.num q)
  | str (s : String) : WF (.str s)
  | arr {xs : List Json} (h : ∀ x ∈ xs, WF x) : WF (.arr xs)
  | obj {fs : List (String × Json)} (hkeys : OwnKeys (fs.map Prod.fst)) (h : ∀ f ∈ fs, WF f.2) :
      WF (.obj fs)

/-- The own property `k` among `fs`. -/
def field (k : String) : List (String × Json) → Value
  | [] => none
  | (k', v) :: fs => if k' = k then some v else field k fs

/-- The own property `k`; primitives and arrays have none of the names the program asks for. -/
def get (j : Json) (k : String) : Value :=
  match j with
  | .obj fs => field k fs
  | _ => none

/-- The properties `fs` with `k` set to `v`: in place, or as a new last property. -/
def setField (k : String) (v : Json) : List (String × Json) → List (String × Json)
  | [] => [(k, v)]
  | (k', v') :: fs => if k' = k then (k, v) :: fs else (k', v') :: setField k v fs

/-- `j.k = v`. -/
def set (j : Json) (k : String) (v : Json) : Json :=
  match j with
  | .obj fs => .obj (setField k v fs)
  | _ => j

/-- The object literal of these properties, without the `undefined` ones that `JSON.stringify` would
drop. -/
def ofFields (fs : List (String × Value)) : Json :=
  .obj (fs.filterMap fun f => f.2.map fun v => (f.1, v))

@[simp] theorem get_obj (fs : List (String × Json)) (k : String) : get (.obj fs) k = field k fs := rfl

@[simp] theorem set_obj (fs : List (String × Json)) (k : String) (v : Json) :
    set (.obj fs) k v = .obj (setField k v fs) := rfl

@[simp] theorem field_nil (k : String) : field k [] = none := rfl

@[simp] theorem field_cons (k : String) (f : String × Json) (fs : List (String × Json)) :
    field k (f :: fs) = if f.1 = k then some f.2 else field k fs := rfl

theorem mem_of_field {k : String} {v : Json} {fs : List (String × Json)}
    (h : field k fs = some v) : (k, v) ∈ fs := by
  induction fs with
  | nil => cases h
  | cons f fs ih =>
    rw [field_cons] at h
    split at h
    · rename_i hk
      obtain rfl := Option.some.inj h
      simp [← hk]
    · exact List.mem_cons_of_mem _ (ih h)

/-- A property of an object literal that is listed once. -/
theorem get_ofFields {fs : List (String × Value)} {f : String × Value}
    (hnodup : (fs.map Prod.fst).Nodup) (hf : f ∈ fs) : (ofFields fs).get f.1 = f.2 := by
  have hnone : ∀ {gs : List (String × Value)} {k : String}, k ∉ gs.map Prod.fst →
      (ofFields gs).get k = none := by
    intro gs k hk
    by_contra hsome
    obtain ⟨v, hv⟩ := Option.ne_none_iff_exists'.mp hsome
    obtain ⟨g, hg, hgv⟩ := List.mem_filterMap.mp (mem_of_field hv)
    obtain ⟨u, -, hu⟩ := Option.map_eq_some_iff.mp hgv
    exact hk (List.mem_map.mpr ⟨g, hg, congrArg Prod.fst hu⟩)
  induction fs with
  | nil => cases hf
  | cons g fs ih =>
    obtain ⟨hg, hnodup⟩ := List.nodup_cons.mp hnodup
    have hcons : (ofFields (g :: fs)).get f.1 =
        if g.1 = f.1 then (g.2.or ((ofFields fs).get f.1)) else (ofFields fs).get f.1 := by
      cases hv : g.2 with
      | none => simp [ofFields, hv]
      | some v => simp [ofFields, hv]
    rw [hcons]
    rcases List.mem_cons.mp hf with rfl | hf
    · rw [if_pos rfl, hnone hg, Option.or_none]
    · have hne : g.1 ≠ f.1 := fun h => hg (List.mem_map.mpr ⟨f, hf, h.symm⟩)
      rw [if_neg hne, ih hnodup hf]

theorem field_setField_same (k : String) (v : Json) (fs : List (String × Json)) :
    field k (setField k v fs) = some v := by
  induction fs with
  | nil => simp [setField]
  | cons f fs ih => by_cases h : f.1 = k <;> simp [setField, h, ih]

theorem field_setField_ne {k k' : String} (hne : k' ≠ k) (v : Json) (fs : List (String × Json)) :
    field k' (setField k v fs) = field k' fs := by
  induction fs with
  | nil => simp [setField, Ne.symm hne]
  | cons f fs ih =>
    by_cases h : f.1 = k
    · simp [setField, h, Ne.symm hne]
    · simp [setField, h, ih]

theorem get_set_same (fs : List (String × Json)) (k : String) (v : Json) :
    (set (.obj fs) k v).get k = some v :=
  field_setField_same k v fs

theorem get_set_ne {k k' : String} (hne : k' ≠ k) (v : Json) (j : Json) :
    (j.set k v).get k' = j.get k' := by
  cases j with
  | obj fs => exact field_setField_ne hne v fs
  | _ => rfl

theorem exists_obj_of_get {k : String} {j v : Json} (h : j.get k = some v) : ∃ fs, j = .obj fs := by
  cases j with
  | obj fs => exact ⟨fs, rfl⟩
  | _ => cases h

theorem keys_setField (k : String) (v : Json) (fs : List (String × Json)) :
    (setField k v fs).map Prod.fst =
      if k ∈ fs.map Prod.fst then fs.map Prod.fst else fs.map Prod.fst ++ [k] := by
  induction fs with
  | nil => simp [setField]
  | cons f fs ih =>
    by_cases h : f.1 = k
    · simp [setField, h]
    · by_cases hmem : k ∈ fs.map Prod.fst
      · rw [setField, if_neg h, List.map_cons, ih, if_pos hmem, List.map_cons,
          if_pos (List.mem_cons_of_mem _ hmem)]
      · have hnot : k ∉ (f :: fs).map Prod.fst := by
          rw [List.map_cons, List.mem_cons]
          exact fun hk => hk.elim (fun e => h e.symm) hmem
        rw [setField, if_neg h, List.map_cons, ih, if_neg hmem, if_neg hnot]
        rfl

theorem mem_setField {k : String} {v : Json} {fs : List (String × Json)} {f : String × Json}
    (h : f ∈ setField k v fs) : f = (k, v) ∨ f ∈ fs := by
  induction fs with
  | nil => simpa [setField] using h
  | cons g fs ih =>
    by_cases hg : g.1 = k
    · simp only [setField, hg, if_true, List.mem_cons] at h
      rcases h with h | h
      · exact Or.inl h
      · exact Or.inr (List.mem_cons_of_mem _ h)
    · simp only [setField, hg, if_false, List.mem_cons] at h
      rcases h with rfl | h
      · exact Or.inr (by simp)
      · exact (ih h).imp_right (List.mem_cons_of_mem _)

theorem OwnKeys.concat {ks : List String} (h : OwnKeys ks) {k : String} (hk : k ∉ ks)
    (hidx : isIndexKey k = false) : OwnKeys (ks ++ [k]) where
  nodup := by
    rw [List.nodup_append]
    exact ⟨h.nodup, by simp, fun a ha b hb => by simp at hb; subst hb; exact fun e => hk (e ▸ ha)⟩
  split := by
    simp only [List.filter_append, List.filter_cons, hidx, List.filter_nil]
    simp only [Bool.false_eq_true, if_false, List.append_nil, Bool.not_false, if_true]
    rw [← List.append_assoc, ← h.split]
  sorted := by
    simpa [List.filter_append, List.filter_cons, hidx] using h.sorted

/-- Setting a named property keeps an object in order. -/
theorem WF.set {j v : Json} (hj : j.WF) (hv : v.WF) {k : String} (hidx : isIndexKey k = false) :
    (j.set k v).WF := by
  cases hj with
  | obj hkeys h =>
    refine .obj ?_ fun f hf => ?_
    · rw [keys_setField]
      split
      · exact hkeys
      · exact hkeys.concat (by assumption) hidx
    · rcases mem_setField hf with rfl | hf
      · exact hv
      · exact h f hf
  | null => exact .null
  | bool b => exact .bool b
  | num q => exact .num q
  | str s => exact .str s
  | arr h => exact .arr h

theorem OwnKeys.of_named {ks : List String} (hnodup : ks.Nodup)
    (h : ∀ k ∈ ks, isIndexKey k = false) : OwnKeys ks where
  nodup := hnodup
  split := by
    rw [List.filter_eq_nil_iff.mpr (by simpa using h), List.filter_eq_self.mpr (by simpa using h)]
    rfl
  sorted := by
    rw [List.filter_eq_nil_iff.mpr (by simpa using h)]
    exact .nil

/-- An object literal with named properties is in order, whichever of them are `undefined`. -/
theorem WF.ofFields {fs : List (String × Value)} (hnodup : (fs.map Prod.fst).Nodup)
    (hnamed : ∀ k ∈ fs.map Prod.fst, isIndexKey k = false)
    (h : ∀ f ∈ fs, ∀ v, f.2 = some v → v.WF) : (Json.ofFields fs).WF := by
  have hsub : ((fs.filterMap fun f => f.2.map fun v => (f.1, v)).map Prod.fst).Sublist
      (fs.map Prod.fst) := by
    induction fs with
    | nil => exact .slnil
    | cons f fs ih =>
      simp only [List.map_cons, List.nodup_cons, List.mem_cons, forall_eq_or_imp] at hnodup hnamed h
      have ih := ih hnodup.2 hnamed.2 h.2
      cases hf : f.2 with
      | none => simpa [hf] using ih.cons f.1
      | some v => simpa [hf] using ih
  refine .obj (.of_named (hnodup.sublist hsub) fun k hk => hnamed k (hsub.subset hk)) ?_
  intro f hf
  obtain ⟨g, hg, hgf⟩ := List.mem_filterMap.mp hf
  obtain ⟨v, hv, rfl⟩ := Option.map_eq_some_iff.mp hgf
  exact h g hg v hv

theorem WF.get {j v : Json} (hj : j.WF) {k : String} (h : j.get k = some v) : v.WF := by
  cases hj with
  | @obj fs _ hwf =>
    exact hwf _ (mem_of_field h)
  | _ => cases h

end Json

/-! ### Operators on unchecked values -/

/-- `v.k`: reading a property of `undefined` or `null` throws. -/
def prop (v : Value) (k : String) : Result Value :=
  match v with
  | none => .error (.typeError s!"Cannot read properties of undefined (reading '{k}')")
  | some .null => .error (.typeError s!"Cannot read properties of null (reading '{k}')")
  | some j => .ok (j.get k)

/-- `v?.k`. -/
def optProp (v : Value) (k : String) : Value :=
  match v with
  | some j => j.get k
  | none => none

/-- `v ?? d`. -/
def orElse (v : Value) (d : Json) : Json :=
  match v with
  | none => d
  | some .null => d
  | some j => j

/-- `!!v`. -/
def truthy : Value → Bool
  | none => false
  | some .null => false
  | some (.bool b) => b
  | some (.num q) => q != 0
  | some (.str s) => s != ""
  | some (.arr _) => true
  | some (.obj _) => true

/-- `v === s` for a string `s`. -/
def isStr (v : Value) (s : String) : Bool :=
  match v with
  | some (.str s') => s' == s
  | _ => false

/-- `v === q` for a number `q`. -/
def isNum (v : Value) (q : ℚ) : Bool :=
  match v with
  | some (.num q') => q' == q
  | _ => false

@[simp] theorem prop_obj (fs : List (String × Json)) (k : String) :
    prop (some (.obj fs)) k = .ok (Json.field k fs) := rfl
@[simp] theorem optProp_some (j : Json) (k : String) : optProp (some j) k = j.get k := rfl
@[simp] theorem isStr_str (s t : String) : isStr (some (.str s)) t = (s == t) := rfl
@[simp] theorem isNum_num (q r : ℚ) : isNum (some (.num q)) r = (q == r) := rfl

theorem isStr_iff {v : Value} {s : String} : isStr v s = true ↔ v = some (.str s) := by
  unfold isStr
  split <;> simp_all

theorem isNum_iff {v : Value} {q : ℚ} : isNum v q = true ↔ v = some (.num q) := by
  unfold isNum
  split <;> simp_all

/-! ### Strings -/

/-- White space and line terminators, which `String.prototype.trim` removes at both ends. -/
def isSpace (c : Char) : Bool :=
  c.toNat ∈ [0x9, 0xA, 0xB, 0xC, 0xD, 0x20, 0xA0, 0x1680, 0x2028, 0x2029, 0x202F, 0x205F, 0x3000,
    0xFEFF] || (0x2000 ≤ c.toNat && c.toNat ≤ 0x200A)

def trim (s : String) : String :=
  .ofList (((s.toList.dropWhile isSpace).reverse.dropWhile isSpace).reverse)

/-- `!value || String(value).trim().length === 0`. -/
def isBlank (s : String) : Bool := trim s == ""

theorem dropWhile_of_all_not {space : Char → Bool} {l : List Char}
    (h : ∀ c ∈ l, space c = false) : l.dropWhile space = l := by
  cases l with
  | nil => rfl
  | cons c l => simp [h c (by simp)]

/-- A string without white space is trimmed. -/
theorem trim_of_no_space {s : String} (h : ∀ c ∈ s.toList, isSpace c = false) : trim s = s := by
  rw [trim, dropWhile_of_all_not h, dropWhile_of_all_not, List.reverse_reverse, String.ofList_toList]
  intro c hc
  exact h c (List.mem_reverse.mp hc)

theorem trim_eq_rdropWhile (s : String) :
    trim s = .ofList ((s.toList.dropWhile isSpace).rdropWhile isSpace) := rfl

/-- Trimming twice is trimming once. -/
theorem trim_trim (s : String) : trim (trim s) = trim s := by
  have hfront : ((s.toList.dropWhile isSpace).rdropWhile isSpace).dropWhile isSpace =
      (s.toList.dropWhile isSpace).rdropWhile isSpace := by
    rw [List.dropWhile_eq_self_iff]
    intro hl
    have hpre := List.rdropWhile_prefix isSpace (l := s.toList.dropWhile isSpace)
    rw [hpre.getElem hl]
    exact List.dropWhile_eq_self_iff.mp (List.dropWhile_idempotent ..) _
  rw [trim_eq_rdropWhile (trim s), trim_eq_rdropWhile s, String.toList_ofList, hfront,
    List.rdropWhile_idempotent]
/-- A list tells what stands before the first `x`, and what follows it. -/
theorem append_cons_injective {α : Type} {x : α} {a b r r' : List α} (ha : x ∉ a) (hb : x ∉ b)
    (h : a ++ x :: r = b ++ x :: r') : a = b ∧ r = r' := by
  induction a generalizing b with
  | nil =>
    cases b with
    | nil => exact ⟨rfl, (List.cons.inj h).2⟩
    | cons z b => exact absurd ((List.cons.inj h).1 ▸ List.mem_cons_self) hb
  | cons y a ih =>
    cases b with
    | nil => exact absurd ((List.cons.inj h).1 ▸ List.mem_cons_self) ha
    | cons z b =>
      rw [List.mem_cons, not_or] at ha hb
      obtain ⟨hyz, hrest⟩ := List.cons.inj h
      obtain ⟨hab, hr⟩ := ih ha.2 hb.2 hrest
      exact ⟨by rw [hyz, hab], hr⟩

end SovereignJedi.Js
