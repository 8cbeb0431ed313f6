import SovereignJedi.Codec.Basic

/-! Interface descriptions. A description of a type, as it is published beside a program, stands for
a format of dynamic values, whose records carry the names that the description gives to their
fields. -/

namespace SovereignJedi

/-- The types of a description. A reference to a defined type stands as its fields. -/
inductive IdlType where
  | u8 | i64 | pubkey | string
  | array (element : IdlType) (length : Nat)
  | vec (element : IdlType)
  | struct (fields : List (String × IdlType))

/-- What a reader makes of them. -/
inductive IdlValue where
  | u8 (n : UInt8)
  | i64 (n : Int64)
  | pubkey (bytes : { b : List UInt8 // b.length = 32 })
  | string (s : String)
  | list (xs : List IdlValue)
  | object (fields : List (String × IdlValue))

namespace IdlValue

/-! ### Values of one shape -/

def u8Bijection : UInt8 ≃. IdlValue :=
  Codec.ofInjection .u8
    (fun
      | .u8 n => some n
      | .i64 _ | .pubkey _ | .string _ | .list _ | .object _ => none)
    fun a b => by cases b <;> simp [eq_comm]

def i64Bijection : Int64 ≃. IdlValue :=
  Codec.ofInjection .i64
    (fun
      | .i64 n => some n
      | .u8 _ | .pubkey _ | .string _ | .list _ | .object _ => none)
    fun a b => by cases b <;> simp [eq_comm]

def pubkeyBijection : { b : List UInt8 // b.length = 32 } ≃. IdlValue :=
  Codec.ofInjection .pubkey
    (fun
      | .pubkey b => some b
      | .u8 _ | .i64 _ | .string _ | .list _ | .object _ => none)
    fun a b => by cases b <;> simp [eq_comm]

def stringBijection : String ≃. IdlValue :=
  Codec.ofInjection .string
    (fun
      | .string s => some s
      | .u8 _ | .i64 _ | .pubkey _ | .list _ | .object _ => none)
    fun a b => by cases b <;> simp [eq_comm]

def listBijection : List IdlValue ≃. IdlValue :=
  Codec.ofInjection .list
    (fun
      | .list xs => some xs
      | .u8 _ | .i64 _ | .pubkey _ | .string _ | .object _ => none)
    fun a b => by cases b <;> simp [eq_comm]

def objectBijection : List (String × IdlValue) ≃. IdlValue :=
  Codec.ofInjection .object
    (fun
      | .object fs => some fs
      | .u8 _ | .i64 _ | .pubkey _ | .string _ | .list _ => none)
    fun a b => by cases b <;> simp [eq_comm]

/-- A first field named `k`. -/
def fieldBijection (k : String) :
    IdlValue × List (String × IdlValue) ≃. List (String × IdlValue) :=
  Codec.ofInjection (fun f => (k, f.1) :: f.2)
    (fun
      | [] => none
      | (k', v) :: fs => if k' = k then some (v, fs) else none)
    (by
      rintro ⟨v, fs⟩ (_ | ⟨⟨k', v'⟩, fs'⟩)
      · simp
      · by_cases hk : k' = k
        · simp [hk, eq_comm]
        · simp [hk, Ne.symm hk])

end IdlValue

namespace IdlType

open IdlValue (u8Bijection i64Bijection pubkeyBijection stringBijection listBijection
  objectBijection fieldBijection)

/-! ### The format of a description -/

mutual

/-- Values of a described type, in Borsh. -/
def codec : IdlType → Codec IdlValue
  | .u8 => Codec.byte.via u8Bijection
  | .i64 => Codec.i64.via i64Bijection
  | .pubkey => (Codec.block 32).via pubkeyBijection
  | .string => Codec.string.via stringBijection
  | .array t n => (t.codec.repeated n).via listBijection
  | .vec t => t.codec.vec.via listBijection
  | .struct fs => (fieldsCodec fs).via objectBijection

def fieldsCodec : List (String × IdlType) → Codec (List (String × IdlValue))
  | [] => Codec.empty
  | (k, t) :: fs => (t.codec.pair (fieldsCodec fs)).via (fieldBijection k)

end

section Codec

variable {k : String} {t : IdlType} {n : Nat} {xs : List IdlValue} {v : IdlValue}
  {fs : List (String × IdlType)} {vs : List (String × IdlValue)}

@[simp] theorem codec_u8_valid (n : UInt8) : u8.codec.Valid (.u8 n) := ⟨n, rfl, trivial⟩

@[simp] theorem codec_i64_valid (n : Int64) : i64.codec.Valid (.i64 n) := ⟨n, rfl, Codec.i64_valid n⟩

@[simp] theorem codec_pubkey_valid (b : { b : List UInt8 // b.length = 32 }) :
    pubkey.codec.Valid (.pubkey b) := ⟨b, rfl, trivial⟩

theorem codec_string_valid {s : String} :
    string.codec.Valid (.string s) ↔ s.utf8ByteSize < 2 ^ 32 := by
  rw [← Codec.string_valid, codec, Codec.via_valid rfl]

theorem codec_array_valid :
    (array t n).codec.Valid (.list xs) ↔ xs.length = n ∧ ∀ x ∈ xs, t.codec.Valid x := by
  rw [codec, Codec.via_valid rfl]
  rfl

theorem codec_vec_valid :
    (vec t).codec.Valid (.list xs) ↔ xs.length < 2 ^ 32 ∧ ∀ x ∈ xs, t.codec.Valid x := by
  rw [codec, Codec.via_valid rfl, Codec.vec_valid]

theorem codec_struct_valid :
    (struct fs).codec.Valid (.object vs) ↔ (fieldsCodec fs).Valid vs := by
  rw [codec, Codec.via_valid rfl]

@[simp] theorem fieldsCodec_nil_valid : (fieldsCodec []).Valid [] := rfl

@[simp] theorem fieldsCodec_cons_valid :
    (fieldsCodec ((k, t) :: fs)).Valid ((k, v) :: vs) ↔
      t.codec.Valid v ∧ (fieldsCodec fs).Valid vs := by
  rw [fieldsCodec, Codec.via_valid (if_pos rfl)]
  rfl

@[simp] theorem codec_u8_write (n : UInt8) : u8.codec.write (.u8 n) = [n] := rfl

@[simp] theorem codec_i64_write (n : Int64) :
    i64.codec.write (.i64 n) = Codec.littleEndian 8 n.toUInt64.toNat := Codec.i64_write n

@[simp] theorem codec_pubkey_write (b : { b : List UInt8 // b.length = 32 }) :
    pubkey.codec.write (.pubkey b) = b.1 := rfl

@[simp] theorem codec_string_write (s : String) :
    string.codec.write (.string s) = Codec.string.write s := rfl

@[simp] theorem codec_array_write : (array t n).codec.write (.list xs) = xs.flatMap t.codec.write := rfl

@[simp] theorem codec_vec_write : (vec t).codec.write (.list xs) = t.codec.vec.write xs := rfl

@[simp] theorem codec_struct_write :
    (struct fs).codec.write (.object vs) = (fieldsCodec fs).write vs := rfl

@[simp] theorem fieldsCodec_nil_write : (fieldsCodec []).write [] = [] := rfl

@[simp] theorem fieldsCodec_cons_write :
    (fieldsCodec ((k, t) :: fs)).write ((k, v) :: vs) =
      t.codec.write v ++ (fieldsCodec fs).write vs := by
  rw [fieldsCodec, Codec.via_write (if_pos rfl)]
  rfl

end Codec

end IdlType

/-! ### Names -/

section Rename

variable (f : String → String)

mutual

/-- The value under other names. -/
def IdlValue.rename : IdlValue → IdlValue
  | .u8 n => .u8 n
  | .i64 n => .i64 n
  | .pubkey b => .pubkey b
  | .string s => .string s
  | .list xs => .list (renameAll xs)
  | .object fs => .object (renameFields fs)

def IdlValue.renameAll : List IdlValue → List IdlValue
  | [] => []
  | v :: vs => v.rename :: renameAll vs

def IdlValue.renameFields : List (String × IdlValue) → List (String × IdlValue)
  | [] => []
  | (k, v) :: fs => (f k, v.rename) :: renameFields fs

end

variable {f}

theorem IdlValue.renameAll_eq_map (xs : List IdlValue) : renameAll f xs = xs.map (rename f) := by
  induction xs with
  | nil => rfl
  | cons v vs ih => rw [renameAll, ih, List.map_cons]

end Rename

end SovereignJedi
