import Mathlib.Algebra.Order.Ring.Nat
import Mathlib.Data.PEquiv

/-! Binary formats. A codec writes values to bytes and reads them back from the front of a buffer;
its laws say that reading undoes writing, whatever follows, and that nothing else is read. Codecs of
records and sequences are composed of those of their parts, in the manner of Borsh. -/

namespace SovereignJedi

/-- A format of the values of `α`. Of them, only the `Valid` ones can be written. -/
structure Codec (α : Type) where
  Valid : α → Prop
  write : α → List UInt8
  read : List UInt8 → Option (α × List UInt8)
  read_write : ∀ {a}, Valid a → ∀ rest, read (write a ++ rest) = some (a, rest)
  read_sound : ∀ {bytes a rest}, read bytes = some (a, rest) → Valid a ∧ bytes = write a ++ rest

namespace Codec

variable {α β : Type}

/-! ### Numbers -/

/-- The low `width` bytes of `n`, the least significant one first. -/
def littleEndian : (width n : Nat) → List UInt8
  | 0, _ => []
  | width + 1, n => UInt8.ofNat n :: littleEndian width (n / 256)

/-- The number with these bytes, the least significant one first. -/
def ofLittleEndian : List UInt8 → Nat
  | [] => 0
  | b :: bs => b.toNat + 256 * ofLittleEndian bs

@[simp] theorem length_littleEndian (width n : Nat) : (littleEndian width n).length = width := by
  induction width generalizing n with
  | zero => rfl
  | succ width ih => rw [littleEndian, List.length_cons, ih]

theorem ofLittleEndian_littleEndian {width n : Nat} (h : n < 256 ^ width) :
    ofLittleEndian (littleEndian width n) = n := by
  induction width generalizing n with
  | zero =>
    obtain rfl : n = 0 := by simpa using h
    rfl
  | succ width ih =>
    have hdiv : n / 256 < 256 ^ width := by
      rw [pow_succ] at h
      exact Nat.div_lt_of_lt_mul (by omega)
    rw [littleEndian, ofLittleEndian, ih hdiv, UInt8.toNat_ofNat']
    omega

theorem ofLittleEndian_lt (bs : List UInt8) : ofLittleEndian bs < 256 ^ bs.length := by
  induction bs with
  | nil => exact Nat.one_pos
  | cons b bs ih =>
    have hb := b.toNat_lt
    rw [ofLittleEndian, List.length_cons, pow_succ]
    omega

theorem littleEndian_ofLittleEndian (bs : List UInt8) :
    littleEndian bs.length (ofLittleEndian bs) = bs := by
  induction bs with
  | nil => rfl
  | cons b bs ih =>
    have hb := b.toNat_lt
    have hmod : UInt8.ofNat (b.toNat + 256 * ofLittleEndian bs) = b := by
      apply UInt8.toNat_inj.mp
      rw [UInt8.toNat_ofNat']
      omega
    have hdiv : (b.toNat + 256 * ofLittleEndian bs) / 256 = ofLittleEndian bs := by omega
    rw [ofLittleEndian, List.length_cons, littleEndian, hmod, hdiv, ih]

/-! ### Base formats -/

/-- No bytes, for the empty list. -/
def empty : Codec (List α) where
  Valid xs := xs = []
  write _ := []
  read bytes := some ([], bytes)
  read_write := by
    rintro _ rfl rest
    rfl
  read_sound := by
    intro bytes xs rest h
    obtain ⟨rfl, rfl⟩ := Prod.mk.inj (Option.some.inj h)
    exact ⟨rfl, rfl⟩

/-- A single byte. -/
def byte : Codec UInt8 where
  Valid _ := True
  write b := [b]
  read
    | [] => none
    | b :: rest => some (b, rest)
  read_write := fun _ _ => rfl
  read_sound := by
    intro bytes a rest h
    cases bytes with
    | nil => cases h
    | cons b bs =>
      simp only [Option.some.injEq, Prod.mk.injEq] at h
      obtain ⟨rfl, rfl⟩ := h
      exact ⟨trivial, rfl⟩

/-- A block of `n` bytes. -/
def block (n : Nat) : Codec { b : List UInt8 // b.length = n } where
  Valid _ := True
  write b := b.1
  read bytes :=
    if h : n ≤ bytes.length then some (⟨bytes.take n, List.length_take_of_le h⟩, bytes.drop n)
    else none
  read_write := by
    rintro ⟨b, rfl⟩ - rest
    simp
  read_sound := by
    intro bytes a rest h
    split at h
    · obtain ⟨rfl, rfl⟩ := Prod.mk.inj (Option.some.inj h)
      exact ⟨trivial, (List.take_append_drop n bytes).symm⟩
    · cases h

/-! ### Composition -/

/-- The values that stand for values of `α` under a partial bijection. -/
def via (C : Codec α) (f : α ≃. β) : Codec β where
  Valid b := ∃ a, f.symm b = some a ∧ C.Valid a
  write b := (f.symm b).elim [] C.write
  read bytes := (C.read bytes).bind fun r => (f r.1).map fun b => (b, r.2)
  read_write := by
    rintro b ⟨a, ha, hvalid⟩ rest
    rw [ha, Option.elim_some, C.read_write hvalid, Option.bind_some, f.eq_some_iff.mp ha]
    rfl
  read_sound := by
    intro bytes b rest h
    obtain ⟨⟨a, rest'⟩, hread, hmap⟩ := Option.bind_eq_some_iff.mp h
    obtain ⟨b', hb, heq⟩ := Option.map_eq_some_iff.mp hmap
    obtain ⟨rfl, rfl⟩ := Prod.mk.inj heq
    obtain ⟨hvalid, rfl⟩ := C.read_sound hread
    have hback : f.symm b' = some a := f.eq_some_iff.mpr hb
    exact ⟨⟨a, hback, hvalid⟩, by rw [hback, Option.elim_some]⟩

/-- One value after the other. -/
def pair (C : Codec α) (D : Codec β) : Codec (α × β) where
  Valid ab := C.Valid ab.1 ∧ D.Valid ab.2
  write ab := C.write ab.1 ++ D.write ab.2
  read bytes := (C.read bytes).bind fun r => (D.read r.2).map fun r' => ((r.1, r'.1), r'.2)
  read_write := by
    rintro ⟨a, b⟩ ⟨ha, hb⟩ rest
    rw [List.append_assoc, C.read_write ha, Option.bind_some, D.read_write hb]
    rfl
  read_sound := by
    intro bytes ab rest h
    obtain ⟨⟨a, rest₁⟩, hC, hmap⟩ := Option.bind_eq_some_iff.mp h
    obtain ⟨⟨b, rest₂⟩, hD, heq⟩ := Option.map_eq_some_iff.mp hmap
    obtain ⟨rfl, rfl⟩ := Prod.mk.inj heq
    obtain ⟨ha, rfl⟩ := C.read_sound hC
    obtain ⟨hb, rfl⟩ := D.read_sound hD
    exact ⟨⟨ha, hb⟩, (List.append_assoc ..).symm⟩

theorem via_valid {C : Codec α} {f : α ≃. β} {a : α} {b : β} (h : f.symm b = some a) :
    (C.via f).Valid b ↔ C.Valid a := by
  simp only [via, h, Option.some.injEq, exists_eq_left']

theorem via_write {C : Codec α} {f : α ≃. β} {a : α} {b : β} (h : f.symm b = some a) :
    (C.via f).write b = C.write a := by
  simp only [via, h, Option.elim_some]

/-- Reads `n` values. -/
def readMany (C : Codec α) : Nat → List UInt8 → Option (List α × List UInt8)
  | 0, bytes => some ([], bytes)
  | n + 1, bytes =>
    (C.read bytes).bind fun r => (C.readMany n r.2).map fun r' => (r.1 :: r'.1, r'.2)

/-- A sequence of `n` values. -/
def repeated (C : Codec α) (n : Nat) : Codec (List α) where
  Valid xs := xs.length = n ∧ ∀ x ∈ xs, C.Valid x
  write xs := xs.flatMap C.write
  read := C.readMany n
  read_write := by
    intro xs ⟨hlen, hxs⟩ rest
    induction xs generalizing n with
    | nil =>
      subst hlen
      rfl
    | cons x xs ih =>
      subst hlen
      rw [List.forall_mem_cons] at hxs
      rw [List.flatMap_cons, List.append_assoc, List.length_cons, readMany, C.read_write hxs.1,
        Option.bind_some, ih xs.length rfl hxs.2]
      rfl
  read_sound := by
    intro bytes xs rest h
    induction n generalizing bytes xs with
    | zero =>
      obtain ⟨rfl, rfl⟩ := Prod.mk.inj (Option.some.inj h)
      exact ⟨⟨rfl, by simp⟩, rfl⟩
    | succ n ih =>
      obtain ⟨⟨x, rest₁⟩, hx, hmap⟩ := Option.bind_eq_some_iff.mp h
      obtain ⟨⟨xs', rest₂⟩, hxs, heq⟩ := Option.map_eq_some_iff.mp hmap
      obtain ⟨rfl, rfl⟩ := Prod.mk.inj heq
      obtain ⟨hvalid, rfl⟩ := C.read_sound hx
      obtain ⟨⟨hlen, hall⟩, rfl⟩ := ih hxs
      refine ⟨⟨by rw [List.length_cons, hlen], List.forall_mem_cons.mpr ⟨hvalid, hall⟩⟩, ?_⟩
      rw [List.flatMap_cons, List.append_assoc]

/-- A value, and then another one in a format that depends on it. The second value tells what the
first one is. -/
def dependent (C : Codec α) (D : α → Codec β) (tag : β → α)
    (htag : ∀ a b, (D a).Valid b → tag b = a) : Codec β where
  Valid b := C.Valid (tag b) ∧ (D (tag b)).Valid b
  write b := C.write (tag b) ++ (D (tag b)).write b
  read bytes := (C.read bytes).bind fun r => (D r.1).read r.2
  read_write := by
    rintro b ⟨htagged, hb⟩ rest
    rw [List.append_assoc, C.read_write htagged, Option.bind_some, (D (tag b)).read_write hb]
  read_sound := by
    intro bytes b rest h
    obtain ⟨⟨a, rest₁⟩, hC, hD⟩ := Option.bind_eq_some_iff.mp h
    obtain ⟨ha, rfl⟩ := C.read_sound hC
    obtain ⟨hb, rfl⟩ := (D a).read_sound hD
    obtain rfl := htag a b hb
    exact ⟨⟨ha, hb⟩, (List.append_assoc ..).symm⟩

/-! ### Partial bijections -/

/-- An injective function with its partial inverse. -/
def ofInjection (f : α → β) (g : β → Option α) (h : ∀ a b, g b = some a ↔ f a = b) : α ≃. β where
  toFun a := some (f a)
  invFun := g
  inv a b := by simpa using h a b

/-- A number of `width` bytes. -/
def wordBijection (width : Nat) : { b : List UInt8 // b.length = width } ≃. Nat where
  toFun b := some (ofLittleEndian b.1)
  invFun n := if n < 256 ^ width then some ⟨littleEndian width n, length_littleEndian width n⟩ else none
  inv := by
    rintro ⟨b, rfl⟩ n
    simp only [Option.ite_none_right_eq_some, Option.some.injEq, Subtype.mk.injEq]
    constructor
    · rintro ⟨hlt, hb⟩
      rw [← hb, ofLittleEndian_littleEndian hlt]
    · rintro rfl
      exact ⟨ofLittleEndian_lt b, littleEndian_ofLittleEndian b⟩

def word (width : Nat) : Codec Nat := (block width).via (wordBijection width)

@[simp] theorem word_valid {width n : Nat} : (word width).Valid n ↔ n < 256 ^ width := by
  constructor
  · rintro ⟨b, hb, -⟩
    exact (Option.ite_none_right_eq_some.mp hb).1
  · exact fun h => ⟨_, if_pos h, trivial⟩

theorem word_write {width n : Nat} (h : n < 256 ^ width) :
    (word width).write n = littleEndian width n := by
  have hsymm : (wordBijection width).symm n =
      some ⟨littleEndian width n, length_littleEndian width n⟩ := if_pos h
  rw [word, via_write hsymm]
  rfl

/-- A signed number of 64 bits, in two's complement. -/
def i64Bijection : Nat ≃. Int64 where
  toFun n := if n < 2 ^ 64 then some (UInt64.ofNat n).toInt64 else none
  invFun n := some n.toUInt64.toNat
  inv n m := by
    simp only [Option.some.injEq, Option.ite_none_right_eq_some]
    constructor
    · rintro rfl
      exact ⟨m.toUInt64.toNat_lt, by rw [UInt64.ofNat_toNat, Int64.toInt64_toUInt64]⟩
    · rintro ⟨hlt, rfl⟩
      rw [UInt64.toUInt64_toInt64, UInt64.toNat_ofNat', Nat.mod_eq_of_lt hlt]

def i64 : Codec Int64 := (word 8).via i64Bijection

@[simp] theorem i64_valid (n : Int64) : i64.Valid n :=
  ⟨n.toUInt64.toNat, rfl, word_valid.mpr n.toUInt64.toNat_lt⟩

theorem i64_write (n : Int64) : i64.write n = littleEndian 8 n.toUInt64.toNat :=
  word_write n.toUInt64.toNat_lt

/-! ### Sequences and strings -/

/-- A sequence with its length in front, as a number of four bytes. -/
def vec (C : Codec α) : Codec (List α) :=
  (word 4).dependent (fun n => C.repeated n) List.length fun _ _ h => h.1

theorem vec_valid {C : Codec α} {xs : List α} :
    C.vec.Valid xs ↔ xs.length < 2 ^ 32 ∧ ∀ x ∈ xs, C.Valid x := by
  simp only [vec, dependent, repeated, word_valid, true_and]
  rfl

theorem vec_write {C : Codec α} {xs : List α} (h : xs.length < 2 ^ 32) :
    C.vec.write xs = littleEndian 4 xs.length ++ xs.flatMap C.write := by
  show (word 4).write xs.length ++ _ = _
  rw [word_write h]
  rfl

/-- The strings that are encoded in UTF-8 as these bytes. -/
def utf8Bijection : List UInt8 ≃. String where
  toFun b := String.fromUTF8? ⟨b.toArray⟩
  invFun s := some s.toByteArray.data.toList
  inv b s := by
    rw [Option.some.injEq, String.fromUTF8?]
    constructor
    · rintro rfl
      exact dif_pos s.isValidUTF8
    · intro h
      split at h
      · obtain rfl := Option.some.inj h
        rfl
      · cases h

def string : Codec String := byte.vec.via utf8Bijection

theorem string_valid {s : String} : string.Valid s ↔ s.utf8ByteSize < 2 ^ 32 := by
  have hlength : s.toByteArray.data.toList.length = s.utf8ByteSize := rfl
  rw [string, via_valid rfl, vec_valid, hlength]
  exact and_iff_left fun _ _ => trivial

theorem string_write {s : String} (h : s.utf8ByteSize < 2 ^ 32) :
    string.write s = littleEndian 4 s.utf8ByteSize ++ s.toByteArray.data.toList := by
  show byte.vec.write s.toByteArray.data.toList = _
  rw [vec_write (show s.toByteArray.data.toList.length < 2 ^ 32 from h)]
  show _ ++ List.flatMap (fun b => [b]) _ = _
  rw [List.flatMap_singleton']
  rfl

end Codec

end SovereignJedi
