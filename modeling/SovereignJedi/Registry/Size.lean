import Mathlib.Algebra.Group.Action.Defs
import Mathlib.Algebra.Order.BigOperators.Group.List
import Mathlib.Algebra.Order.Ring.Nat
import SovereignJedi.Registry.Publish

/-! The bytes of a registry account: its Borsh encoding after the discriminator, and the space that
`init_registry` allocates for it. -/

namespace SovereignJedi.Registry

/-! ### Borsh -/

namespace Borsh

/-- `n` in `width` bytes, the least significant one first. -/
def littleEndian (n : Nat) : (width : Nat) → List UInt8
  | 0 => []
  | width + 1 => UInt8.ofNat n :: littleEndian (n / 256) width

def u32 (n : Nat) : List UInt8 := littleEndian n 4

def i64 (n : Int64) : List UInt8 := littleEndian n.toUInt64.toNat 8

def string (s : String) : List UInt8 := u32 (asBytes s).length ++ asBytes s

def vec {α : Type} (element : α → List UInt8) (xs : List α) : List UInt8 :=
  u32 xs.length ++ xs.flatMap element

@[simp] theorem length_littleEndian (n width : Nat) : (littleEndian n width).length = width := by
  induction width generalizing n with
  | zero => rfl
  | succ width ih => rw [littleEndian, List.length_cons, ih]

@[simp] theorem length_i64 (n : Int64) : (i64 n).length = 8 := length_littleEndian _ _

@[simp] theorem length_string (s : String) : (string s).length = 4 + s.utf8ByteSize := by
  rw [string, List.length_append, u32, length_littleEndian]
  rfl

/-- Elements of at most `n` bytes. -/
theorem length_vec_le {α : Type} {element : α → List UInt8} {n : Nat} {xs : List α}
    (h : ∀ x ∈ xs, (element x).length ≤ n) : (vec element xs).length ≤ 4 + xs.length * n := by
  rw [vec, List.length_append, u32, length_littleEndian, List.length_flatMap]
  have hsum := List.sum_le_card_nsmul (xs.map fun x => (element x).length) n (by simpa using h)
  rw [List.length_map, smul_eq_mul] at hsum
  omega

end Borsh

/-! ### Accounts -/

variable {Pubkey Address : Type}

/-- How accounts are written: the 32 bytes of a public key, and the eight bytes that Anchor puts
before the fields of an account. -/
structure Layout (Pubkey : Type) where
  pubkey : Pubkey → Hash
  discriminator : { b : List UInt8 // b.length = 8 }

variable (L : Layout Pubkey)

def RegistryEntry.serialize (e : RegistryEntry Pubkey) : List UInt8 :=
  Borsh.string e.manifestCid ++ e.manifestCidHash.1 ++ Borsh.i64 e.publishedAt ++
    (L.pubkey e.publisher).1 ++ [e.manifestSchemaVersion]

def RegistryAccount.serialize (a : RegistryAccount Pubkey) : List UInt8 :=
  [a.registryVersion] ++ [a.manifestSchemaVersion] ++ (L.pubkey a.wallet).1 ++
    Borsh.string a.vaultId ++ Borsh.vec (RegistryEntry.serialize L) a.entries ++
    Borsh.i64 a.createdAt ++ Borsh.i64 a.updatedAt

/-- What the account's buffer has to hold. -/
def RegistryAccount.data (a : RegistryAccount Pubkey) : List UInt8 :=
  L.discriminator.1 ++ a.serialize L

/-- `RegistryAccount::SPACE`. -/
def space : Nat :=
  8 + 1 + 1 + 32 + (4 + maxVaultIdLen) + 4 + maxEntries * ((4 + maxCidLen) + 32 + 8 + 32 + 1) + 8 + 8

inductive TransactionError where
  | program (e : ProgramError)
  | accountDidNotSerialize
  deriving DecidableEq, Repr

/-- An instruction with Anchor's exit: the account is written to its buffer of `space` bytes, which
fails when it does not fit. -/
def processAndExit [DecidableEq Pubkey] [DecidableEq Address] (rt : Runtime Pubkey Address)
    (s : Accounts Pubkey Address) (ix : Instruction Pubkey Address) :
    Except TransactionError (Accounts Pubkey Address) := do
  let s' ← (process rt s ix).mapError .program
  match s' ix.ctx.registry with
  | none => return s'
  | some a =>
    if (a.data L).length ≤ space then return s' else throw .accountDidNotSerialize

/-- A run whose instructions are written back. -/
abbrev ExitRun [DecidableEq Pubkey] [DecidableEq Address] (rt : Runtime Pubkey Address) :
    Accounts Pubkey Address → Accounts Pubkey Address → Prop :=
  Relation.ReflTransGen fun s s' => ∃ ix, processAndExit L rt s ix = .ok s'

theorem RegistryEntry.length_serialize (e : RegistryEntry Pubkey) :
    (e.serialize L).length = 4 + e.manifestCid.utf8ByteSize + 32 + 8 + 32 + 1 := by
  simp only [serialize, List.length_append, Borsh.length_string, Borsh.length_i64,
    e.manifestCidHash.2, (L.pubkey e.publisher).2, List.length_singleton]

theorem utf8ByteSize_le_of_validateCidStrict {cid : String} (h : validateCidStrict cid = .ok ()) :
    cid.utf8ByteSize ≤ maxCidLen := by
  rw [validateCidStrict] at h
  obtain ⟨_, hlen, -⟩ := except_bind_eq_ok.mp h
  exact of_decide_eq_true (require_eq_ok.mp hlen)

variable {rt : Runtime Pubkey Address} {owner : Pubkey} {hash : Hash}
  {a : RegistryAccount Pubkey}

/-- The validators and the entry limit keep an account within its space. -/
theorem WellFormed.length_data_le (h : WellFormed rt owner hash a) :
    (a.data L).length ≤ space := by
  have hvault := h.vaultId.utf8ByteSize_le
  have hentry : ∀ e ∈ a.entries, (RegistryEntry.serialize L e).length ≤
      (4 + maxCidLen) + 32 + 8 + 32 + 1 := by
    intro e he
    have hcid := utf8ByteSize_le_of_validateCidStrict (h.entries e he).manifestCid
    rw [RegistryEntry.length_serialize]
    omega
  have hentries := Borsh.length_vec_le hentry
  have hvec := hentries.trans
    (Nat.add_le_add_left (Nat.mul_le_mul_right ((4 + maxCidLen) + 32 + 8 + 32 + 1) h.entries_le) 4)
  simp only [RegistryAccount.data, RegistryAccount.serialize, List.length_append,
    L.discriminator.2, (L.pubkey a.wallet).2, Borsh.length_string, Borsh.length_i64,
    List.length_singleton]
  unfold space
  omega

variable [DecidableEq Pubkey] [DecidableEq Address]

theorem processAndExit_eq_ok {s s' : Accounts Pubkey Address} {ix : Instruction Pubkey Address} :
    processAndExit L rt s ix = .ok s' ↔ process rt s ix = .ok s' ∧
      ∀ a, s' ix.ctx.registry = some a → (a.data L).length ≤ space := by
  simp only [processAndExit, except_bind_eq_ok, mapError_eq_ok]
  constructor
  · rintro ⟨t, hp, hexit⟩
    split at hexit
    · next hnone =>
      obtain rfl := except_pure_eq_ok.mp hexit
      exact ⟨hp, fun a ha => by rw [hnone] at ha; cases ha⟩
    · next b hb =>
      split at hexit
      · next hfits =>
        obtain rfl := except_pure_eq_ok.mp hexit
        refine ⟨hp, fun a ha => ?_⟩
        obtain rfl := Option.some_inj.mp (hb.symm.trans ha)
        exact hfits
      · cases hexit
  · rintro ⟨hp, hfits⟩
    refine ⟨s', hp, ?_⟩
    split
    · rfl
    · next b hb => exact if_pos (hfits b hb)

theorem Invariant.process {s s' : Accounts Pubkey Address} {ix : Instruction Pubkey Address}
    (h : Invariant rt s) (hp : process rt s ix = .ok s') : Invariant rt s' := by
  have hexecute : Registry.execute rt s ix = s' := by rw [Registry.execute, hp]
  exact hexecute ▸ h.execute ix

omit [DecidableEq Pubkey] [DecidableEq Address] in
theorem Invariant.fits {s : Accounts Pubkey Address} (h : Invariant rt s) {address : Address}
    (ha : s address = some a) : (a.data L).length ≤ space :=
  (h address a ha).2.length_data_le L

/-- No account outgrows its space: in every state that is reached, with or without the writing back
of accounts, and after every instruction that the checks let pass, which is therefore written
back. -/
theorem account_fits {s : Accounts Pubkey Address}
    (hrun : Run rt (fun _ => none) s ∨ ExitRun L rt (fun _ => none) s) :
    (∀ address a, s address = some a → (a.data L).length ≤ space) ∧
    ∀ ix s', process rt s ix = .ok s' →
      (∀ address a, s' address = some a → (a.data L).length ≤ space) ∧
      processAndExit L rt s ix = .ok s' := by
  have hinv : Invariant rt s := by
    rcases hrun with hrun | hrun
    · exact invariant_of_run hrun
    · induction hrun with
      | refl => exact fun _ _ h => by cases h
      | tail _ hstep ih =>
        obtain ⟨ix, hix⟩ := hstep
        exact ih.process ((processAndExit_eq_ok L).mp hix).1
  refine ⟨fun address a ha => hinv.fits L ha, fun ix s' hp => ?_⟩
  have hinv' := hinv.process hp
  exact ⟨fun address a ha => hinv'.fits L ha,
    (processAndExit_eq_ok L).mpr ⟨hp, fun a ha => hinv'.fits L ha⟩⟩

def sampleLayout : Layout Nat where
  pubkey n := ⟨List.replicate 32 (UInt8.ofNat n), List.length_replicate⟩
  discriminator := ⟨List.replicate 8 (UInt8.ofNat 1), List.length_replicate⟩

theorem account_fits_sample : (sampleAccount.data sampleLayout).length ≤ space :=
  have hrun : Run sampleRuntime (fun _ => none) sampleAccounts :=
    .tail (.single ⟨.initRegistry sampleContext "local-default" sampleHash 1, rfl⟩)
      ⟨.appendManifest sampleContext sampleHash "bafy2" 1, rfl⟩
  (account_fits sampleLayout (Or.inl hrun)).1 (7, sampleHash) sampleAccount rfl

end SovereignJedi.Registry
