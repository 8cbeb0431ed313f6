import Mathlib.Logic.Function.Basic
import Mathlib.Logic.Relation

/-! The registry program of `lib.rs`. A registry account lives at the address that is derived from a
wallet and a vault id hash; `init_registry` creates it and `append_manifest` adds an entry to it. An
instruction first passes the account constraints, which Anchor enforces, then its handler; an error
of either aborts it with no effect. -/

namespace SovereignJedi.Registry

def maxEntries : Nat := 32
def maxCidLen : Nat := 64
def maxVaultIdLen : Nat := 32

inductive ErrorCode where
  | registryFull | invalidSchemaVersion | duplicateEntry | invalidVaultIdHash
  | invalidVaultIdFormat | invalidCidFormat | cidTooLong
  deriving DecidableEq, Repr

/-- Why an instruction is rejected: by a constraint on its accounts, or by its handler. -/
inductive ProgramError where
  | accountNotSigner | constraintSeeds | accountInUse | accountNotInitialized | constraintHasOne
  | custom (code : ErrorCode)
  deriving DecidableEq, Repr

/-- `[u8; 32]`. -/
abbrev Hash := { b : List UInt8 // b.length = 32 }

section Accounts

variable (Pubkey Address : Type)

structure RegistryEntry where
  manifestCid : String
  manifestCidHash : Hash
  publishedAt : Int64
  publisher : Pubkey
  manifestSchemaVersion : UInt8

structure RegistryAccount where
  registryVersion : UInt8
  manifestSchemaVersion : UInt8
  wallet : Pubkey
  vaultId : String
  entries : List (RegistryEntry Pubkey)
  createdAt : Int64
  updatedAt : Int64

/-- The accounts that the program owns. -/
abbrev Accounts := Address → Option (RegistryAccount Pubkey)

/-- What the program runs on. `registryAddress` gives the address derived from the seeds
`["SJ_REGISTRY_V1", wallet, vault_id_hash]`, and `toLowercase` is that of Rust strings. -/
structure Runtime where
  hash : List UInt8 → Hash
  registryAddress : Pubkey → Hash → Address
  toLowercase : String → String

/-- The accounts that an instruction is called with, whether the wallet has signed it, and the
clock. -/
structure Context where
  registry : Address
  wallet : Pubkey
  walletIsSigner : Bool
  unixTimestamp : Int64

inductive Instruction where
  | initRegistry (ctx : Context Pubkey Address) (vaultId : String) (vaultIdHash : Hash)
      (manifestSchemaVersion : UInt8)
  | appendManifest (ctx : Context Pubkey Address) (vaultIdHash : Hash) (manifestCid : String)
      (manifestSchemaVersion : UInt8)

end Accounts

variable {Pubkey Address : Type}

def Instruction.ctx : Instruction Pubkey Address → Context Pubkey Address
  | .initRegistry ctx _ _ _ => ctx
  | .appendManifest ctx _ _ _ => ctx

/-! ### Strings -/

/-- `s.as_bytes()`. -/
def asBytes (s : String) : List UInt8 := s.toByteArray.data.toList

/-- `char::is_whitespace`. -/
def isWhitespace (c : Char) : Bool :=
  let n := c.toNat
  (0x9 ≤ n && n ≤ 0xd) || n == 0x20 || n == 0x85 || n == 0xa0 || n == 0x1680 ||
    (0x2000 ≤ n && n ≤ 0x200a) || n == 0x2028 || n == 0x2029 || n == 0x202f || n == 0x205f ||
    n == 0x3000

/-- `str::trim`. -/
def trim (s : String) : String :=
  .ofList ((s.toList.dropWhile isWhitespace).reverse.dropWhile isWhitespace).reverse

def isAsciiLowercase (c : Char) : Bool := 'a' ≤ c && c ≤ 'z'
def isAsciiUppercase (c : Char) : Bool := 'A' ≤ c && c ≤ 'Z'
def isAsciiDigit (c : Char) : Bool := '0' ≤ c && c ≤ '9'

/-- The characters of a canonical vault id. -/
def isVaultIdChar (c : Char) : Bool :=
  isAsciiLowercase c || isAsciiDigit c || c == '-' || c == '_'

/-- The characters of a base 32 CID. -/
def isBase32Char (c : Char) : Bool := isAsciiLowercase c || ('2' ≤ c && c ≤ '7')

def base58Chars : List Char :=
  "123456789ABCDEFGHJKLMNPQRSTUVWXYZabcdefghijkmnopqrstuvwxyz".toList

/-- `require!`. -/
def require (b : Bool) (e : ErrorCode) : Except ErrorCode Unit := if b then .ok () else .error e

def validateAndCanonicalizeVaultId (toLowercase : String → String) (id : String) :
    Except ErrorCode String := do
  let lower := toLowercase (trim id)
  require (!lower.isEmpty && decide (lower.utf8ByteSize ≤ maxVaultIdLen)) .invalidVaultIdFormat
  require (lower.toList.all isVaultIdChar) .invalidVaultIdFormat
  require (!(id.toList.contains ' ' || id.toList.any isAsciiUppercase)) .invalidVaultIdFormat
  return lower

def validateCidStrict (cid : String) : Except ErrorCode Unit := do
  require (decide (cid.utf8ByteSize ≤ maxCidLen)) .cidTooLong
  require (!cid.isEmpty) .invalidCidFormat
  match cid.toList with
  | 'b' :: cs => require (cs.all isBase32Char) .invalidCidFormat
  | 'Q' :: 'm' :: _ => require (cid.toList.all base58Chars.contains) .invalidCidFormat
  | _ => throw .invalidCidFormat

/-! ### Instructions -/

variable [DecidableEq Pubkey] [DecidableEq Address] (rt : Runtime Pubkey Address)

def constraint (b : Bool) (e : ProgramError) : Except ProgramError Unit :=
  if b then .ok () else .error e

/-- The account that is passed as `Account<'info, RegistryAccount>`. -/
def loadAccount (s : Accounts Pubkey Address) (address : Address) :
    Except ProgramError (RegistryAccount Pubkey) :=
  match s address with
  | some registry => .ok registry
  | none => .error .accountNotInitialized

/-- The constraints of `InitRegistry`: `init` and the seeds. -/
def InitRegistry (s : Accounts Pubkey Address) (ctx : Context Pubkey Address) (vaultIdHash : Hash) :
    Except ProgramError Unit := do
  constraint ctx.walletIsSigner .accountNotSigner
  constraint (ctx.registry = rt.registryAddress ctx.wallet vaultIdHash) .constraintSeeds
  constraint (s ctx.registry).isNone .accountInUse

/-- The constraints of `AppendManifest`: the seeds and `has_one`. -/
def AppendManifest (s : Accounts Pubkey Address) (ctx : Context Pubkey Address)
    (vaultIdHash : Hash) : Except ProgramError (RegistryAccount Pubkey) := do
  let registry ← loadAccount s ctx.registry
  constraint ctx.walletIsSigner .accountNotSigner
  constraint (ctx.registry = rt.registryAddress ctx.wallet vaultIdHash) .constraintSeeds
  constraint (registry.wallet = ctx.wallet) .constraintHasOne
  return registry

/-- The account that `init_registry` fills in. -/
def initRegistry (ctx : Context Pubkey Address) (vaultId : String) (vaultIdHash : Hash)
    (manifestSchemaVersion : UInt8) : Except ErrorCode (RegistryAccount Pubkey) := do
  require (manifestSchemaVersion == 1) .invalidSchemaVersion
  let canonicalId ← validateAndCanonicalizeVaultId rt.toLowercase vaultId
  require (rt.hash (asBytes canonicalId) = vaultIdHash) .invalidVaultIdHash
  return {
    registryVersion := 1
    manifestSchemaVersion
    wallet := ctx.wallet
    vaultId := canonicalId
    entries := []
    createdAt := ctx.unixTimestamp
    updatedAt := ctx.unixTimestamp }

/-- The entry that `append_manifest` pushes. -/
def newEntry (ctx : Context Pubkey Address) (manifestCid : String) (manifestSchemaVersion : UInt8) :
    RegistryEntry Pubkey where
  manifestCid
  manifestCidHash := rt.hash (asBytes manifestCid)
  publishedAt := ctx.unixTimestamp
  publisher := ctx.wallet
  manifestSchemaVersion

/-- The account `registry` after `append_manifest`. -/
def appendManifest (ctx : Context Pubkey Address) (registry : RegistryAccount Pubkey)
    (vaultIdHash : Hash) (manifestCid : String) (manifestSchemaVersion : UInt8) :
    Except ErrorCode (RegistryAccount Pubkey) := do
  require (manifestSchemaVersion == 1) .invalidSchemaVersion
  require (decide (registry.entries.length < maxEntries)) .registryFull
  validateCidStrict manifestCid
  require (rt.hash (asBytes registry.vaultId) = vaultIdHash) .invalidVaultIdHash
  registry.entries.forM fun entry => require (entry.manifestCid != manifestCid) .duplicateEntry
  return { registry with
    entries := registry.entries ++ [newEntry rt ctx manifestCid manifestSchemaVersion]
    updatedAt := ctx.unixTimestamp }

/-- The accounts after an instruction that succeeds. -/
def process (s : Accounts Pubkey Address) :
    Instruction Pubkey Address → Except ProgramError (Accounts Pubkey Address)
  | .initRegistry ctx vaultId vaultIdHash manifestSchemaVersion => do
    InitRegistry rt s ctx vaultIdHash
    let registry ← (initRegistry rt ctx vaultId vaultIdHash manifestSchemaVersion).mapError .custom
    return Function.update s ctx.registry (some registry)
  | .appendManifest ctx vaultIdHash manifestCid manifestSchemaVersion => do
    let registry ← AppendManifest rt s ctx vaultIdHash
    let registry ← (appendManifest rt ctx registry vaultIdHash manifestCid
      manifestSchemaVersion).mapError .custom
    return Function.update s ctx.registry (some registry)

/-- The accounts after an instruction. -/
def execute (s : Accounts Pubkey Address) (ix : Instruction Pubkey Address) :
    Accounts Pubkey Address :=
  match process rt s ix with
  | .ok s' => s'
  | .error _ => s

/-- `t` is reached from `s` by instructions, successful or rejected. -/
abbrev Run : Accounts Pubkey Address → Accounts Pubkey Address → Prop :=
  Relation.ReflTransGen fun s s' => ∃ ix, s' = execute rt s ix

end SovereignJedi.Registry
