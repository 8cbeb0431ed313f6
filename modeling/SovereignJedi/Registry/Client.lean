import SovereignJedi.Js.Unicode
import SovereignJedi.Registry.Invariant

/-! The client of the registry program (`solana-registry`), and the vault ids on which the two
agree. Both trim and lower-case a vault id, but each by the white space of its own language: the
program removes the control character U+0085, which JavaScript keeps. -/

namespace SovereignJedi.Registry

open SovereignJedi.Js (UnicodeData trimBy trimBy_congr mem_trimBy trimBy_eq_self isSpace)
open SovereignJedi.Js.UnicodeData

variable {Pubkey Address : Type}

/-! ### Instructions of the client -/

section Client

variable (U : UnicodeData) (rt : Runtime Pubkey Address)

/-- `vaultId.trim().toLowerCase()`. -/
def vaultIdCanonical (vaultId : String) : String := U.toLowercase (Js.trim vaultId)

def vaultIdHash (vaultId : String) : Hash := rt.hash (asBytes (vaultIdCanonical U vaultId))

def getRegistryAddress (wallet : Pubkey) (vaultId : String) : Address :=
  rt.registryAddress wallet (vaultIdHash U rt vaultId)

/-- The account that `fetchRegistry` finds, or `null`. -/
def fetchRegistry (s : Accounts Pubkey Address) (wallet : Pubkey) (vaultId : String) :
    Option (RegistryAccount Pubkey) :=
  s (getRegistryAddress U rt wallet vaultId)

/-- The accounts of an instruction: the registry, and the wallet, which signs. `now` is the clock of
the block that executes it. -/
def clientContext (wallet : Pubkey) (vaultId : String) (now : Int64) : Context Pubkey Address where
  registry := getRegistryAddress U rt wallet vaultId
  wallet
  walletIsSigner := true
  unixTimestamp := now

def createInitRegistryInstruction (wallet : Pubkey) (vaultId : String)
    (manifestSchemaVersion : UInt8) (now : Int64) : Instruction Pubkey Address :=
  .initRegistry (clientContext U rt wallet vaultId now) vaultId (vaultIdHash U rt vaultId)
    manifestSchemaVersion

def createAppendManifestInstruction (wallet : Pubkey) (vaultId manifestCid : String)
    (manifestSchemaVersion : UInt8) (now : Int64) : Instruction Pubkey Address :=
  .appendManifest (clientContext U rt wallet vaultId now) (vaultIdHash U rt vaultId) manifestCid
    manifestSchemaVersion

end Client

/-! ### Vault ids -/

variable {U : UnicodeData} {rt : Runtime Pubkey Address}

theorem trim_eq_trimBy (s : String) : trim s = .ofList (trimBy isWhitespace s.toList) := rfl

theorem js_trim_eq_trimBy (s : String) : Js.trim s = .ofList (trimBy isSpace s.toList) := rfl

/-- The white space of the two languages differs in two characters. -/
theorem isWhitespace_eq_isSpace {c : Char} (hnext : c ≠ nextLine) (hbom : c ≠ zeroWidthNoBreakSpace) :
    isWhitespace c = isSpace c := by
  have hnext' : c.toNat ≠ 0x85 := fun h => hnext (by rw [← Char.ofNat_toNat c, h]; rfl)
  have hbom' : c.toNat ≠ 0xFEFF := fun h => hbom (by rw [← Char.ofNat_toNat c, h]; rfl)
  rw [Bool.eq_iff_iff]
  simp [isWhitespace, isSpace]
  omega

/-- What is said of a vault id that the program accepts. -/
theorem validateAndCanonicalizeVaultId_eq_ok {lower : String → String} {id id' : String}
    (h : validateAndCanonicalizeVaultId lower id = .ok id') :
    id' = lower (trim id) ∧ ∀ c ∈ id'.toList, isVaultIdChar c = true := by
  simp only [validateAndCanonicalizeVaultId, except_bind_eq_ok, require_eq_ok, exists_const,
    except_pure_eq_ok, List.all_eq_true] at h
  obtain ⟨-, hchars, -, rfl⟩ := h
  exact ⟨rfl, hchars⟩

/-- A character without case that is in no canonical vault id is not left by the trimming. -/
theorem not_mem_of_canonical {space : Char → Bool} {id : String} {c : Char}
    (hchars : ∀ d ∈ (U.toLowercase (.ofList (trimBy space id.toList))).toList, isVaultIdChar d = true)
    (hlower : U.lowercase c = [c]) (hsigma : c ≠ capitalSigma) (hspace : space c = false)
    (hc : isVaultIdChar c = false) : c ∉ id.toList := by
  intro hmem
  have hkept := mem_toLowercase (U := U) hlower hsigma
    (s := .ofList (trimBy space id.toList)) (by simpa using mem_trimBy hmem hspace)
  rw [hchars c hkept] at hc
  cases hc

/-- The client trims what the program trims when U+0085 is not in the vault id. -/
theorem vaultIdCanonical_eq (hU : U.Standard) {id canonical : String}
    (h : validateAndCanonicalizeVaultId U.toLowercase id = .ok canonical)
    (hnext : nextLine ∉ id.toList) : vaultIdCanonical U id = canonical := by
  obtain ⟨rfl, hchars⟩ := validateAndCanonicalizeVaultId_eq_ok h
  have hbom : zeroWidthNoBreakSpace ∉ id.toList :=
    not_mem_of_canonical hchars hU.zeroWidthNoBreakSpace (by decide) (by decide) (by decide)
  have htrim : trimBy isWhitespace id.toList = trimBy isSpace id.toList := by
    apply trimBy_congr
    intro c hc
    apply isWhitespace_eq_isSpace
    · rintro rfl
      exact hnext hc
    · rintro rfl
      exact hbom hc
  rw [vaultIdCanonical, js_trim_eq_trimBy, trim_eq_trimBy, htrim]

theorem not_mem_nextLine (hU : U.Standard) {id canonical : String}
    (h : validateAndCanonicalizeVaultId U.toLowercase id = .ok canonical)
    (hcanonical : vaultIdCanonical U id = canonical) : nextLine ∉ id.toList := by
  obtain ⟨-, hchars⟩ := validateAndCanonicalizeVaultId_eq_ok h
  rw [← hcanonical] at hchars
  exact not_mem_of_canonical hchars hU.nextLine (by decide) (by decide) (by decide)

/-! ### Agreement -/

variable [DecidableEq Pubkey] [DecidableEq Address]

/-- The account that the client initialises for `wallet`. -/
def initialAccount (wallet : Pubkey) (vaultId : String) (now : Int64) : RegistryAccount Pubkey where
  registryVersion := 1
  manifestSchemaVersion := 1
  wallet
  vaultId
  entries := []
  createdAt := now
  updatedAt := now

/-- An initialisation with the hash that the program computes goes through where there is no
registry. -/
theorem process_createInitRegistryInstruction {s : Accounts Pubkey Address} {wallet : Pubkey}
    {vaultId canonical : String} (now : Int64)
    (hvalid : validateAndCanonicalizeVaultId rt.toLowercase vaultId = .ok canonical)
    (hhash : rt.hash (asBytes canonical) = vaultIdHash U rt vaultId)
    (hfresh : fetchRegistry U rt s wallet vaultId = none) :
    process rt s (createInitRegistryInstruction U rt wallet vaultId 1 now) =
      .ok (Function.update s (getRegistryAddress U rt wallet vaultId)
        (some (initialAccount wallet canonical now))) := by
  have hfresh' : (s (clientContext U rt wallet vaultId now).registry).isNone = true := by
    rw [Option.isNone_iff_eq_none]
    exact hfresh
  have hhandler : initRegistry rt (clientContext U rt wallet vaultId now) vaultId
      (vaultIdHash U rt vaultId) 1 = .ok (initialAccount wallet canonical now) := by
    refine except_bind_eq_ok.mpr ⟨(), rfl, except_bind_eq_ok.mpr ⟨canonical, hvalid, ?_⟩⟩
    exact except_bind_eq_ok.mpr ⟨(), require_eq_ok.mpr (decide_eq_true hhash), rfl⟩
  have hconstraints : InitRegistry rt s (clientContext U rt wallet vaultId now)
      (vaultIdHash U rt vaultId) = .ok () := by
    simp only [InitRegistry, hfresh', constraint_eq_ok, except_bind_eq_ok, exists_const]
    exact ⟨rfl, decide_eq_true rfl, trivial⟩
  rw [createInitRegistryInstruction, process, hconstraints, hhandler]
  rfl

/-- The client computes the canonical form of the program; so its hash is accepted, and it finds the
registry that it has created. -/
structure Agree (U : UnicodeData) (rt : Runtime Pubkey Address) (vaultId canonical : String) :
    Prop where
  canonical_eq : vaultIdCanonical U vaultId = canonical
  hash : rt.hash (asBytes canonical) = vaultIdHash U rt vaultId
  found : ∀ (s : Accounts Pubkey Address) (wallet : Pubkey) (now : Int64),
    fetchRegistry U rt s wallet vaultId = none →
      ∃ s' a, process rt s (createInitRegistryInstruction U rt wallet vaultId 1 now) = .ok s' ∧
        fetchRegistry U rt s' wallet vaultId = some a ∧ a.vaultId = canonical

/-- On a vault id that the program accepts, the two agree exactly when it does not contain
U+0085. -/
theorem agree_iff (hU : U.Standard) (hlower : rt.toLowercase = U.toLowercase) {vaultId canonical : String}
    (h : validateAndCanonicalizeVaultId rt.toLowercase vaultId = .ok canonical) :
    Agree U rt vaultId canonical ↔ nextLine ∉ vaultId.toList := by
  constructor
  · intro hagree
    exact not_mem_nextLine hU (hlower ▸ h) hagree.canonical_eq
  · intro hnext
    have hcanonical := vaultIdCanonical_eq hU (hlower ▸ h) hnext
    have hhash : rt.hash (asBytes canonical) = vaultIdHash U rt vaultId := by
      rw [vaultIdHash, hcanonical]
    refine ⟨hcanonical, hhash, fun s wallet now hfresh => ?_⟩
    exact ⟨_, _, process_createInitRegistryInstruction now h hhash hfresh,
      Function.update_self .., rfl⟩

/-- The sample runtime, with lower-casing. -/
def latinRuntime : Runtime Nat (Nat × Hash) :=
  { sampleRuntime with toLowercase := basicLatin.toLowercase }

theorem agree_iff_sample : Agree basicLatin latinRuntime "local-default" "local-default" :=
  (agree_iff basicLatin_standard rfl (by decide)).mpr (by decide)

/-- The program accepts a vault id with U+0085 in front, and the client asks for another one. -/
theorem nextLine_disagrees :
    validateAndCanonicalizeVaultId latinRuntime.toLowercase (.ofList [nextLine, 'a']) = .ok "a" ∧
      ¬ Agree basicLatin latinRuntime (.ofList [nextLine, 'a']) "a" := by
  have hvalid : validateAndCanonicalizeVaultId basicLatin.toLowercase (.ofList [nextLine, 'a']) =
      .ok "a" := by decide
  refine ⟨hvalid, fun h => not_mem_nextLine basicLatin_standard hvalid h.canonical_eq ?_⟩
  simp

end SovereignJedi.Registry
