import SovereignJedi.Crypto.Kek

/-! The two messages that a wallet signs to unlock its vault: `SJ_UNLOCK_V1`, which expires, and
`SJ_VAULT_ROOT_V1`, which depends on the wallet and the vault only. -/

namespace SovereignJedi.Crypto

open SovereignJedi.Js

/-- The varying fields of the canonical object. -/
structure UnlockMessageV1 where
  origin : String
  wallet : String
  nonce : String
  issuedAt : String
  expiresAt : String
  vaultId : String

def UnlockMessageV1.toJson (m : UnlockMessageV1) : Json :=
  .obj [("sj", .str "SovereignJedi"), ("ver", .str "1"), ("type", .str "UNLOCK"),
    ("origin", .str m.origin), ("wallet", .str m.wallet), ("nonce", .str m.nonce),
    ("issuedAt", .str m.issuedAt), ("expiresAt", .str m.expiresAt), ("vaultId", .str m.vaultId)]

/-- The wallet is `null` when it has been disconnected while the message was being prepared. -/
structure VaultRootMessageV1 where
  wallet : Option String
  vaultId : String

def VaultRootMessageV1.toJson (m : VaultRootMessageV1) : Json :=
  .obj [("sj", .str "SovereignJedi"), ("ver", .str "1"), ("type", .str "VAULT_ROOT"),
    ("wallet", orElse (m.wallet.map .str) .null), ("vaultId", .str m.vaultId)]

structure BuildUnlockResult where
  canonicalObject : UnlockMessageV1
  messageToSign : String

structure BuildVaultRootResult where
  canonicalObject : VaultRootMessageV1
  messageToSign : String

structure UnlockParams where
  origin : Option String
  wallet : String
  vaultId : Option String
  nonceBytes : Option Bytes
  issuedAt : Option String
  expiresAt : Option String

structure VaultRootParams where
  wallet : Option String
  vaultId : Option String

variable (P : Platform) (D : Dates)

def canonicalizeJSON (obj : Json) : Result String :=
  match P.canonicalize obj with
  | some s => .ok s
  | none => .error (.error "Canonicalization failed: canonicalize() did not return a string")

/-- `new Date(Date.parse(issuedAt) + ms).toISOString()`. -/
def isoAfter (issuedAt : String) (ms : Int) : Result String :=
  match D.parse issuedAt with
  | some t => D.toISOString (t + ms)
  | none => .error (.rangeError "Invalid time value")

/-- `t ?? d`. -/
def givenOr (t : Option String) (d : Result String) : Result String :=
  match t with
  | some t => .ok t
  | none => d

/-- `draw` is the nonce that is used when none is given. -/
def buildUnlockMessageV1 (windowOrigin : String) (nowMs : Int) (draw : RandomBytes 16)
    (params : UnlockParams) : Result BuildUnlockResult := do
  let issuedAt ← givenOr params.issuedAt (D.toISOString nowMs)
  let expiresAt ← givenOr params.expiresAt (isoAfter D issuedAt (10 * 60 * 1000))
  let nonceBytes := params.nonceBytes.getD draw.1
  require (nonceBytes.length == 16) "nonceBytes must be 16 bytes"
  let canonicalObject : UnlockMessageV1 := {
    origin := params.origin.getD windowOrigin
    wallet := params.wallet
    nonce := P.toBase64 nonceBytes
    issuedAt
    expiresAt
    vaultId := params.vaultId.getD "local-default" }
  let jcs ← canonicalizeJSON P canonicalObject.toJson
  return { canonicalObject, messageToSign := "SJ_UNLOCK_V1\n" ++ jcs }

def buildVaultRootMessageV1 (params : VaultRootParams) : Result BuildVaultRootResult := do
  let canonicalObject : VaultRootMessageV1 :=
    { wallet := params.wallet, vaultId := params.vaultId.getD "local-default" }
  let jcs ← canonicalizeJSON P canonicalObject.toJson
  return { canonicalObject, messageToSign := "SJ_VAULT_ROOT_V1\n" ++ jcs }

def assertUnlockNotExpired (unlock : BuildUnlockResult) (nowMs : Int) : Result Unit :=
  let expiresAt := unlock.canonicalObject.expiresAt
  match D.parse expiresAt with
  | none => .error (.error "Unlock message expired")
  | some ts => require (expiresAt != "" && decide (nowMs < ts)) "Unlock message expired"

def deriveKekFromUnlockSignature (signatureBytes : Bytes) (saltBytes : Option Bytes)
    (unlock : BuildUnlockResult) (nowMs : Int) : Result Bytes := do
  assertUnlockNotExpired D unlock nowMs
  deriveKekFromSignature P signatureBytes saltBytes

variable {P D}

/-! ### What is built -/

theorem canonicalizeJSON_ok (hP : P.Lawful) {j : Json} (hj : j.WF) :
    ∃ s, canonicalizeJSON P j = .ok s := by
  obtain ⟨s, hs⟩ := hP.canonicalize_some hj
  exact ⟨s, by rw [canonicalizeJSON, hs]⟩

theorem UnlockMessageV1.toJson_wf (m : UnlockMessageV1) : m.toJson.WF := by
  refine .obj (show Json.OwnKeys ["sj", "ver", "type", "origin", "wallet", "nonce", "issuedAt",
    "expiresAt", "vaultId"] by decide) ?_
  simp only [List.mem_cons, List.not_mem_nil, or_false, forall_eq_or_imp, forall_eq]
  exact ⟨.str _, .str _, .str _, .str _, .str _, .str _, .str _, .str _, .str _⟩

theorem VaultRootMessageV1.toJson_wf (m : VaultRootMessageV1) : m.toJson.WF := by
  refine .obj (show Json.OwnKeys ["sj", "ver", "type", "wallet", "vaultId"] by decide) ?_
  have hwallet : (orElse (m.wallet.map .str) .null).WF := by
    cases m.wallet
    · exact .null
    · exact .str _
  simp only [List.mem_cons, List.not_mem_nil, or_false, forall_eq_or_imp, forall_eq]
  exact ⟨.str _, .str _, .str _, hwallet, .str _⟩

/-- With both times given, only the times and the nonce decide whether the message is built. -/
theorem buildUnlockMessageV1_ok (hP : P.Lawful) (windowOrigin : String) (nowMs : Int)
    (draw : RandomBytes 16) (params : UnlockParams) (hnonce : params.nonceBytes = none)
    {issuedAt expiresAt : String} (hissued : params.issuedAt = some issuedAt)
    (hexpires : params.expiresAt = some expiresAt) :
    ∃ unlock, buildUnlockMessageV1 P D windowOrigin nowMs draw params = .ok unlock ∧
      unlock.canonicalObject.expiresAt = expiresAt := by
  let canonicalObject : UnlockMessageV1 := {
    origin := params.origin.getD windowOrigin
    wallet := params.wallet
    nonce := P.toBase64 draw.1
    issuedAt
    expiresAt
    vaultId := params.vaultId.getD "local-default" }
  obtain ⟨jcs, hjcs⟩ := canonicalizeJSON_ok hP canonicalObject.toJson_wf
  refine ⟨{ canonicalObject, messageToSign := "SJ_UNLOCK_V1\n" ++ jcs }, ?_, rfl⟩
  simp only [buildUnlockMessageV1, hnonce, hissued, hexpires, givenOr, ok_bind, Option.getD_none, draw.2,
    beq_self_eq_true, require_true]
  rw [hjcs]
  rfl

theorem buildVaultRootMessageV1_ok (hP : P.Lawful) (params : VaultRootParams) :
    ∃ root, buildVaultRootMessageV1 P params = .ok root := by
  obtain ⟨jcs, hjcs⟩ := canonicalizeJSON_ok hP (VaultRootMessageV1.toJson_wf
    { wallet := params.wallet, vaultId := params.vaultId.getD "local-default" })
  exact ⟨_, by rw [buildVaultRootMessageV1, hjcs]; rfl⟩

/-- An unlock message begins with its template. -/
theorem buildUnlockMessageV1_message {windowOrigin : String} {nowMs : Int} {draw : RandomBytes 16}
    {params : UnlockParams} {unlock : BuildUnlockResult}
    (h : buildUnlockMessageV1 P D windowOrigin nowMs draw params = .ok unlock) :
    ∃ jcs, unlock.messageToSign = "SJ_UNLOCK_V1\n" ++ jcs := by
  simp only [buildUnlockMessageV1, bind_eq_ok] at h
  obtain ⟨_, -, _, -, _, -, jcs, -, hunlock⟩ := h
  obtain rfl := Except.ok.inj hunlock
  exact ⟨jcs, rfl⟩

theorem buildVaultRootMessageV1_message {params : VaultRootParams} {root : BuildVaultRootResult}
    (h : buildVaultRootMessageV1 P params = .ok root) :
    ∃ jcs, root.messageToSign = "SJ_VAULT_ROOT_V1\n" ++ jcs := by
  simp only [buildVaultRootMessageV1, bind_eq_ok] at h
  obtain ⟨jcs, -, hroot⟩ := h
  obtain rfl := Except.ok.inj hroot
  exact ⟨jcs, rfl⟩

theorem buildUnlockMessageV1_expiresAt {windowOrigin : String} {nowMs : Int} {draw : RandomBytes 16}
    {params : UnlockParams} {unlock : BuildUnlockResult}
    (h : buildUnlockMessageV1 P D windowOrigin nowMs draw params = .ok unlock) {expiresAt : String}
    (hexpires : params.expiresAt = some expiresAt) :
    unlock.canonicalObject.expiresAt = expiresAt := by
  simp only [buildUnlockMessageV1, bind_eq_ok, hexpires, givenOr, Except.ok.injEq] at h
  obtain ⟨_, -, _, rfl, _, -, _, -, hunlock⟩ := h
  obtain rfl := Except.ok.inj hunlock
  rfl

theorem assertUnlockNotExpired_eq_ok {unlock : BuildUnlockResult} {nowMs : Int} :
    assertUnlockNotExpired D unlock nowMs = .ok () ↔ unlock.canonicalObject.expiresAt ≠ "" ∧
      ∃ ts, D.parse unlock.canonicalObject.expiresAt = some ts ∧ nowMs < ts := by
  cases hparse : D.parse unlock.canonicalObject.expiresAt with
  | none => simp [assertUnlockNotExpired, hparse]
  | some ts => simp [assertUnlockNotExpired, hparse, require_eq_ok]

theorem deriveKekFromUnlockSignature_eq_ok {sig : Bytes} {salt : Option Bytes}
    {unlock : BuildUnlockResult} {nowMs : Int} {kek : Bytes} :
    deriveKekFromUnlockSignature P D sig salt unlock nowMs = .ok kek ↔
      assertUnlockNotExpired D unlock nowMs = .ok () ∧ deriveKekFromSignature P sig salt = .ok kek := by
  rw [deriveKekFromUnlockSignature, bind_eq_ok]
  exact ⟨fun ⟨(), h⟩ => h, fun h => ⟨(), h⟩⟩

end SovereignJedi.Crypto
