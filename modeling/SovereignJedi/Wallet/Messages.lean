import SovereignJedi.Js.Canonical
import SovereignJedi.Session.Unlock
import SovereignJedi.Wallet.Identity

/-! The messages that a wallet signs, of three builders. Every key of the system is derived from a
signature of one of them, so that no message may stand for another: those of two builders differ,
and a message tells all the parameters that it was built from. -/

namespace SovereignJedi.Wallet

open SovereignJedi.Js SovereignJedi.Crypto SovereignJedi.Session SovereignJedi.Async

inductive Builder where
  | proof | unlock | vaultRoot
  deriving DecidableEq

/-- A call of a builder, with what it takes from the page. -/
inductive BuilderCall where
  | proof (params : ProofParams)
  | unlock (windowOrigin : String) (nowMs : Int) (draw : RandomBytes 16) (params : UnlockParams)
  | vaultRoot (params : VaultRootParams)

/-- The parameters of a message, after the defaults. -/
inductive MessageParams where
  | proof (domain publicKey statement nonce issuedAt cluster : String)
  | unlock (origin wallet : String) (nonceBytes : Bytes) (issuedAt expiresAt vaultId : String)
  | vaultRoot (wallet : Option String) (vaultId : String)

namespace BuilderCall

def builder : BuilderCall → Builder
  | .proof _ => .proof
  | .unlock .. => .unlock
  | .vaultRoot _ => .vaultRoot

variable (P : Platform) (D : Dates)

/-- The message to sign. -/
def message : BuilderCall → Result String
  | .proof params => .ok (buildProofMessage params)
  | .unlock windowOrigin nowMs draw params =>
    (buildUnlockMessageV1 P D windowOrigin nowMs draw params).map fun unlock => unlock.messageToSign
  | .vaultRoot params => (buildVaultRootMessageV1 P params).map fun root => root.messageToSign

def parameters : BuilderCall → Result MessageParams
  | .proof params => .ok (.proof params.domain params.publicKey
      (params.statement.getD "Prove you control this wallet for Sovereign Jedi") params.nonce
      params.issuedAt params.cluster)
  | .unlock windowOrigin nowMs draw params => do
    let issuedAt ← givenOr params.issuedAt (D.toISOString nowMs)
    let expiresAt ← givenOr params.expiresAt (isoAfter D issuedAt (10 * 60 * 1000))
    return .unlock (params.origin.getD windowOrigin) params.wallet (params.nonceBytes.getD draw.1)
      issuedAt expiresAt (params.vaultId.getD "local-default")
  | .vaultRoot params => .ok (.vaultRoot params.wallet (params.vaultId.getD "local-default"))

/-- The fields of a proof message are one line each. -/
def OneLine : BuilderCall → Prop
  | .proof params => params.OneLine
  | _ => True

end BuilderCall

/-- No message stands for another one, and the vault root message depends on the wallet and the vault
only. -/
structure DomainSeparated (P : Platform) (D : Dates) : Prop where
  builders : ∀ (c c' : BuilderCall) (m m' : String), c.message P D = .ok m →
    c'.message P D = .ok m' → c.builder ≠ c'.builder → m ≠ m'
  injective : ∀ (c c' : BuilderCall) (m : String), c.OneLine → c'.OneLine → c.message P D = .ok m →
    c'.message P D = .ok m → ∃ p, c.parameters D = .ok p ∧ c'.parameters D = .ok p
  root_params : ∀ p q : VaultRootParams, p.wallet = q.wallet →
    p.vaultId.getD "local-default" = q.vaultId.getD "local-default" →
      (BuilderCall.vaultRoot p).message P D = (BuilderCall.vaultRoot q).message P D
  root_sessions : ∀ (env env' : UnlockEnv) (s s' t t' : SessionManager), env.vaultRootBuilder = none →
    env'.vaultRootBuilder = none → s.walletPubKey = s'.walletPubKey →
      (unlockVault P D env).run s = (t, .ok ()) → (unlockVault P D env').run s' = (t', .ok ()) →
        ∃ root root', t.lastVaultRoot = some root ∧ t'.lastVaultRoot = some root' ∧
          root.messageToSign = root'.messageToSign

variable {P : Platform} {D : Dates}

/-! ### Proof messages -/

theorem buildProofMessage_lines {p q : ProofParams} (hp : p.OneLine) (hq : q.OneLine)
    (h : buildProofMessage p = buildProofMessage q) : p.lines = q.lines :=
  intercalate_injective rfl hp.lines hq.lines h

theorem proof_parameters {p q : ProofParams} (hp : p.OneLine) (hq : q.OneLine)
    (h : buildProofMessage p = buildProofMessage q) :
    (BuilderCall.proof p).parameters D = (BuilderCall.proof q).parameters D := by
  have hlines := buildProofMessage_lines hp hq h
  simp only [ProofParams.lines, List.cons.injEq, String.append_right_inj] at hlines
  obtain ⟨-, hdomain, hkey, hstatement, hnonce, hissued, hcluster, -⟩ := hlines
  simp only [BuilderCall.parameters, hdomain, hkey, hstatement, hnonce, hissued, hcluster]

/-! ### Canonical messages -/

/-- Canonical texts after one prefix are alike for the same data only. -/
theorem canonical_same (hP : P.Codecs) {j k : Json} {s : String} (hj : j.WF) (hk : k.WF)
    (h : canonicalizeJSON P j = .ok s) (h' : canonicalizeJSON P k = .ok s) : j.Same k := by
  unfold canonicalizeJSON at h h'
  split at h
  · rename_i s₁ hs₁
    obtain rfl := Except.ok.inj h
    split at h'
    · rename_i s₂ hs₂
      obtain rfl := Except.ok.inj h'
      exact hP.canonicalize_same hj hk hs₁ hs₂
    · cases h'
  · cases h

theorem UnlockMessageV1.same_eq {m m' : UnlockMessageV1} (h : m.toJson.Same m'.toJson) : m = m' := by
  have hfield : ∀ k v w, Json.field k _ = some (.str v) → Json.field k _ = some (.str w) → v = w :=
    fun k v w hv hw => Json.str.inj (h.field_eq hv hw trivial)
  cases m
  cases m'
  simp only [UnlockMessageV1.mk.injEq]
  exact ⟨hfield "origin" _ _ rfl rfl, hfield "wallet" _ _ rfl rfl, hfield "nonce" _ _ rfl rfl,
    hfield "issuedAt" _ _ rfl rfl, hfield "expiresAt" _ _ rfl rfl, hfield "vaultId" _ _ rfl rfl⟩

theorem VaultRootMessageV1.same_eq {m m' : VaultRootMessageV1} (h : m.toJson.Same m'.toJson) :
    m = m' := by
  have hleaf : (orElse (m'.wallet.map .str) .null).IsLeaf := by cases m'.wallet <;> trivial
  have hwallet := h.field_eq (k := "wallet") rfl rfl hleaf
  have hvault := Json.str.inj (h.field_eq (k := "vaultId") rfl rfl trivial)
  obtain ⟨w, v⟩ := m
  obtain ⟨w', v'⟩ := m'
  obtain rfl : v = v' := hvault
  cases w <;> cases w' <;> simp_all [orElse]

/-- What an unlock message is made of. -/
theorem unlock_message_eq_ok {windowOrigin : String} {nowMs : Int} {draw : RandomBytes 16}
    {params : UnlockParams} {m : String}
    (h : (BuilderCall.unlock windowOrigin nowMs draw params).message P D = .ok m) :
    ∃ origin wallet nonceBytes issuedAt expiresAt vaultId jcs,
      (BuilderCall.unlock windowOrigin nowMs draw params).parameters D =
        .ok (.unlock origin wallet nonceBytes issuedAt expiresAt vaultId) ∧
      canonicalizeJSON P (UnlockMessageV1.toJson {
        origin, wallet, nonce := P.toBase64 nonceBytes, issuedAt, expiresAt, vaultId }) = .ok jcs ∧
      m = "SJ_UNLOCK_V1\n" ++ jcs := by
  simp only [BuilderCall.message, Except.map] at h
  split at h
  · cases h
  · rename_i unlock hunlock
    obtain rfl := Except.ok.inj h
    simp only [buildUnlockMessageV1, bind_eq_ok] at hunlock
    obtain ⟨issuedAt, hissued, expiresAt, hexpires, _, -, jcs, hjcs, hunlock⟩ := hunlock
    obtain rfl := Except.ok.inj hunlock
    refine ⟨_, _, _, issuedAt, expiresAt, _, jcs, ?_, hjcs, rfl⟩
    simp only [BuilderCall.parameters, hissued, hexpires, ok_bind]
    rfl

theorem vaultRoot_message_eq_ok {params : VaultRootParams} {m : String}
    (h : (BuilderCall.vaultRoot params).message P D = .ok m) :
    ∃ jcs, canonicalizeJSON P (VaultRootMessageV1.toJson {
        wallet := params.wallet, vaultId := params.vaultId.getD "local-default" }) = .ok jcs ∧
      m = "SJ_VAULT_ROOT_V1\n" ++ jcs := by
  simp only [BuilderCall.message, Except.map] at h
  split at h
  · cases h
  · rename_i root hroot
    obtain rfl := Except.ok.inj h
    simp only [buildVaultRootMessageV1, bind_eq_ok] at hroot
    obtain ⟨jcs, hjcs, hroot⟩ := hroot
    obtain rfl := Except.ok.inj hroot
    exact ⟨jcs, hjcs, rfl⟩

/-- The fourth character of a message tells its builder. -/
def tagOf : Builder → Char
  | .proof => 'e'
  | .unlock => 'U'
  | .vaultRoot => 'V'

theorem message_tag {c : BuilderCall} {m : String} (h : c.message P D = .ok m) :
    m.toList[3]? = some (tagOf c.builder) := by
  cases c with
  | proof params =>
    obtain rfl := Except.ok.inj h
    simp [buildProofMessage, ProofParams.lines, String.intercalate_cons_cons, BuilderCall.builder,
      tagOf]
  | unlock windowOrigin nowMs draw params =>
    obtain ⟨_, _, _, _, _, _, jcs, -, -, rfl⟩ := unlock_message_eq_ok h
    simp [BuilderCall.builder, tagOf]
  | vaultRoot params =>
    obtain ⟨jcs, -, rfl⟩ := vaultRoot_message_eq_ok h
    simp [BuilderCall.builder, tagOf]

/-- Messages of two builders differ. -/
theorem message_ne_of_builder {c c' : BuilderCall} {m m' : String} (h : c.message P D = .ok m)
    (h' : c'.message P D = .ok m') (hne : c.builder ≠ c'.builder) : m ≠ m' := by
  rintro rfl
  have htag := (message_tag h).symm.trans (message_tag h')
  rw [Option.some.injEq] at htag
  cases hc : c.builder <;> cases hc' : c'.builder <;> simp_all [tagOf]

/-- A message tells its parameters. -/
theorem message_parameters (hP : P.Codecs) {c c' : BuilderCall} {m : String} (hc : c.OneLine)
    (hc' : c'.OneLine) (h : c.message P D = .ok m) (h' : c'.message P D = .ok m) :
    ∃ p, c.parameters D = .ok p ∧ c'.parameters D = .ok p := by
  have hbuilder : c.builder = c'.builder := by
    by_contra hne
    exact message_ne_of_builder h h' hne rfl
  cases c with
  | proof p =>
    cases c' with
    | proof q =>
      have hmessage := Except.ok.inj (h.trans h'.symm)
      exact ⟨_, proof_parameters hc hc' hmessage, rfl⟩
    | _ => cases hbuilder
  | unlock windowOrigin nowMs draw params =>
    cases c' with
    | unlock windowOrigin' nowMs' draw' params' =>
      obtain ⟨_, _, _, _, _, _, jcs, hparams, hjcs, rfl⟩ := unlock_message_eq_ok h
      obtain ⟨_, _, _, _, _, _, jcs', hparams', hjcs', hm⟩ := unlock_message_eq_ok h'
      obtain rfl := String.append_right_inj _ |>.mp hm
      have hsame := UnlockMessageV1.same_eq (canonical_same hP (UnlockMessageV1.toJson_wf _)
        (UnlockMessageV1.toJson_wf _) hjcs hjcs')
      simp only [UnlockMessageV1.mk.injEq] at hsame
      obtain ⟨rfl, rfl, hnonce, rfl, rfl, rfl⟩ := hsame
      obtain rfl := hP.base64_injective hnonce
      exact ⟨_, hparams, hparams'⟩
    | _ => cases hbuilder
  | vaultRoot p =>
    cases c' with
    | vaultRoot q =>
      obtain ⟨jcs, hjcs, rfl⟩ := vaultRoot_message_eq_ok h
      obtain ⟨jcs', hjcs', hm⟩ := vaultRoot_message_eq_ok h'
      obtain rfl := String.append_right_inj _ |>.mp hm
      have hsame := VaultRootMessageV1.same_eq (canonical_same hP (VaultRootMessageV1.toJson_wf _)
        (VaultRootMessageV1.toJson_wf _) hjcs hjcs')
      simp only [VaultRootMessageV1.mk.injEq] at hsame
      refine ⟨_, rfl, ?_⟩
      rw [BuilderCall.parameters, hsame.1, hsame.2]
    | _ => cases hbuilder

/-! ### Sessions -/

/-- The vault root message that a session keeps after an unlock is the builder's for its wallet. -/
theorem unlockVault_root {env : UnlockEnv} (hbuilder : env.vaultRootBuilder = none)
    {s t : SessionManager} (h : (unlockVault P D env).run s = (t, .ok ())) :
    ∃ root, t.lastVaultRoot = some root ∧ buildVaultRootMessageV1 P
      { wallet := s.walletPubKey, vaultId := some "local-default" } = .ok root := by
  cases hw : s.walletPubKey.filter fun w => w != "" with
  | none => simp [unlockVault, Task.run_bind, hw] at h
  | some w =>
    rw [Option.filter_eq_some_iff] at hw
    obtain ⟨hw, hne⟩ := hw
    rcases run_unlockVault (P := P) (D := D) env hw (by simpa using hne) with
      ⟨unlock, b, root, b', -, hroot, hrun⟩ | ⟨-, s', e, hrun, -⟩
    · rw [h, Prod.mk.injEq] at hrun
      obtain rfl := hrun.1
      refine ⟨root, rfl, ?_⟩
      have hbuilt := hroot.built
      rwa [UnlockEnv.buildVaultRoot, hbuilder, Option.getD_none, ← hw] at hbuilt
    · rw [h] at hrun
      cases hrun

/-- The messages that a wallet signs are separated by domain, and tell their parameters. -/
theorem signed_messages_separated (hP : P.Codecs) : DomainSeparated P D where
  builders _ _ _ _ h h' hne := message_ne_of_builder h h' hne
  injective _ _ _ hc hc' h h' := message_parameters hP hc hc' h h'
  root_params p q hwallet hvault := by
    simp only [BuilderCall.message, buildVaultRootMessageV1, hwallet, hvault]
  root_sessions env env' s s' t t' hbuilder hbuilder' hwallet h h' := by
    obtain ⟨root, hroot, hbuilt⟩ := unlockVault_root hbuilder h
    obtain ⟨root', hroot', hbuilt'⟩ := unlockVault_root hbuilder' h'
    rw [hwallet, hbuilt'] at hbuilt
    exact ⟨root, root', hroot, hroot', by rw [Except.ok.inj hbuilt]⟩

theorem signed_messages_separated_sample : DomainSeparated symbolic sampleDates :=
  signed_messages_separated symbolic_codecs

end SovereignJedi.Wallet
