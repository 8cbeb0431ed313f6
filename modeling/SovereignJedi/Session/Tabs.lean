import Mathlib.Algebra.Order.Ring.Rat
import Mathlib.Tactic.NormNum.Basic
import SovereignJedi.Session.Binding

/-! The sessions of several tabs. Each has a session manager of its own in memory, and all share one
storage, with the verified record under one key: `unlockVault` of a tab writes it, the constructor,
`connectWallet` and `disconnectWallet` of any tab may remove it, and `getVerified` reads it again. -/

namespace SovereignJedi.Session

open SovereignJedi.Js SovereignJedi.Crypto SovereignJedi.Async Relation
open SovereignJedi.Manifest (LocalStorage setItem)

/-- `getVerified` reads the record again, without a look at its wallet. -/
def getVerified (P : Platform) (now : Int) (s : SessionManager) :
    SessionManager × Option VerifiedState :=
  let (storage, verified) := loadVerified P now s.localStorage
  ({ s with localStorage := storage, verified }, verified)

/-- The open tabs, with the clock and the storage that they share. -/
structure Tabs where
  now : Int
  storage : LocalStorage
  tabs : List SessionPool

namespace Tabs

/-- A browser without tabs. -/
def start (now : Int) (storage : LocalStorage) : Tabs := ⟨now, storage, []⟩

/-- The pool `p` of a tab, on the storage as it is now. -/
def view (t : Tabs) (p : SessionPool) : SessionPool :=
  { p with state := { p.state with localStorage := t.storage } }

/-- The tabs after tab `i` has come to `p`. -/
def put (t : Tabs) (i : Nat) (p : SessionPool) : Tabs :=
  { t with storage := p.state.localStorage, tabs := t.tabs.set i p }

end Tabs

/-- The call is made at `now`. -/
def SessionCall.At (now : Int) : SessionCall → Prop
  | .connectWallet _ _ now' => now' = now
  | .unlockVault _ env => env.now = now
  | _ => True

/-- The call is resumed at `now`: after the last signature it reads the clock again. -/
def SessionCall.ResumedAt (now : Int) (c : SessionCall) (point : UnlockPoint) : Prop :=
  match c, point with
  | .unlockVault _ env, .signature .vaultRoot => env.verifiedAt = now
  | _, _ => True

/-- What a tab does: it makes a call, it resumes the call at a position, or it asks for the record. -/
inductive TabAction where
  | call (c : SessionCall)
  | resume (k : Nat)
  | getVerified

section Steps

variable (P : Platform) (D : Dates)

/-- Time passes, a tab is opened, or a tab does something where `cond` holds of it. -/
inductive TabsStep (cond : Tabs → Nat → TabAction → Prop) : Tabs → Tabs → Prop
  | tick (t : Tabs) (now : Int) (h : t.now ≤ now) : TabsStep cond t { t with now }
  | construct (t : Tabs) : TabsStep cond t { t with
      storage := (freshSession P t.now t.storage).localStorage
      tabs := t.tabs ++ [Pool.init (freshSession P t.now t.storage)] }
  | call (t : Tabs) (i : Nat) (p : SessionPool) (c : SessionCall) (hi : t.tabs[i]? = some p)
      (hmade : c.Made p.state) (htime : c.At t.now) (hcond : cond t i (.call c)) :
      TabsStep cond t (t.put i ((t.view p).call (SessionCall.body P D) c))
  | resume (t : Tabs) (i : Nat) (p : SessionPool) (k : Nat) (c : SessionCall) (point : UnlockPoint)
      (ready : SessionManager → Bool) (next : SessionTask Unit) (hi : t.tabs[i]? = some p)
      (hk : p.threads[k]? = some (c, .await point ready next))
      (hready : ready (t.view p).state = true) (htime : c.ResumedAt t.now point)
      (hcond : cond t i (.resume k)) : TabsStep cond t (t.put i ((t.view p).resume k c next))
  | getVerified (t : Tabs) (i : Nat) (p : SessionPool) (hi : t.tabs[i]? = some p)
      (hcond : cond t i .getVerified) :
      TabsStep cond t (t.put i { p with state := (getVerified P t.now (t.view p).state).1 })

/-- Every tab with a wallet connected gets the verified record of this wallet, or none. -/
def OwnVerified (t : Tabs) : Prop :=
  ∀ (i : Nat) p w, t.tabs[i]? = some p → p.state.walletPubKey = some w → w ≠ "" →
    ∀ v, (getVerified P t.now (t.view p).state).2 = some v →
      v.walletPubKey = some (.str w) ∧ ∃ expiresAt, v.expiresAt = some (.num expiresAt) ∧
        (t.now : ℚ) < expiresAt

/-- The record that the storage holds, if it has not expired, is that of `w`. -/
def Holds (now : Int) (s : LocalStorage) (w : String) : Prop :=
  ∀ v, (loadVerified P now s).2 = some v → v.walletPubKey = some (.str w)

/-- A connection finds no record of another wallet, unless it clears it; and an unlock that leaves a
record is for the wallet of all other tabs. -/
def OneWallet (t : Tabs) (i : Nat) : TabAction → Prop
  | .call (.connectWallet pubKey _ _) => ∀ p w, t.tabs[i]? = some p → pubKey.normalized = some w →
      w ≠ "" → p.state.verified.any (fun v => !isPubKey v.walletPubKey (some w)) = true ∨
        Holds P t.now t.storage w
  | .resume k => ∀ p w env vaultRoot b, t.tabs[i]? = some p →
      p.threads[k]? =
        some (.unlockVault (some w) env, (Stage.signatureRoot vaultRoot).rest P D env w) →
      env.answer P .vaultRoot vaultRoot.messageToSign = .ok (some b) → env.storageWritable = true →
        ∀ (j : Nat) p' w', j ≠ i → t.tabs[j]? = some p' → p'.state.walletPubKey = some w' →
          w' ≠ "" → p.state.walletPubKey = some w'
  | _ => True

end Steps

variable {P : Platform} {D : Dates}

/-! ### Records -/

theorem loadVerified_eq_some {now : Int} {s : LocalStorage} {v : VerifiedState} :
    (loadVerified P now s).2 = some v ↔ ∃ raw parsed expiresAt,
      s verifiedStorageKey = some raw ∧ raw ≠ "" ∧ P.jsonParse raw = .ok parsed ∧
      parsed.get "expiresAt" = some (.num expiresAt) ∧ (now : ℚ) < expiresAt ∧
      v = .ofJson parsed := by
  constructor
  · intro h
    unfold loadVerified at h
    split at h
    · cases h
    · rename_i raw hraw
      split at h
      · cases h
      · rename_i hne
        split at h
        · cases h
        · rename_i parsed hparse
          split at h
          · rename_i expiresAt hexpires
            split at h
            · rename_i hlt
              obtain rfl := Option.some.inj h
              exact ⟨raw, parsed, expiresAt, hraw, hne, hparse, hexpires, hlt, rfl⟩
            · cases h
          · cases h
  · rintro ⟨raw, parsed, expiresAt, hraw, hne, hparse, hexpires, hlt, rfl⟩
    simp only [loadVerified, hraw, if_neg hne, hparse, hexpires, if_pos hlt]

/-- Loading removes the record or leaves the storage as it is. -/
theorem loadVerified_storage (now : Int) (s : LocalStorage) :
    (loadVerified P now s).1 = s ∨ (loadVerified P now s).1 = clearVerified s := by
  unfold loadVerified
  split
  · exact Or.inl rfl
  · split
    · exact Or.inl rfl
    · split
      · exact Or.inl rfl
      · split
        · split
          · exact Or.inl rfl
          · exact Or.inr rfl
        · exact Or.inr rfl

theorem loadVerified_of_none {now : Int} {s : LocalStorage} (h : s verifiedStorageKey = none) :
    loadVerified P now s = (s, none) := by
  simp only [loadVerified, h]

theorem loadVerified_clear (now : Int) (s : LocalStorage) :
    loadVerified P now (clearVerified s) = (clearVerified s, none) :=
  loadVerified_of_none (Function.update_self ..)

/-- `s'` holds the record of `s` or none. -/
def Reduced (P : Platform) (now : Int) (s s' : LocalStorage) : Prop :=
  ∀ v, (loadVerified P now s').2 = some v → (loadVerified P now s).2 = some v

theorem reduced_clear (now : Int) (s : LocalStorage) : Reduced P now s (clearVerified s) := by
  intro v h
  rw [loadVerified_clear] at h
  cases h

theorem reduced_load (now : Int) (s : LocalStorage) : Reduced P now s (loadVerified P now s).1 := by
  rcases loadVerified_storage (P := P) now s with h | h
  · rw [h]
    exact fun _ h => h
  · rw [h]
    exact reduced_clear now s

theorem Holds.reduced {now : Int} {s s' : LocalStorage} {w : String} (h : Holds P now s w)
    (hs : Reduced P now s s') : Holds P now s' w :=
  fun v hv => h v (hs v hv)

/-- A record that has not expired later has not expired now. -/
theorem Holds.later {now now' : Int} (hle : now ≤ now') {s : LocalStorage} {w : String}
    (h : Holds P now s w) : Holds P now' s w := by
  intro v hv
  obtain ⟨raw, parsed, expiresAt, hraw, hne, hparse, hexpires, hlt, rfl⟩ :=
    loadVerified_eq_some.mp hv
  exact h _ (loadVerified_eq_some.mpr ⟨raw, parsed, expiresAt, hraw, hne, hparse, hexpires,
    lt_of_le_of_lt (Rat.intCast_le_intCast.mpr hle) hlt, rfl⟩)

/-! ### Written records -/

/-- The fields of a record that the next one takes over can be written as JSON. -/
def VerifiedState.Writable (v : VerifiedState) : Prop :=
  (∀ j, v.nonce = some j → j.WF) ∧ ∀ j, v.issuedAt = some j → j.WF

/-- A session can write its next record. -/
def CanWrite (s : SessionManager) : Prop := ∀ v, s.verified = some v → v.Writable

theorem writable_loaded (hP : P.Lawful) {now : Int} {s : LocalStorage} {v : VerifiedState}
    (h : (loadVerified P now s).2 = some v) : v.Writable := by
  obtain ⟨raw, parsed, expiresAt, -, -, hparse, -, -, rfl⟩ := loadVerified_eq_some.mp h
  exact ⟨fun j hj => (hP.parse_wf hparse).get hj, fun j hj => (hP.parse_wf hparse).get hj⟩

theorem writable_signal (env : UnlockEnv) {s : SessionManager} (h : CanWrite s) :
    (verifiedSignal env s).Writable := by
  constructor
  · intro j hj
    obtain ⟨v, hv, hj⟩ := Option.bind_eq_some_iff.mp hj
    exact (h v hv).1 j hj
  · intro j hj
    obtain ⟨v, hv, hj⟩ := Option.bind_eq_some_iff.mp hj
    exact (h v hv).2 j hj

theorem nullable_wf (w : Option String) : (nullable w).WF := by
  cases w
  · exact .null
  · exact .str _

/-- The properties of a record. -/
def verifiedKeys : List String :=
  ["walletPubKey", "verifiedAt", "expiresAt", "walletProvider", "nonce", "issuedAt"]

theorem signal_wf (env : UnlockEnv) {s : SessionManager} (h : CanWrite s) :
    (verifiedSignal env s).toJson.WF := by
  have hwritable := writable_signal env h
  refine Json.WF.ofFields (show verifiedKeys.Nodup by decide)
    (show ∀ k ∈ verifiedKeys, Json.isIndexKey k = false by decide) ?_
  simp only [List.forall_mem_cons, List.not_mem_nil, false_implies, implies_true, and_true]
  refine ⟨?_, ?_, ?_, ?_, hwritable.1, hwritable.2⟩
  · rintro _ ⟨⟩
    exact nullable_wf _
  · rintro _ ⟨⟩
    exact .num _
  · rintro _ ⟨⟩
    exact .num _
  · intro v hv
    obtain ⟨p, -, rfl⟩ := Option.map_eq_some_iff.mp hv
    exact .str p

/-- The record that an unlock leaves is that of its wallet, or there is the one that was there. -/
theorem load_saved (hP : P.Lawful) (now : Int) (env : UnlockEnv) {s : SessionManager}
    (h : CanWrite s) {v : VerifiedState}
    (hv : (loadVerified P now (saveVerified P env (verifiedSignal env s) s.localStorage)).2 =
      some v) :
    (env.storageWritable = true ∧ v.walletPubKey = some (nullable s.walletPubKey)) ∨
      (loadVerified P now s.localStorage).2 = some v := by
  unfold saveVerified at hv
  split at hv
  · rename_i hwritable
    obtain ⟨raw, parsed, expiresAt, hraw, -, hparse, -, -, rfl⟩ := loadVerified_eq_some.mp hv
    rw [verifiedStorageKey, setItem, Function.update_self] at hraw
    obtain rfl := Option.some.inj hraw
    rw [hP.parse_stringify (signal_wf env h)] at hparse
    obtain rfl := Except.ok.inj hparse
    exact Or.inl ⟨hwritable, rfl⟩
  · exact Or.inr hv

/-! ### Operations -/

/-- A connection clears the record of another wallet, keeps that of its own one, or loads the stored
one. -/
theorem reconcileVerified_cases (P : Platform) (now : Int) (w : Option String) (s : SessionManager) :
    (s.verified.any (fun v => !isPubKey v.walletPubKey w) = true ∧
      reconcileVerified P now w s =
        { s with verified := none, localStorage := clearVerified s.localStorage }) ∨
    (s.verified.any (fun v => !isPubKey v.walletPubKey w) = false ∧
      reconcileVerified P now w s = s) ∨
    (s.verified.any (fun v => !isPubKey v.walletPubKey w) = false ∧
      reconcileVerified P now w s = { s with
        localStorage := (loadVerified P now s.localStorage).1
        verified := (loadVerified P now s.localStorage).2.filter
          fun v => isPubKey v.walletPubKey w }) := by
  cases hother : s.verified.any fun v => !isPubKey v.walletPubKey w with
  | true =>
    refine Or.inl ⟨rfl, ?_⟩
    simp [reconcileVerified, hother, loadVerified_clear]
  | false =>
    cases hv : s.verified with
    | some v =>
      have hsame : isPubKey v.walletPubKey w = true := by simpa [hv] using hother
      exact Or.inr (Or.inl ⟨rfl, by simp [reconcileVerified, hv, hsame]⟩)
    | none => exact Or.inr (Or.inr ⟨rfl, by simp [reconcileVerified, hv]⟩)

section Connect

variable (now : Int) (pubKey : PubKeyArg) (provider : Option String) (s : SessionManager)

/-- The session before its record is reconciled. -/
def connecting : SessionManager :=
  { s with
    walletPubKey := pubKey.normalized
    walletProvider := provider.filter fun p => p != ""
    vaultUnlocked := false }

theorem connectWallet_localStorage : (connectWallet P now pubKey provider s).localStorage =
    (reconcileVerified P now pubKey.normalized (connecting pubKey provider s)).localStorage := by
  unfold connectWallet connecting
  dsimp only
  split <;> rfl

theorem connectWallet_verified : (connectWallet P now pubKey provider s).verified =
    (reconcileVerified P now pubKey.normalized (connecting pubKey provider s)).verified := by
  unfold connectWallet connecting
  dsimp only
  split <;> rfl

theorem reduced_connectWallet :
    Reduced P now s.localStorage (connectWallet P now pubKey provider s).localStorage := by
  rw [connectWallet_localStorage]
  rcases reconcileVerified_cases P now pubKey.normalized (connecting pubKey provider s) with
    ⟨-, h⟩ | ⟨-, h⟩ | ⟨-, h⟩ <;> rw [h]
  · exact reduced_clear now s.localStorage
  · exact fun _ h => h
  · exact reduced_load now s.localStorage

/-- A connection that finds the record of another wallet in memory leaves none in the storage. -/
theorem load_connectWallet
    (h : s.verified.any (fun v => !isPubKey v.walletPubKey pubKey.normalized) = true) :
    (loadVerified P now (connectWallet P now pubKey provider s).localStorage).2 = none := by
  rw [connectWallet_localStorage]
  rcases reconcileVerified_cases P now pubKey.normalized (connecting pubKey provider s) with
    ⟨-, hcleared⟩ | ⟨hsame, -⟩ | ⟨hsame, -⟩
  · rw [hcleared]
    exact congrArg Prod.snd (loadVerified_clear now s.localStorage)
  · exact absurd (h.symm.trans hsame) (by decide)
  · exact absurd (h.symm.trans hsame) (by decide)

end Connect

theorem CanWrite.connectWallet (hP : P.Lawful) {s : SessionManager} (h : CanWrite s) (now : Int)
    (pubKey : PubKeyArg) (provider : Option String) :
    CanWrite (connectWallet P now pubKey provider s) := by
  intro v hv
  rw [connectWallet_verified] at hv
  rcases reconcileVerified_cases P now pubKey.normalized (connecting pubKey provider s) with
    ⟨-, hcase⟩ | ⟨-, hcase⟩ | ⟨-, hcase⟩ <;> rw [hcase] at hv
  · cases hv
  · exact h v hv
  · exact writable_loaded hP (Option.filter_eq_some_iff.mp hv).1

theorem CanWrite.update (hP : P.Lawful) {s : SessionManager} (h : CanWrite s) (c : SessionCall) :
    CanWrite (c.update P s) := by
  cases c with
  | connectWallet pubKey provider now => exact h.connectWallet hP now pubKey provider
  | lockVault => exact h
  | disconnectWallet => exact fun v hv => by cases hv
  | unlockVault wallet env => exact h

theorem CanWrite.advance {s : SessionManager} (h : CanWrite s) (env : UnlockEnv) (w : String)
    (stage : Stage) : CanWrite (stage.advance P D env w s).1 := by
  rcases stage.advance_cases (P := P) (D := D) w s with
    hsame | ⟨unlock, b, -, -, hstep⟩ | ⟨vaultRoot, b, -, -, hstep⟩
  · rw [hsame]
    exact h
  · rw [hstep]
    exact h
  · rw [hstep]
    intro v hv
    obtain rfl := Option.some.inj hv
    exact writable_signal env (s := { s with
      lastVaultRoot := some vaultRoot
      lastVaultRootSignatureBytes := some b }) h

/-! ### Tabs -/

section Invariants

variable {cond : Tabs → Nat → TabAction → Prop} {t t' : Tabs}

theorem getElem?_put {i j : Nat} {p q : SessionPool} (hj : (t.put i q).tabs[j]? = some p) :
    (j = i ∧ p = q) ∨ (j ≠ i ∧ t.tabs[j]? = some p) := by
  rw [Tabs.put, List.getElem?_set] at hj
  split at hj
  · rename_i hij
    split at hj
    · exact Or.inl ⟨hij.symm, (Option.some.inj hj).symm⟩
    · cases hj
  · rename_i hij
    exact Or.inr ⟨fun h => hij h.symm, hj⟩

/-- Every tab can write its next record, and its calls are at their stages. -/
def Sound (P : Platform) (D : Dates) (t : Tabs) : Prop :=
  ∀ (i : Nat) p, t.tabs[i]? = some p → CanWrite p.state ∧ Staged (fun _ _ _ => True) P D p

theorem Sound.put (h : Sound P D t) {i : Nat} {q : SessionPool} (hwrite : CanWrite q.state)
    (hstaged : Staged (fun _ _ _ => True) P D q) : Sound P D (t.put i q) := by
  intro j p hj
  rcases getElem?_put hj with ⟨-, rfl⟩ | ⟨-, hj⟩
  · exact ⟨hwrite, hstaged⟩
  · exact h j p hj

theorem made_view {c : SessionCall} {p : SessionPool} (h : c.Made p.state) :
    c.Made (t.view p).state := by
  cases c <;> exact h

/-- The pool of a tab after a call. -/
theorem call_eq (p : SessionPool) (c : SessionCall) :
    (t.view p).call (SessionCall.body P D) c = ⟨c.update P (t.view p).state,
      p.threads ++ [(c, c.start P D (t.view p).state)]⟩ := by
  rw [Pool.call, SessionCall.seg_body]
  rfl

/-- The pool of a tab after a call is resumed at its stage. -/
theorem resume_eq {p : SessionPool} (hp : Staged (fun _ _ _ => True) P D p) {k : Nat}
    {c : SessionCall} {point : UnlockPoint} {ready : SessionManager → Bool}
    {next : SessionTask Unit} (hk : p.threads[k]? = some (c, .await point ready next)) :
    ∃ w env, ∃ stage : Stage, c = .unlockVault (some w) env ∧
      p.threads[k]? = some (c, stage.rest P D env w) ∧
      (t.view p).resume k c next = ⟨(stage.advance P D env w (t.view p).state).1,
        p.threads.set k (c, (stage.advance P D env w (t.view p).state).2.task P D env w)⟩ := by
  obtain ⟨w, env, stage, -, -, rfl, -, hrest, rfl⟩ := hp.waiting hk
  refine ⟨w, env, stage, rfl, hrest ▸ hk, ?_⟩
  rw [Pool.resume, Stage.seg_next]
  rfl

theorem Sound.step (hP : P.Lawful) (h : Sound P D t) (hstep : TabsStep P D cond t t') :
    Sound P D t' := by
  cases hstep with
  | tick now hle => exact h
  | construct =>
    intro j p hj
    rcases Nat.lt_or_ge j t.tabs.length with hlt | hge
    · rw [List.getElem?_append_left hlt] at hj
      exact h j p hj
    · rw [List.getElem?_append_right hge] at hj
      have hfresh : p = Pool.init (freshSession P t.now t.storage) := by
        simpa using List.mem_of_getElem? hj
      subst hfresh
      exact ⟨fun v hv => writable_loaded hP hv, staged_init _⟩
  | call i p c hi hmade htime hcond =>
    obtain ⟨hwrite, hstaged⟩ := h i p hi
    refine h.put ?_ ?_
    · rw [call_eq]
      exact CanWrite.update hP (s := (t.view p).state) hwrite c
    · have hturn : SessionStep P D (fun _ => True) (fun _ _ _ => True) (t.view p)
          ((t.view p).call (SessionCall.body P D) c) := .call c ⟨made_view hmade, trivial⟩
      exact Staged.step (fun _ _ _ => trivial) (fun _ _ _ _ _ _ _ _ => trivial)
        (show Staged _ P D (t.view p) from hstaged) hturn
  | resume i p k c point ready next hi hk hready htime hcond =>
    obtain ⟨hwrite, hstaged⟩ := h i p hi
    refine h.put ?_ ?_
    · obtain ⟨w, env, stage, -, -, hresume⟩ := resume_eq (t := t) hstaged hk
      rw [hresume]
      exact CanWrite.advance (s := (t.view p).state) hwrite env w stage
    · have hturn : SessionStep P D (fun _ => True) (fun _ _ _ => True) (t.view p)
          ((t.view p).resume k c next) := .resume k c point ready next hk hready trivial
      exact Staged.step (fun _ _ _ => trivial) (fun _ _ _ _ _ _ _ _ => trivial)
        (show Staged _ P D (t.view p) from hstaged) hturn
  | getVerified i p hi hcond =>
    obtain ⟨hwrite, hstaged⟩ := h i p hi
    exact h.put (fun v hv => writable_loaded hP hv) hstaged

/-! ### One record -/

/-- The record that the storage holds is that of every wallet that is connected. -/
def OneRecord (P : Platform) (t : Tabs) : Prop :=
  ∀ (i : Nat) p w, t.tabs[i]? = some p → p.state.walletPubKey = some w → w ≠ "" →
    Holds P t.now t.storage w

theorem OneRecord.ownVerified (h : OneRecord P t) : OwnVerified P t := by
  intro i p w hi hw hne v hv
  obtain ⟨raw, parsed, expiresAt, -, -, -, hexpires, hlt, rfl⟩ := loadVerified_eq_some.mp hv
  exact ⟨h i p w hi hw hne _ hv, expiresAt, hexpires, hlt⟩

/-- A tab that only takes a record away, and has none of another wallet itself. -/
theorem OneRecord.put (h : OneRecord P t) {i : Nat} {q : SessionPool}
    (hreduced : Reduced P t.now t.storage q.state.localStorage)
    (hown : ∀ w, q.state.walletPubKey = some w → w ≠ "" → Holds P t.now q.state.localStorage w) :
    OneRecord P (t.put i q) := by
  intro j p w hj hw hne
  rcases getElem?_put hj with ⟨-, rfl⟩ | ⟨-, hj⟩
  · exact hown w hw hne
  · exact (h j p w hj hw hne).reduced hreduced

/-- A tab that keeps its wallet and takes at most a record away. -/
theorem OneRecord.put_same (h : OneRecord P t) {i : Nat} {p q : SessionPool}
    (hi : t.tabs[i]? = some p) (hwallet : q.state.walletPubKey = p.state.walletPubKey)
    (hreduced : Reduced P t.now t.storage q.state.localStorage) : OneRecord P (t.put i q) :=
  h.put hreduced fun w hw hne => (h i p w hi (hwallet ▸ hw) hne).reduced hreduced

theorem OneRecord.call (h : OneRecord P t) {i : Nat} {p : SessionPool} {c : SessionCall}
    (hi : t.tabs[i]? = some p) (htime : c.At t.now) (hcond : OneWallet P D t i (.call c)) :
    OneRecord P (t.put i ((t.view p).call (SessionCall.body P D) c)) := by
  rw [call_eq]
  cases c with
  | connectWallet pubKey provider now =>
    obtain rfl : now = t.now := htime
    refine h.put (reduced_connectWallet t.now pubKey provider (t.view p).state) ?_
    intro w hw hne
    have hconnected : pubKey.normalized = some w :=
      (connectWallet_walletPubKey P t.now pubKey provider (t.view p).state).symm.trans hw
    rcases hcond p w hi hconnected hne with hother | hholds
    · intro v hv
      have hnone := load_connectWallet (P := P) t.now pubKey provider (t.view p).state
        (hconnected ▸ hother)
      cases hnone.symm.trans hv
    · exact hholds.reduced (reduced_connectWallet t.now pubKey provider (t.view p).state)
  | lockVault => exact h.put_same hi rfl fun _ hv => hv
  | disconnectWallet =>
    refine h.put (reduced_clear t.now t.storage) ?_
    rintro w ⟨⟩
  | unlockVault wallet env => exact h.put_same hi rfl fun _ hv => hv

theorem OneRecord.resume (hP : P.Lawful) (h : OneRecord P t) (hsound : Sound P D t) {i k : Nat}
    {p : SessionPool} {c : SessionCall} {point : UnlockPoint} {ready : SessionManager → Bool}
    {next : SessionTask Unit} (hi : t.tabs[i]? = some p)
    (hk : p.threads[k]? = some (c, .await point ready next))
    (hcond : OneWallet P D t i (.resume k)) :
    OneRecord P (t.put i ((t.view p).resume k c next)) := by
  obtain ⟨hwrite, hstaged⟩ := hsound i p hi
  obtain ⟨w, env, stage, rfl, hrest, hresume⟩ := resume_eq (t := t) hstaged hk
  rw [hresume]
  rcases stage.advance_cases (P := P) (D := D) w (t.view p).state with
    hsame | ⟨unlock, b, -, -, hstep⟩ | ⟨vaultRoot, b, rfl, hanswer, hstep⟩
  · rw [hsame]
    exact h.put_same hi rfl fun _ hv => hv
  · rw [hstep]
    exact h.put_same hi rfl fun _ hv => hv
  · -- the record that is stored now is that of the wallet of this tab
    rw [hstep]
    intro j p' w' hj hw' hne v hv
    rcases load_saved hP t.now env (s := { (t.view p).state with
      lastVaultRoot := some vaultRoot
      lastVaultRootSignatureBytes := some b }) hwrite hv with ⟨hwritable, hwallet⟩ | hold
    · have hsame : p.state.walletPubKey = some w' := by
        rcases getElem?_put hj with ⟨-, rfl⟩ | ⟨hne', hj⟩
        · exact hw'
        · exact hcond p w env vaultRoot b hi hrest hanswer hwritable j p' w' hne' hj hw' hne
      rw [hwallet]
      exact congrArg (fun w => some (nullable w)) hsame
    · rcases getElem?_put hj with ⟨-, rfl⟩ | ⟨-, hj⟩
      · exact h i p w' hi hw' hne v hold
      · exact h j p' w' hj hw' hne v hold

theorem OneRecord.step (hP : P.Lawful) (h : OneRecord P t) (hsound : Sound P D t)
    (hstep : TabsStep P D (OneWallet P D) t t') : OneRecord P t' := by
  cases hstep with
  | tick now hle => exact fun i p w hi hw hne => (h i p w hi hw hne).later hle
  | construct =>
    intro j p w hj hw hne
    rcases Nat.lt_or_ge j t.tabs.length with hlt | hge
    · rw [List.getElem?_append_left hlt] at hj
      exact (h j p w hj hw hne).reduced (reduced_load t.now t.storage)
    · rw [List.getElem?_append_right hge] at hj
      have hfresh : p = Pool.init (freshSession P t.now t.storage) := by
        simpa using List.mem_of_getElem? hj
      subst hfresh
      cases hw
  | call i p c hi hmade htime hcond => exact h.call hi htime hcond
  | resume i p k c point ready next hi hk hready htime hcond => exact h.resume hP hsound hi hk hcond
  | getVerified i p hi hcond => exact h.put_same hi rfl (reduced_load t.now t.storage)

end Invariants

/-- In every run in which connections find no record of another wallet that they leave, and unlocks
leave records of the one wallet of all other tabs only, the verified record of each tab is that of
its wallet. -/
theorem verified_belongs (hP : P.Lawful) {now : Int} {storage : LocalStorage} {t : Tabs}
    (hrun : ReflTransGen (TabsStep P D (OneWallet P D)) (Tabs.start now storage) t) :
    OwnVerified P t := by
  suffices h : Sound P D t ∧ OneRecord P t from h.2.ownVerified
  induction hrun with
  | refl => exact ⟨fun i p hi => by simp [Tabs.start] at hi, fun i p w hi => by
      simp [Tabs.start] at hi⟩
  | tail _ hstep ih => exact ⟨ih.1.step hP hstep, ih.2.step hP ih.1 hstep⟩

/-! ### Runs of one tab -/

section Tab

variable {cond : Tabs → Nat → TabAction → Prop} {t : Tabs} {i : Nat} {allowed : SessionCall → Prop}
  {resumable : SessionCall → UnlockPoint → SessionManager → Prop}

/-- A turn of the pool of a tab. -/
theorem step_tab (hi : i < t.tabs.length)
    (hcall : ∀ q c, allowed c → c.At t.now ∧ cond (t.put i q) i (.call c))
    (hresume : ∀ q c point s k, resumable c point s →
      c.ResumedAt t.now point ∧ cond (t.put i q) i (.resume k)) {q q' : SessionPool}
    (h : SessionStep P D allowed resumable q q') : TabsStep P D cond (t.put i q) (t.put i q') := by
  have hget : (t.put i q).tabs[i]? = some q := List.getElem?_set_self hi
  have hput : ∀ q', (t.put i q).put i q' = t.put i q' := by
    intro q'
    simp [Tabs.put]
  cases h with
  | call c hc =>
    obtain ⟨htime, hcond⟩ := hcall q c hc.2
    have hstep := TabsStep.call (P := P) (D := D) (t.put i q) i q c hget hc.1 htime hcond
    rwa [hput] at hstep
  | resume k c point ready next hk hready hr =>
    obtain ⟨htime, hcond⟩ := hresume q c point q.state k hr
    have hstep := TabsStep.resume (P := P) (D := D) (t.put i q) i q k c point ready next hget hk
      hready htime hcond
    rwa [hput] at hstep

/-- A run of the pool of a tab, while the other tabs do nothing. -/
theorem run_tab (hi : i < t.tabs.length)
    (hcall : ∀ q c, allowed c → c.At t.now ∧ cond (t.put i q) i (.call c))
    (hresume : ∀ q c point s k, resumable c point s →
      c.ResumedAt t.now point ∧ cond (t.put i q) i (.resume k)) {q q' : SessionPool}
    (h : ReflTransGen (SessionStep P D allowed resumable) q q') :
    ReflTransGen (TabsStep P D cond) (t.put i q) (t.put i q') := by
  induction h with
  | refl => exact .refl
  | tail _ hstep ih => exact ih.tail (step_tab hi hcall hresume hstep)

end Tab

/-- The record that an unlock leaves is read again while it is valid. -/
theorem load_saved_self (hP : P.Lawful) {now : Int} {env : UnlockEnv} {s : SessionManager}
    (h : CanWrite s) (hwritable : env.storageWritable = true)
    (hlt : now < env.verifiedAt + 24 * 60 * 60 * 1000) (storage : LocalStorage) :
    (loadVerified P now (saveVerified P env (verifiedSignal env s) storage)).2 =
      some (.ofJson (verifiedSignal env s).toJson) := by
  refine loadVerified_eq_some.mpr ⟨_, _, ((env.verifiedAt + 24 * 60 * 60 * 1000 : Int) : ℚ), ?_,
    hP.stringify_ne _, hP.parse_stringify (signal_wf env h), ?_, Rat.intCast_lt_intCast.mpr hlt, rfl⟩
  · rw [saveVerified, if_pos hwritable, verifiedStorageKey, setItem, Function.update_self]
  · have hcast : ((env.verifiedAt + 24 * 60 * 60 * 1000 : Int) : ℚ) =
        env.verifiedAt + 24 * 60 * 60 * 1000 := by norm_num
    rw [hcast]
    rfl

/-! ### Samples -/

/-- A call for the wallet that is connected, which waits for its last signature, completes. -/
theorem run_unlock_tab (allowed : SessionCall → Prop)
    (resumable : SessionCall → UnlockPoint → SessionManager → Prop)
    (ts : List (SessionCall × SessionTask Unit)) {w : String} {env : UnlockEnv}
    {unlock : BuildUnlockResult} {b b' : Bytes} {vaultRoot : BuildVaultRootResult}
    {s : SessionManager} (hw : s.walletPubKey = some w)
    (hne : w ≠ "") (hunlock : UnlockSigned P D env w unlock b)
    (hroot : VaultRootSigned P env (some w) vaultRoot b') (hcall : allowed (.unlockVault (some w) env))
    (hr : ∀ point s, resumable (.unlockVault (some w) env) point s) :
    ∃ q : SessionPool, ReflTransGen (SessionStep P D allowed resumable) ⟨s, ts⟩ q ∧
      ∃ s' : SessionManager, s'.walletPubKey = some w ∧ s'.verified = s.verified ∧
        q.state = markUnlocked P env s' := by
  refine ⟨_, .head (step_unlock hw hne hcall) ((run_to_root hunlock (hw ▸ hroot.built)
    fun _ _ _ _ => hr _ _).tail (step_newest (hroot.advance_signatureRoot _) (hr _ _))), _, ?_, ?_,
    rfl⟩
  · exact hw
  · rfl

/-- The unlock of `w` by a sample wallet. -/
def sampleUnlock (w : String) : SessionCall := .unlockVault (some w) (sampleEnv sampleSign)

theorem sampleUnlock_resumedAt (w : String) (point : UnlockPoint) :
    (sampleUnlock w).ResumedAt 0 point := by
  unfold sampleUnlock SessionCall.ResumedAt
  split
  · rename_i heq
    obtain ⟨-, rfl⟩ := SessionCall.unlockVault.inj heq
    rfl
  · trivial

/-- A tab without records that has connected `w` at time 0. -/
noncomputable def sampleConnected (w : String) : SessionPool :=
  (Pool.init (freshSession symbolic 0 fun _ => none)).call
    (SessionCall.body symbolic sampleDates) (.connectWallet (.text w) none 0)

/-- The tab unlocks its vault, whatever the other tabs hold. -/
theorem run_sampleUnlock (cond : Tabs → Nat → TabAction → Prop) {t : Tabs} {i : Nat} {w : String}
    (hi : i < t.tabs.length) (hnow : t.now = 0) (hne : w ≠ "")
    (hcall : ∀ q, cond (t.put i q) i (.call (sampleUnlock w)))
    (hresume : ∀ q k, cond (t.put i q) i (.resume k)) :
    ∃ q s', ReflTransGen (TabsStep symbolic sampleDates cond) (t.put i (sampleConnected w))
        (t.put i q) ∧ s'.walletPubKey = some w ∧ s'.verified = (sampleConnected w).state.verified ∧
      q.state = markUnlocked symbolic (sampleEnv sampleSign) s' := by
  obtain ⟨unlock, hunlock⟩ := sampleEnv_unlockSigned symbolic_lawful sampleSign w
  obtain ⟨vaultRoot, hroot⟩ := sampleEnv_vaultRootSigned symbolic_lawful sampleSign (some w)
  have hw : (sampleConnected w).state.walletPubKey = some w :=
    (connectWallet_walletPubKey ..).trans (normalized_text hne)
  obtain ⟨q, hrun, s', hw', hverified, hq⟩ := run_unlock_tab (P := symbolic) (D := sampleDates)
    (fun c => c = sampleUnlock w) (fun c _ _ => c = sampleUnlock w) (sampleConnected w).threads hw
    hne hunlock hroot rfl fun _ _ => rfl
  refine ⟨q, s', run_tab hi ?_ ?_ hrun, hw', hverified, hq⟩
  · rintro q c rfl
    exact ⟨hnow.symm, hcall q⟩
  · rintro q c point s k rfl
    exact ⟨hnow ▸ sampleUnlock_resumedAt w point, hresume q k⟩

/-- A single tab connects a wallet and unlocks its vault. -/
theorem verified_belongs_sample : ∃ t : Tabs, (∃ p, t.tabs[0]? = some p ∧
    p.state.walletPubKey = some "Wa11et" ∧ p.state.vaultUnlocked = true) ∧
      OwnVerified symbolic t := by
  let fresh : SessionPool := Pool.init (freshSession symbolic 0 fun _ => none)
  let t : Tabs := ⟨0, fun _ => none, [fresh]⟩
  have hopen : TabsStep symbolic sampleDates (OneWallet symbolic sampleDates)
      (Tabs.start 0 fun _ => none) t := .construct _
  have hconnect : TabsStep symbolic sampleDates (OneWallet symbolic sampleDates) t
      (t.put 0 (sampleConnected "Wa11et")) := by
    refine .call t 0 fresh (.connectWallet (.text "Wa11et") none 0) rfl trivial rfl ?_
    intro p w hi hw hne
    exact Or.inr fun v hv => by cases hv
  obtain ⟨q, s', hrun, hw, -, hq⟩ := run_sampleUnlock (OneWallet symbolic sampleDates) (i := 0)
    (w := "Wa11et") (t := t) (by decide) rfl (by decide) (fun _ => trivial) (by
      intro q k p w env vaultRoot b hi hk hanswer hwritable j p' w' hj hget
      rcases j with _ | j
      · exact absurd rfl hj
      · simp [Tabs.put, t] at hget)
  refine ⟨t.put 0 q, ⟨q, rfl, ?_, ?_⟩, verified_belongs symbolic_lawful
    (.head hopen (.head hconnect hrun))⟩
  · rw [hq]
    exact hw
  · rw [hq]
    rfl

/-- A tab unlocks the vault of `"0ther"` while `"Wa11et"` is connected in the first one, which then
gets the record of `"0ther"`. -/
theorem other_tab_verified : ∃ t, ReflTransGen (TabsStep symbolic sampleDates fun _ _ _ => True)
    (Tabs.start 0 fun _ => none) t ∧ ¬ OwnVerified symbolic t := by
  let fresh : SessionPool := Pool.init (freshSession symbolic 0 fun _ => none)
  let t : Tabs := ⟨0, fun _ => none, [sampleConnected "Wa11et", fresh]⟩
  have hopen : TabsStep symbolic sampleDates (fun _ _ _ => True)
      (Tabs.start 0 fun _ => none) ⟨0, fun _ => none, [fresh]⟩ := .construct _
  have hopen' : TabsStep symbolic sampleDates (fun _ _ _ => True)
      ⟨0, fun _ => none, [fresh]⟩ ⟨0, fun _ => none, [fresh, fresh]⟩ := .construct _
  have hconnect : TabsStep symbolic sampleDates (fun _ _ _ => True)
      ⟨0, fun _ => none, [fresh, fresh]⟩ t :=
    .call _ 0 fresh (.connectWallet (.text "Wa11et") none 0) rfl trivial rfl trivial
  have hconnect' : TabsStep symbolic sampleDates (fun _ _ _ => True) t
      (t.put 1 (sampleConnected "0ther")) :=
    .call _ 1 fresh (.connectWallet (.text "0ther") none 0) rfl trivial rfl trivial
  obtain ⟨q, s', hrun, hw, hverified, hq⟩ := run_sampleUnlock (fun _ _ _ => True) (i := 1)
    (w := "0ther") (t := t) (by decide) rfl (by decide) (fun _ => trivial) fun _ _ => trivial
  refine ⟨t.put 1 q, .head hopen (.head hopen' (.head hconnect (.head hconnect' hrun))),
    fun hown => ?_⟩
  have hwrite : CanWrite s' := by
    intro v hv
    rw [hverified] at hv
    cases hv
  have hload : (getVerified symbolic 0 ((t.put 1 q).view (sampleConnected "Wa11et")).state).2 =
      some (.ofJson (verifiedSignal (sampleEnv sampleSign) s').toJson) := by
    have hsaved : (loadVerified symbolic 0 (saveVerified symbolic (sampleEnv sampleSign)
        (verifiedSignal (sampleEnv sampleSign) s') s'.localStorage)).2 = _ :=
      load_saved_self symbolic_lawful hwrite rfl (by decide) s'.localStorage
    rw [← hsaved]
    simp only [getVerified, Tabs.view, Tabs.put, hq, markUnlocked]
  have hwallet := (hown 0 _ "Wa11et" rfl rfl (by decide) _ hload).1
  have hother : (VerifiedState.ofJson (verifiedSignal (sampleEnv sampleSign) s').toJson).walletPubKey =
      some (nullable s'.walletPubKey) := rfl
  rw [hother, hw] at hwallet
  have hsame : Json.str "0ther" = .str "Wa11et" := Option.some.inj hwallet
  exact absurd (Json.str.inj hsame) (by decide)

end SovereignJedi.Session
