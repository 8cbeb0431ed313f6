import SovereignJedi.Session.Binding
import SovereignJedi.Session.Failure

/-! Locks of the session. A lock does not reach the calls of `unlockVault` that are in flight: they
store what the wallet still signs, and the last signature unlocks. A call that is made after the
lock stores its unlock material already when it has the first signature, although the getter is
documented to give nothing then. A lock is effective exactly as long as no signature reaches a call
where it is stored like that. -/

namespace SovereignJedi.Session

open SovereignJedi.Js SovereignJedi.Crypto SovereignJedi.Async Relation

/-- `lockVault`, `disconnectWallet` and `connectWallet`. -/
def SessionCall.Locks : SessionCall → Prop
  | .unlockVault .. => False
  | _ => True

section Statements

variable (P : Platform) (D : Dates)

abbrev AnyStep : SessionPool → SessionPool → Prop :=
  SessionStep P D (fun _ => True) fun _ _ _ => True

/-- Some call of `unlockVault` after the first `n` calls has succeeded. -/
def Succeeded (n : Nat) (p : SessionPool) : Prop :=
  ∃ j ≥ n, ∃ wallet env, p.threads[j]? = some (.unlockVault wallet env, .done (.ok ()))

/-- No signature is delivered to the first `n` calls: where they wait for one they stay, or fail. -/
def Quiet (n : Nat) (p q : SessionPool) : Prop :=
  ∀ i < n, ∀ c r ready next, p.threads[i]? = some (c, .await (.signature r) ready next) →
    q.threads[i]? = p.threads[i]? ∨ ∃ e, q.threads[i]? = some (c, .done (.error e))

/-- Turns in which nothing is signed for the first `n` calls before a later one has succeeded. -/
def QuietStep (n : Nat) (p q : SessionPool) : Prop :=
  AnyStep P D p q ∧ (Succeeded n p ∨ Quiet n p q)

/-- The getters of the vault root give nothing that they did not give in `s`. -/
def NoNewRoot (s s' : SessionManager) : Prop :=
  (s'.lastVaultRoot = none ∧ s'.lastVaultRootSignatureBytes = none) ∨
  (s'.lastVaultRoot = s.lastVaultRoot ∧
    s'.lastVaultRootSignatureBytes = s.lastVaultRootSignatureBytes)

def NoNewUnlock (s s' : SessionManager) : Prop :=
  (s'.lastUnlock = none ∧ s'.lastUnlockSignatureBytes = none) ∨
  (s'.lastUnlock = s.lastUnlock ∧ s'.lastUnlockSignatureBytes = s.lastUnlockSignatureBytes)

/-- The getters of the unlock give what the wallet has signed for a call after the first `n`. -/
def UnlockSince (n : Nat) (p : SessionPool) : Prop :=
  ∃ j ≥ n, ∃ wallet env unlock b, p.calls[j]? = some (.unlockVault wallet env) ∧
    env.answer P .unlock unlock.messageToSign = .ok (some b) ∧
    p.state.lastUnlock = some unlock ∧ p.state.lastUnlockSignatureBytes = some b

/-- The session is locked, without new materials, as it was in `s` after `n` calls. -/
structure StillLocked (n : Nat) (s : SessionManager) (p : SessionPool) : Prop where
  locked : p.state.vaultUnlocked = false
  vaultRoot : NoNewRoot s p.state
  unlock : NoNewUnlock s p.state ∨ UnlockSince P n p

/-- The session is locked, and its getters have gained nothing. -/
def Locked (s s' : SessionManager) : Prop :=
  s'.vaultUnlocked = false ∧ NoNewRoot s s' ∧ NoNewUnlock s s'

/-- Locks are effective: after one, the session stays locked and gains no materials until a later
call of `unlockVault` has succeeded. -/
def LocksEffective (init : SessionManager) : Prop :=
  ∀ p c q, ReflTransGen (AnyStep P D) (Pool.init init) p → c.Locks →
    ReflTransGen (AnyStep P D) (p.call (SessionCall.body P D) c) q →
      Succeeded (p.threads.length + 1) q ∨ Locked (p.call (SessionCall.body P D) c).state q.state

/-- The turn resumes call `i`. -/
def Resumes (p q : SessionPool) (i : Nat) : Prop :=
  ∃ c point ready next, p.threads[i]? = some (c, .await point ready next) ∧ q = p.resume i c next

/-- When call `i` is resumed, no signature of an unlock message reaches it that the getters did not
give in `s`, and, if it is one of the first `n`, no signature of a vault root message. -/
structure Unsigned (n : Nat) (s : SessionManager) (p : SessionPool) (i : Nat) : Prop where
  unlock : ∀ w env unlock b,
    p.threads[i]? = some (.unlockVault (some w) env, Stage.rest P D env w (.signature unlock)) →
    env.answer P .unlock unlock.messageToSign = .ok (some b) →
    s.lastUnlock = some unlock ∧ s.lastUnlockSignatureBytes = some b
  vaultRoot : i < n → ∀ w env vaultRoot b,
    p.threads[i]? =
      some (.unlockVault (some w) env, Stage.rest P D env w (.signatureRoot vaultRoot)) →
    env.answer P .vaultRoot vaultRoot.messageToSign ≠ .ok (some b)

/-- Turns in which no such signature is delivered before a later call has succeeded. -/
def UnsignedStep (n : Nat) (s : SessionManager) (p q : SessionPool) : Prop :=
  AnyStep P D p q ∧ (Succeeded n p ∨ ∀ i, Resumes p q i → Unsigned P D n s p i)

end Statements

variable {P : Platform} {D : Dates} {n : Nat} {s : SessionManager} {p q : SessionPool}

/-! ### One turn -/

/-- Locks take materials away only. -/
theorem update_noNew (c : SessionCall) (s : SessionManager) :
    NoNewRoot s (c.update P s) ∧ NoNewUnlock s (c.update P s) := by
  cases c with
  | connectWallet pubKey provider now =>
    obtain ⟨v, storage, h⟩ := connectWallet_eq P now pubKey provider s
    rw [SessionCall.update, h]
    split
    · exact ⟨Or.inl ⟨rfl, rfl⟩, Or.inl ⟨rfl, rfl⟩⟩
    · exact ⟨Or.inr ⟨rfl, rfl⟩, Or.inr ⟨rfl, rfl⟩⟩
  | lockVault => exact ⟨Or.inl ⟨rfl, rfl⟩, Or.inl ⟨rfl, rfl⟩⟩
  | disconnectWallet => exact ⟨Or.inl ⟨rfl, rfl⟩, Or.inl ⟨rfl, rfl⟩⟩
  | unlockVault wallet env => exact ⟨Or.inr ⟨rfl, rfl⟩, Or.inr ⟨rfl, rfl⟩⟩

theorem NoNewRoot.trans {s₁ s₂ s₃ : SessionManager} (h : NoNewRoot s₁ s₂) (h' : NoNewRoot s₂ s₃) :
    NoNewRoot s₁ s₃ := by
  rcases h' with h' | ⟨hroot, hbytes⟩
  · exact Or.inl h'
  · rw [NoNewRoot, hroot, hbytes]
    exact h

theorem NoNewUnlock.trans {s₁ s₂ s₃ : SessionManager} (h : NoNewUnlock s₁ s₂)
    (h' : NoNewUnlock s₂ s₃) : NoNewUnlock s₁ s₃ := by
  rcases h' with h' | ⟨hunlock, hbytes⟩
  · exact Or.inl h'
  · rw [NoNewUnlock, hunlock, hbytes]
    exact h

/-- A call of a lock locks, and no call unlocks at once. -/
theorem vaultUnlocked_update (c : SessionCall) (h : c.Locks ∨ s.vaultUnlocked = false) :
    (c.update P s).vaultUnlocked = false := by
  cases c with
  | connectWallet pubKey provider now =>
    obtain ⟨v, storage, hs⟩ := connectWallet_eq P now pubKey provider s
    rw [SessionCall.update, hs]
    split <;> rfl
  | lockVault => rfl
  | disconnectWallet => rfl
  | unlockVault wallet env => exact h.elim False.elim id

theorem Succeeded.step (hp : Succeeded n p) (h : AnyStep P D p q) : Succeeded n q := by
  obtain ⟨j, hj, wallet, env, hdone⟩ := hp
  exact ⟨j, hj, wallet, env, Pool.Step.done h hdone⟩

theorem UnlockSince.mono (hp : UnlockSince P n p) (hcalls : p.calls <+: q.calls)
    (hunlock : q.state.lastUnlock = p.state.lastUnlock)
    (hbytes : q.state.lastUnlockSignatureBytes = p.state.lastUnlockSignatureBytes) :
    UnlockSince P n q := by
  obtain ⟨j, hj, wallet, env, unlock, b, hcall, hanswer, hu, hb⟩ := hp
  obtain ⟨rest, hrest⟩ := hcalls
  obtain ⟨hlt, -⟩ := List.getElem?_eq_some_iff.mp hcall
  refine ⟨j, hj, wallet, env, unlock, b, ?_, hanswer, hunlock.trans hu, hbytes.trans hb⟩
  rw [← hrest, List.getElem?_append_left hlt]
  exact hcall

/-- A quiet turn leaves a call among the first `n` that waits for a signature there, or ends it with
an error. -/
theorem Quiet.resumed {i : Nat} {w : String} {env : UnlockEnv} {stage : Stage} {r : Round}
    {status : Status} {s' : SessionManager}
    (hi : p.threads[i]? = some (.unlockVault (some w) env, stage.rest P D env w))
    (h : Quiet n p ⟨s', p.threads.set i (.unlockVault (some w) env, status.task P D env w)⟩)
    (hin : i < n) (hpoint : stage.point = .signature r) :
    status.task P D env w = stage.rest P D env w ∨ ∃ e, status.task P D env w = .done (.error e) := by
  have hlt : i < p.threads.length := (List.getElem?_eq_some_iff.mp hi).1
  have hwaiting : p.threads[i]? = some (.unlockVault (some w) env,
      .await (.signature r) (fun _ => true) (stage.next P D env w)) := by
    rw [hi, Stage.rest, hpoint]
  have hquiet := h i hin _ r _ _ hwaiting
  simp only [List.getElem?_set_self hlt, hi, Option.some.injEq, Prod.mk.injEq, true_and] at hquiet
  exact hquiet

/-- A turn that delivers no signature to the first `n` calls does not unlock the session for
them. -/
theorem StillLocked.step (hstaged : Staged (fun _ _ _ => True) P D p)
    (hp : StillLocked P n s p) (h : AnyStep P D p q) (hquiet : Quiet n p q) :
    Succeeded n q ∨ StillLocked P n s q := by
  rcases step_cases hstaged h with ⟨c, -, -, rfl⟩ | ⟨i, w, env, stage, hi, -, -, -, rfl⟩
  · obtain ⟨hroot, hunlock⟩ := update_noNew (P := P) c p.state
    refine Or.inr ⟨vaultUnlocked_update c (Or.inr hp.locked), hp.vaultRoot.trans hroot, ?_⟩
    rcases hp.unlock with hold | hnew
    · exact Or.inl (hold.trans hunlock)
    · rcases hunlock with hnone | ⟨hu, hb⟩
      · exact Or.inl (Or.inl hnone)
      · exact Or.inr (hnew.mono (by simp [Pool.calls]) hu hb)
  · have hlt : i < p.threads.length := (List.getElem?_eq_some_iff.mp hi).1
    rcases stage.advance_cases w p.state with hs | ⟨unlock, b, rfl, hanswer, hs⟩ |
      ⟨vaultRoot, b, rfl, hanswer, hs⟩
    · right
      rw [hs]
      refine ⟨hp.locked, hp.vaultRoot, hp.unlock.imp_right fun hnew => ?_⟩
      exact hnew.mono (by simp [Pool.calls_set hi]) rfl rfl
    · rw [hs] at hquiet ⊢
      rcases Nat.lt_or_ge i n with hin | hni
      · rcases hquiet.resumed hi hin rfl with hrest | ⟨e, hrest⟩
        · cases (Task.await.inj hrest).1
        · cases hrest
      · refine Or.inr ⟨hp.locked, hp.vaultRoot, Or.inr ?_⟩
        refine ⟨i, hni, some w, env, unlock, b, ?_, hanswer, rfl, rfl⟩
        rw [Pool.calls_set hi]
        exact Pool.calls_getElem? hi
    · rw [hs] at hquiet ⊢
      rcases Nat.lt_or_ge i n with hin | hni
      · rcases hquiet.resumed hi hin rfl with hrest | ⟨e, hrest⟩ <;> cases hrest
      · exact Or.inl ⟨i, hni, some w, env, List.getElem?_set_self hlt⟩

/-- A turn of a call that stands at this stage. -/
theorem Resumes.eq {i : Nat} {w : String} {env : UnlockEnv} {stage : Stage}
    (h : Resumes p q i)
    (hi : p.threads[i]? = some (.unlockVault (some w) env, stage.rest P D env w)) :
    q = ⟨(stage.advance P D env w p.state).1, p.threads.set i
      (.unlockVault (some w) env, (stage.advance P D env w p.state).2.task P D env w)⟩ := by
  obtain ⟨c, point, ready, next, hnext, rfl⟩ := h
  rw [hi] at hnext
  obtain ⟨rfl, hrest⟩ := Prod.mk.inj (Option.some.inj hnext)
  obtain ⟨-, -, rfl⟩ := Task.await.inj hrest
  rw [Pool.resume, Stage.seg_next]

/-- A turn makes no call succeed but the one that it resumes. -/
theorem Succeeded.of_set {i : Nat} {d : SessionCall × SessionTask Unit} {s' : SessionManager}
    (h : Succeeded n ⟨s', p.threads.set i d⟩) (hd : i < n ∨ ∀ r, d.2 ≠ .done r) :
    Succeeded n p := by
  obtain ⟨j, hj, wallet, env, hdone⟩ := h
  by_cases hij : i = j
  · subst hij
    rcases hd with hlt | hd
    · omega
    · obtain ⟨hlt, hget⟩ := List.getElem?_eq_some_iff.mp hdone
      simp only [List.getElem_set_self] at hget
      exact absurd (congrArg Prod.snd hget) (hd _)
  · refine ⟨j, hj, wallet, env, ?_⟩
    rwa [List.getElem?_set_ne hij] at hdone

/-- A locked session stays locked in a turn, or a later call succeeds in it, exactly when the turn
delivers no signature that is stored before. -/
theorem step_locked_iff (hstaged : Staged (fun _ _ _ => True) P D p) (hn : ¬ Succeeded n p)
    (hp : Locked s p.state) (h : AnyStep P D p q) :
    (Succeeded n q ∨ Locked s q.state) ↔ ∀ i, Resumes p q i → Unsigned P D n s p i := by
  obtain ⟨hlocked, hroot, hunlock⟩ := hp
  constructor
  · intro hq i hi
    constructor
    · intro w env unlock b hwaiting hanswer
      have hs : (Stage.signature unlock).advance P D env w p.state =
          (storedUnlock p.state unlock b, .waiting (.deriveKek unlock b)) := by
        simp only [Stage.advance, hanswer, storedUnlock]
      rw [hi.eq hwaiting, hs] at hq
      rcases hq with hq | ⟨-, -, ⟨hnone, -⟩ | ⟨hu, hb⟩⟩
      · exact absurd (hq.of_set (Or.inr (by rintro r ⟨⟩))) hn
      · cases hnone
      · exact ⟨hu.symm, hb.symm⟩
    · intro hin w env vaultRoot b hwaiting hanswer
      have hs : (Stage.signatureRoot vaultRoot).advance P D env w p.state =
          (markUnlocked P env (storedRoot p.state vaultRoot b), .settled (.ok ())) := by
        simp only [Stage.advance, hanswer, storedRoot]
      rw [hi.eq hwaiting, hs] at hq
      rcases hq with hq | ⟨hq, -⟩
      · exact hn (hq.of_set (Or.inl hin))
      · cases hq
  · intro hunsigned
    rcases step_cases hstaged h with ⟨c, -, -, rfl⟩ | ⟨i, w, env, stage, hi, -, -, -, hq⟩
    · obtain ⟨hroot', hunlock'⟩ := update_noNew (P := P) c p.state
      exact Or.inr ⟨vaultUnlocked_update c (Or.inr hlocked), hroot.trans hroot',
        hunlock.trans hunlock'⟩
    · have hresumes : Resumes p q i :=
        ⟨_, _, _, _, hi, by rw [hq, Pool.resume, Stage.seg_next]⟩
      have hlt : i < p.threads.length := (List.getElem?_eq_some_iff.mp hi).1
      rcases stage.advance_cases w p.state with hs | ⟨unlock, b, rfl, hanswer, hs⟩ |
        ⟨vaultRoot, b, rfl, hanswer, hs⟩
      · rw [hq, hs]
        exact Or.inr ⟨hlocked, hroot, hunlock⟩
      · obtain ⟨hu, hb⟩ := (hunsigned i hresumes).unlock w env unlock b hi hanswer
        rw [hq, hs]
        exact Or.inr ⟨hlocked, hroot, Or.inr ⟨hu.symm, hb.symm⟩⟩
      · rw [hq, hs]
        rcases Nat.lt_or_ge i n with hin | hni
        · exact absurd hanswer ((hunsigned i hresumes).vaultRoot hin w env vaultRoot b hi)
        · exact Or.inl ⟨i, hni, some w, env, List.getElem?_set_self hlt⟩

/-! ### Runs -/

theorem staged_any (hp : Staged (fun _ _ _ => True) P D p) (h : AnyStep P D p q) :
    Staged (fun _ _ _ => True) P D q :=
  hp.step (fun _ _ _ => trivial) (fun _ _ _ _ _ _ _ _ => trivial) h

theorem staged_lock {init : SessionManager} {c : SessionCall}
    (hrun : ReflTransGen (AnyStep P D) (Pool.init init) p) (hc : c.Locks) :
    Staged (fun _ _ _ => True) P D (p.call (SessionCall.body P D) c) := by
  have hp : Staged (fun _ _ _ => True) P D p :=
    Pool.Run.invariant (Staged (fun _ _ _ => True) P D) (fun _ _ => staged_any) hrun (staged_init _)
  have hmade : c.Made p.state := by
    cases c with
    | unlockVault wallet env => exact hc.elim
    | _ => trivial
  exact staged_any hp (Pool.Step.call c ⟨hmade, trivial⟩)

/-- A lock locks, and gives the getters nothing that they do not give right after it. -/
theorem locked_lock {c : SessionCall} (hc : c.Locks) :
    Locked (p.call (SessionCall.body P D) c).state (p.call (SessionCall.body P D) c).state := by
  refine ⟨?_, Or.inr ⟨rfl, rfl⟩, Or.inr ⟨rfl, rfl⟩⟩
  rw [Pool.call, SessionCall.seg_body]
  exact vaultUnlocked_update c (Or.inl hc)

/-- What holds before a run holds after each of its turns, exactly when every turn keeps it. -/
theorem locked_states_iff (hstaged : Staged (fun _ _ _ => True) P D p)
    (hp : Succeeded n p ∨ Locked s p.state) {states : List SessionPool}
    (h : List.IsChain (AnyStep P D) (p :: states)) :
    (∀ q ∈ states, Succeeded n q ∨ Locked s q.state) ↔
      List.IsChain (UnsignedStep P D n s) (p :: states) := by
  induction states generalizing p with
  | nil => simp
  | cons q states ih =>
    obtain ⟨hstep, hrest⟩ := List.isChain_cons_cons.mp h
    have hone : (Succeeded n q ∨ Locked s q.state) ↔ UnsignedStep P D n s p q := by
      by_cases hn : Succeeded n p
      · exact iff_of_true (Or.inl (hn.step hstep)) ⟨hstep, Or.inl hn⟩
      · rw [step_locked_iff hstaged hn (hp.resolve_left hn) hstep, UnsignedStep]
        exact ⟨fun hunsigned => ⟨hstep, Or.inr hunsigned⟩, fun hunsigned =>
          hunsigned.2.resolve_left hn⟩
    rw [List.forall_mem_cons, List.isChain_cons_cons, hone]
    refine and_congr_right fun hq => ?_
    exact ih (staged_any hstaged hstep) (hone.mpr hq) hrest

/-- In a run after a lock, the session stays locked and gains no materials until a later call has
succeeded, exactly when every turn before that delivers no signature that is stored. -/
theorem locksEffective_iff {init : SessionManager} {c : SessionCall}
    (hrun : ReflTransGen (AnyStep P D) (Pool.init init) p) (hc : c.Locks)
    {states : List SessionPool}
    (h : List.IsChain (AnyStep P D) (p.call (SessionCall.body P D) c :: states)) :
    (∀ q ∈ states, Succeeded (p.threads.length + 1) q ∨
        Locked (p.call (SessionCall.body P D) c).state q.state) ↔
      List.IsChain
        (UnsignedStep P D (p.threads.length + 1) (p.call (SessionCall.body P D) c).state)
        (p.call (SessionCall.body P D) c :: states) :=
  locked_states_iff (staged_lock hrun hc) (Or.inr (locked_lock hc)) h

/-- Wallets that answer no message deliver nothing. -/
theorem unsigned_of_silent {i : Nat} (h : ∀ w env, .unlockVault (some w) env ∈ p.calls →
    ∀ r m, env.answer P r m = .ok none) : Unsigned P D n s p i where
  unlock w env unlock b hi hanswer := by
    rw [h w env (List.mem_of_getElem? (Pool.calls_getElem? hi))] at hanswer
    cases hanswer
  vaultRoot _ w env vaultRoot b hi hanswer := by
    rw [h w env (List.mem_of_getElem? (Pool.calls_getElem? hi))] at hanswer
    cases hanswer

/-- An unlock whose wallet answers no message, over a lock: the call goes on, and it ends with an
error. -/
theorem exists_refused_run {w : String} (env : UnlockEnv) {unlock : BuildUnlockResult}
    (hne : w ≠ "") (hbuilt : env.buildUnlock P D w = .ok unlock)
    (hsilent : ∀ r m, env.answer P r m = .ok none) (init : SessionManager) :
    ∃ (p : SessionPool) (states : List SessionPool),
      ReflTransGen (AnyStep P D) (Pool.init init) p ∧
      List.IsChain
        (UnsignedStep P D (p.threads.length + 1) (p.call (SessionCall.body P D) .lockVault).state)
        (p.call (SessionCall.body P D) .lockVault :: states) ∧
      ∃ q ∈ states, q.threads[1]? =
        some (.unlockVault (some w) env, .done (.error (.error missingUnlock))) := by
  have hw : (connectWallet P 0 (.text w) none init).walletPubKey = some w :=
    (connectWallet_walletPubKey ..).trans (normalized_text hne)
  have hconnect : AnyStep P D (Pool.init init) _ := step_connect init w 0 trivial
  let p := newest P D w env [(.connectWallet (.text w) none 0, .done (.ok ()))]
    (connectWallet P 0 (.text w) none init) (.waiting .build)
  have hcall : AnyStep P D _ p := step_unlock hw hne trivial
  let locked (status : Status) : SessionPool :=
    ⟨lockVault (connectWallet P 0 (.text w) none init),
      [(.connectWallet (.text w) none 0, .done (.ok ())),
        (.unlockVault (some w) env, status.task P D env w), (.lockVault, .done (.ok ()))]⟩
  have hturn : ∀ n s (stage : Stage) (status : Status),
      (∀ s', stage.advance P D env w s' = (s', status)) →
        UnsignedStep P D n s (locked (.waiting stage)) (locked status) := by
    intro n s stage status hadvance
    have hstep : AnyStep P D (locked (.waiting stage)) _ := resume_stage (i := 1) rfl trivial
    rw [hadvance] at hstep
    refine ⟨hstep, Or.inr fun i _ => unsigned_of_silent ?_⟩
    intro w' env' hmem
    simp only [locked, Pool.calls, List.map_cons, List.map_nil, List.mem_cons, reduceCtorEq,
      SessionCall.unlockVault.injEq, List.not_mem_nil, or_false, false_or] at hmem
    rw [hmem.2]
    exact hsilent
  refine ⟨p, [locked (.waiting (.debugLog unlock)), locked (.waiting (.signature unlock)),
    locked (.settled (.error (.error missingUnlock)))], .head hconnect (.single hcall), ?_,
    locked (.settled (.error (.error missingUnlock))), by simp, rfl⟩
  have hbuild : ∀ s', Stage.build.advance P D env w s' = (s', .waiting (.debugLog unlock)) := by
    intro s'
    simp only [Stage.advance, hbuilt]
  have hrefuse : ∀ s', (Stage.signature unlock).advance P D env w s' =
      (s', .settled (.error (.error missingUnlock))) := by
    intro s'
    simp only [Stage.advance, hsilent]
  exact .cons_cons (hturn _ _ _ _ hbuild) (.cons_cons (hturn _ _ (.debugLog unlock) _ fun _ => rfl)
    (.cons_cons (hturn _ _ _ _ hrefuse) (.singleton _)))

/-- The unlock in flight is refused by its wallet, and the session stays locked. -/
theorem locksEffective_iff_sample : ∃ (p : SessionPool) (states : List SessionPool),
    (∃ q ∈ states, q.threads[1]? =
      some (.unlockVault (some "Wa11et") silentEnv, .done (.error (.error missingUnlock)))) ∧
    ∀ q ∈ states, Succeeded (p.threads.length + 1) q ∨
      Locked (p.call (SessionCall.body symbolic sampleDates) .lockVault).state q.state := by
  obtain ⟨unlock, hunlock⟩ := sampleEnv_unlockSigned symbolic_lawful sampleSign "Wa11et"
  obtain ⟨p, states, hrun, hunsigned, hrefused⟩ := exists_refused_run (P := symbolic)
    silentEnv (by decide) hunlock.built (fun _ _ => rfl) (freshSession symbolic 0 fun _ => none)
  have hchain := hunsigned.imp fun _ _ hstep => hstep.1
  exact ⟨p, states, hrefused, (locksEffective_iff (c := .lockVault) hrun trivial hchain).mpr hunsigned⟩

/-- After a lock, the session stays locked until a later call of `unlockVault` has succeeded, as
long as nothing is signed for the calls that were in flight; materials it gains are signed for later
calls. -/
theorem stays_locked {init : SessionManager} {c : SessionCall}
    (hrun : ReflTransGen (AnyStep P D) (Pool.init init) p) (hc : c.Locks)
    (hquiet : ReflTransGen (QuietStep P D (p.threads.length + 1))
      (p.call (SessionCall.body P D) c) q) :
    Succeeded (p.threads.length + 1) q ∨
      StillLocked P (p.threads.length + 1) (p.call (SessionCall.body P D) c).state q := by
  suffices h : Staged (fun _ _ _ => True) P D q ∧ (Succeeded (p.threads.length + 1) q ∨
      StillLocked P (p.threads.length + 1) (p.call (SessionCall.body P D) c).state q) from h.2
  induction hquiet with
  | refl =>
    obtain ⟨hlocked, hroot, hunlock⟩ := locked_lock (P := P) (D := D) (p := p) hc
    exact ⟨staged_lock hrun hc, Or.inr ⟨hlocked, hroot, Or.inl hunlock⟩⟩
  | tail _ hstep ih =>
    obtain ⟨hstaged, hkept⟩ := ih
    refine ⟨staged_any hstaged hstep.1, ?_⟩
    rcases hkept with hsucceeded | hlocked
    · exact Or.inl (hsucceeded.step hstep.1)
    · rcases hstep.2 with hsucceeded | hquiet
      · exact Or.inl (hsucceeded.step hstep.1)
      · exact hlocked.step hstaged hstep.1 hquiet

/-- A lock while the message of an unlock is being built: the unlock goes on, with nothing
signed. -/
theorem exists_quiet_run {w : String} {env : UnlockEnv} {unlock : BuildUnlockResult} (hne : w ≠ "")
    (hbuilt : env.buildUnlock P D w = .ok unlock) (init : SessionManager) :
    ∃ p q, ReflTransGen (AnyStep P D) (Pool.init init) p ∧ p.threads.length = 2 ∧
      ReflTransGen (QuietStep P D (p.threads.length + 1))
        (p.call (SessionCall.body P D) .lockVault) q ∧
      q.threads[1]? = some (.unlockVault (some w) env, Stage.rest P D env w (.debugLog unlock)) := by
  have hw : (connectWallet P 0 (.text w) none init).walletPubKey = some w :=
    (connectWallet_walletPubKey ..).trans (normalized_text hne)
  have hconnect : AnyStep P D (Pool.init init) _ := step_connect init w 0 trivial
  let p := newest P D w env [(.connectWallet (.text w) none 0, .done (.ok ()))]
    (connectWallet P 0 (.text w) none init) (.waiting .build)
  have hcall : AnyStep P D _ p := step_unlock hw hne trivial
  have hwaiting : (p.call (SessionCall.body P D) .lockVault).threads[1]? =
      some (.unlockVault (some w) env, Stage.rest P D env w .build) := rfl
  have hresume : AnyStep P D (p.call (SessionCall.body P D) .lockVault) _ :=
    resume_stage hwaiting trivial
  have hadvance : ∀ s, Stage.build.advance P D env w s = (s, .waiting (.debugLog unlock)) := by
    intro s
    simp only [Stage.advance, hbuilt]
  refine ⟨p, _, .head hconnect (.single hcall), rfl, .single ⟨hresume, Or.inr ?_⟩, ?_⟩
  · intro i hi c r ready next hwaiting
    rcases i with _ | _ | _ | i
    · cases (Prod.mk.inj (Option.some.inj hwaiting)).2
    · cases (Task.await.inj (Prod.mk.inj (Option.some.inj hwaiting)).2).1
    · cases (Prod.mk.inj (Option.some.inj hwaiting)).2
    · cases hwaiting
  · simp only [hadvance]
    rfl

/-- An unlock in flight over a lock. -/
theorem stays_locked_sample : ∃ p q : SessionPool, p.threads.length = 2 ∧
    (Succeeded (p.threads.length + 1) q ∨ StillLocked symbolic (p.threads.length + 1)
      (p.call (SessionCall.body symbolic sampleDates) .lockVault).state q) := by
  obtain ⟨unlock, hunlock⟩ := sampleEnv_unlockSigned symbolic_lawful sampleSign "Wa11et"
  obtain ⟨p, q, hrun, hp, hquiet, -⟩ := exists_quiet_run (by decide) hunlock.built
    (freshSession symbolic 0 fun _ => none)
  exact ⟨p, q, hp, stays_locked hrun trivial hquiet⟩

/-- A later call that waits for its second signature has stored its unlock material. -/
theorem not_locksEffective {w : String} {env : UnlockEnv} {unlock : BuildUnlockResult} {b b' : Bytes}
    {vaultRoot : BuildVaultRootResult} (hne : w ≠ "") (hunlock : UnlockSigned P D env w unlock b)
    (hroot : VaultRootSigned P env (some w) vaultRoot b') (init : SessionManager) :
    ¬ LocksEffective P D init := by
  intro h
  have hw : (lockVault (connectWallet P 0 (.text w) none init)).walletPubKey = some w :=
    (connectWallet_walletPubKey ..).trans (normalized_text hne)
  have hconnect : AnyStep P D (Pool.init init) _ := step_connect init w 0 trivial
  let ts : List (SessionCall × SessionTask Unit) :=
    [(.connectWallet (.text w) none 0, .done (.ok ())), (.lockVault, .done (.ok ()))]
  let s := lockVault (connectWallet P 0 (.text w) none init)
  have hcall : AnyStep P D ⟨s, ts⟩ (newest P D w env ts s (.waiting .build)) :=
    step_unlock hw hne trivial
  have hafter : ReflTransGen (AnyStep P D) (newest P D w env ts s (.waiting .build))
      (newest P D w env ts { s with lastUnlock := some unlock, lastUnlockSignatureBytes := some b }
        (.waiting (.signatureRoot vaultRoot))) :=
    run_to_root hunlock (hw ▸ hroot.built) fun _ _ _ _ => trivial
  rcases h _ .lockVault _ (.single hconnect) trivial (.head hcall hafter) with
    ⟨j, hj, wallet, env', hdone⟩ | ⟨-, -, ⟨hnone, -⟩ | ⟨hsame, -⟩⟩
  · match j, hj, hdone with
    | 2, _, hdone => cases (Prod.mk.inj (Option.some.inj hdone)).2
  · cases hnone
  · cases hsame

/-- The vault is locked, and an unlock after it keeps its first signature while it waits for the
second. -/
theorem unlock_stored_before_success :
    ¬ LocksEffective symbolic sampleDates (freshSession symbolic 0 fun _ => none) := by
  obtain ⟨unlock, hunlock⟩ := sampleEnv_unlockSigned symbolic_lawful sampleSign "Wa11et"
  obtain ⟨vaultRoot, hroot⟩ :=
    sampleEnv_vaultRootSigned symbolic_lawful sampleSign (some "Wa11et")
  exact not_locksEffective (by decide) hunlock hroot _

end SovereignJedi.Session
