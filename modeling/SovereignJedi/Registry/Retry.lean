import SovereignJedi.Js.CodeUnits

/-! `withRetry` of `RetryUtils.ts` and the settings that `RegistryService.ts` passes to it. The loop
counts with a JavaScript number up to a number that was parsed from the environment: nothing is
called if that is negative or no number at all, and beyond `2 ^ 53` the counter no longer grows. -/

namespace SovereignJedi.Registry.Retry

open SovereignJedi.Js

structure Options where
  retries : Number
  backoffMs : Number

/-- `parseInt(env || fallback, 10)` of an environment variable. -/
def setting (env : Option CodeUnits) (fallback : List Char) : Number :=
  match env with
  | none | some [] => (CodeUnits.ofAscii fallback).parseInt 10
  | some s => s.parseInt 10

/-- The environment variables `NEXT_PUBLIC_SJ_SOLANA_RPC_RETRIES`, `NEXT_PUBLIC_SJ_IPFS_RETRIES` and
`NEXT_PUBLIC_SJ_RETRY_BACKOFF_MS`. -/
structure Environment where
  solanaRpcRetries : Option CodeUnits
  ipfsRetries : Option CodeUnits
  retryBackoffMs : Option CodeUnits

def Environment.backoff (env : Environment) : Number := setting env.retryBackoffMs ['3', '0', '0']

/-- The options of `getRegistry`. -/
def Environment.rpc (env : Environment) : Options :=
  { retries := setting env.solanaRpcRetries ['2'], backoffMs := env.backoff }

/-- The options of `getManifestFromIpfs`. -/
def Environment.ipfs (env : Environment) : Options :=
  { retries := setting env.ipfsRetries ['3'], backoffMs := env.backoff }

/-- The variables of `withRetry` when it tests `i <= retries`, with what it has done: how often it
has called `fn`, the arguments of its calls of `onRetry`, and the delays it has waited. The counter
`i` is a double. -/
structure Loop (ε : Type) where
  i : Nat := 0
  lastError : Option ε := none
  calls : Nat := 0
  retried : List (Nat × ε) := []
  waits : List Number := []

/-- How `withRetry` ends: with a value, or throwing `lastError`, which is `null` at first. -/
abbrev Outcome (ε α : Type) := Except (Option ε) α

section Model

-- `Math.pow` is as the platform approximates it
variable {ε α : Type} (pow : Nat → Nat → Number) (o : Options)

/-- Powers of at most 53 bits are exact. -/
def Powers : Prop := ∀ b i, b ^ i < 2 ^ 53 → pow b i = .ofInt (b ^ i)

/-- `backoffMs * Math.pow(3, i)`. -/
def delay (i : Nat) : Number := o.backoffMs.mul (pow 3 i)

/-- `backoffMs` times the power `3 ^ i` is a number, where `Math.pow(3, i)` gives one. -/
def Fits (backoffMs : Number) (i : Nat) : Prop :=
  match backoffMs with
  | .nan => True
  | .infinite _ => (pow 3 i).AtLeast 1
  | .whole b => if b.val = 0 then ∃ p, pow 3 i = .whole p else Double.IsFinite (b.val * 3 ^ i)

variable {pow} in
/-- A product is exact where it can be: from `3 ^ 34` on the powers of three have too many bits. -/
theorem mul_isTimes_iff (hpow : Powers pow) (x : Number) (i : Nat) :
    x.IsTimes (3 ^ i) (x.mul (pow 3 i)) ↔ Fits pow x i := by
  cases x with
  | nan => simp [Number.IsTimes, Number.mul, Fits]
  | infinite negative =>
    simp only [Number.IsTimes, Fits]
    cases pow 3 i with
    | nan => simp [Number.mul, Number.AtLeast]
    | infinite negative' => cases negative <;> cases negative' <;> simp [Number.mul, Number.AtLeast]
    | whole p =>
      simp only [Number.mul, Number.AtLeast]
      split
      · simp [*]
      · cases negative <;> simp <;> omega
  | whole b =>
    simp only [Number.IsTimes, Fits]
    by_cases hb : b.val = 0
    · rw [if_pos hb]
      cases pow 3 i with
      | nan => simp [Number.mul]
      | infinite negative => simp [Number.mul, hb]
      | whole p =>
        have hzero : Number.ofInt 0 = .whole ⟨0, _⟩ := Number.ofInt_of_lt (by decide) (by decide)
        simp [Number.mul, hb, hzero]
    · rw [if_neg hb]
      constructor
      · rintro ⟨z, -, hz⟩
        have hfinite := z.property
        rw [hz] at hfinite
        exact_mod_cast hfinite
      · intro hfinite
        have hodd : 3 ^ i % 2 = 1 := Nat.odd_iff.mp (Odd.pow (by decide))
        have hpos : b.val * 3 ^ i ≠ 0 := Int.mul_ne_zero hb (pow_ne_zero _ (by decide))
        have hlt : 3 ^ i < 2 ^ 53 :=
          hfinite.odd_dvd_lt hpos hodd ⟨b.val, by push_cast; exact Int.mul_comm ..⟩
        have hthree : Number.ofInt (3 ^ i) = .whole ⟨3 ^ i, _⟩ :=
          Number.ofInt_of_isFinite (by exact_mod_cast Number.isFinite_natCast hlt.le)
        rw [hpow 3 i hlt, Nat.cast_ofNat, hthree]
        exact ⟨_, Number.ofInt_of_isFinite hfinite, by push_cast; rfl⟩

/-- The `catch` block after a call that failed with `err`, and `i++`. -/
def Loop.failed (l : Loop ε) (err : ε) : Loop ε :=
  let l := { l with calls := l.calls + 1, lastError := some err }
  let l := if (Number.ofInt l.i).lt o.retries then
      { l with retried := l.retried ++ [(Double.roundNat (l.i + 1), err)]
               waits := l.waits ++ [delay pow o l.i] }
    else l
  { l with i := Double.roundNat (l.i + 1) }

/-- The loop, for as many turns as `fuel`. Call number `k` of `fn` has the outcome `fn k`. -/
def Loop.run (fn : Nat → Except ε α) : Nat → Loop ε → Option (Loop ε × Outcome ε α)
  | 0, _ => none
  | fuel + 1, l =>
    if (Number.ofInt l.i).le o.retries then
      match fn l.calls with
      | .ok value => some ({ l with calls := l.calls + 1 }, .ok value)
      | .error err => run fn fuel (l.failed pow o err)
    else some (l, .error l.lastError)

/-- `withRetry` ends, having done `l`, with `r`. -/
def Returns (fn : Nat → Except ε α) (l : Loop ε) (r : Outcome ε α) : Prop :=
  ∃ fuel, Loop.run pow o fn fuel {} = some (l, r)

/-- `max(retries, 0) + 1`, or `none` where there is no bound. -/
def maxCalls : Number → Option Nat
  | .nan => some 1
  | .infinite negative => if negative then some 1 else none
  | .whole retries => some ((max retries.val 0).toNat + 1)

/-- The contract of `withRetry`. The calls before the last one have failed with `es`, and each of
them was followed by a report and a wait, of `backoffMs * 3 ^ k` after call `k`; the last call
decides how it ends. -/
structure Contract (fn : Nat → Except ε α) (es : List ε) (l : Loop ε) (r : Outcome ε α) : Prop where
  failed : ∀ k e, es[k]? = some e → fn k = .error e
  calls : l.calls = es.length + 1
  bounded : ∀ n, maxCalls o.retries = some n → l.calls ≤ n
  result : (∃ value, fn es.length = .ok value ∧ r = .ok value) ∨
    ∃ e, fn es.length = .error e ∧ r = .error (some e)
  retried : l.retried = es.zipIdx.map fun p => (p.2 + 1, p.1)
  waited : l.waits.length = es.length
  waits : ∀ k w, l.waits[k]? = some w → o.backoffMs.IsTimes (3 ^ k) w

/-- After call `k` has failed, as all before it, there is another one to wait for. -/
def WaitsAfter (fn : Nat → Except ε α) (k : Nat) : Prop :=
  o.retries.AtLeast (k + 1) ∧ ∀ j ≤ k, ∀ a, fn j ≠ .ok a

/-- `withRetry` ends and has kept the contract. -/
def Meets (fn : Nat → Except ε α) : Prop := ∃ es l r, Returns pow o fn l r ∧ Contract o fn es l r

/-! ### One turn of the loop -/

section Turn

variable {pow o} {fn : Nat → Except ε α} (l : Loop ε) (err : ε)

@[simp] theorem Loop.failed_calls : (l.failed pow o err).calls = l.calls + 1 := by
  unfold Loop.failed
  dsimp only
  split <;> rfl

@[simp] theorem Loop.failed_lastError : (l.failed pow o err).lastError = some err := by
  unfold Loop.failed
  dsimp only
  split <;> rfl

@[simp] theorem Loop.failed_i : (l.failed pow o err).i = Double.roundNat (l.i + 1) := by
  unfold Loop.failed
  dsimp only
  split <;> rfl

theorem Loop.failed_retrying (h : (Number.ofInt l.i).lt o.retries = true) :
    (l.failed pow o err).retried = l.retried ++ [(Double.roundNat (l.i + 1), err)] ∧
      (l.failed pow o err).waits = l.waits ++ [delay pow o l.i] := by
  unfold Loop.failed
  dsimp only
  rw [if_pos h]
  exact ⟨rfl, rfl⟩

theorem Loop.failed_last (h : ¬ (Number.ofInt l.i).lt o.retries = true) :
    (l.failed pow o err).retried = l.retried ∧ (l.failed pow o err).waits = l.waits := by
  unfold Loop.failed
  dsimp only
  rw [if_neg h]
  exact ⟨rfl, rfl⟩

theorem Loop.failed_grows :
    l.retried <+: (l.failed pow o err).retried ∧ l.waits <+: (l.failed pow o err).waits := by
  by_cases h : (Number.ofInt l.i).lt o.retries = true
  · obtain ⟨hretried, hwaits⟩ : (l.failed pow o err).retried = _ ∧ (l.failed pow o err).waits = _ :=
      l.failed_retrying err h
    rw [hretried, hwaits]
    exact ⟨List.prefix_append _ _, List.prefix_append _ _⟩
  · obtain ⟨hretried, hwaits⟩ : (l.failed pow o err).retried = _ ∧ (l.failed pow o err).waits = _ :=
      l.failed_last err h
    rw [hretried, hwaits]
    exact ⟨List.prefix_rfl, List.prefix_rfl⟩

variable {l err} {fuel : Nat}

theorem run_fail (h : (Number.ofInt l.i).le o.retries = true) (hfn : fn l.calls = .error err) :
    Loop.run pow o fn (fuel + 1) l = Loop.run pow o fn fuel (l.failed pow o err) := by
  rw [Loop.run, if_pos h, hfn]

theorem run_value {value : α} (h : (Number.ofInt l.i).le o.retries = true)
    (hfn : fn l.calls = .ok value) :
    Loop.run pow o fn (fuel + 1) l = some ({ l with calls := l.calls + 1 }, .ok value) := by
  rw [Loop.run, if_pos h, hfn]

theorem run_stop (h : ¬ (Number.ofInt l.i).le o.retries = true) :
    Loop.run pow o fn (fuel + 1) l = some (l, .error l.lastError) := by
  rw [Loop.run, if_neg h]

end Turn

/-! ### Whole runs -/

section Run

variable {pow o} {fn : Nat → Except ε α} {l l' : Loop ε} {r : Outcome ε α} {fuel : Nat}

/-- More turns than needed change nothing. -/
theorem run_add (h : Loop.run pow o fn fuel l = some (l', r)) (k : Nat) :
    Loop.run pow o fn (fuel + k) l = some (l', r) := by
  induction fuel generalizing l with
  | zero => cases h
  | succ fuel ih =>
    rw [Nat.add_right_comm]
    by_cases hle : (Number.ofInt l.i).le o.retries = true
    · cases hfn : fn l.calls with
      | ok value =>
        rw [run_value hle hfn] at h ⊢
        exact h
      | error err =>
        rw [run_fail hle hfn] at h ⊢
        exact ih h
    · rw [run_stop hle] at h ⊢
      exact h

/-- What is done stays done. -/
theorem run_grows (h : Loop.run pow o fn fuel l = some (l', r)) :
    l.calls ≤ l'.calls ∧ l.retried <+: l'.retried ∧ l.waits <+: l'.waits := by
  induction fuel generalizing l with
  | zero => cases h
  | succ fuel ih =>
    by_cases hle : (Number.ofInt l.i).le o.retries = true
    · cases hfn : fn l.calls with
      | ok value =>
        rw [run_value hle hfn] at h
        cases h
        exact ⟨Nat.le_succ _, List.prefix_rfl, List.prefix_rfl⟩
      | error err =>
        rw [run_fail hle hfn] at h
        obtain ⟨hcalls, hretried, hwaits⟩ := ih h
        obtain ⟨hretried', hwaits'⟩ := l.failed_grows err
        rw [Loop.failed_calls] at hcalls
        exact ⟨by omega, hretried'.trans hretried, hwaits'.trans hwaits⟩
    · rw [run_stop hle] at h
      cases h
      exact ⟨le_rfl, List.prefix_rfl, List.prefix_rfl⟩

/-- A turn in which the loop goes on calls `fn`. -/
theorem run_calls (h : Loop.run pow o fn fuel l = some (l', r))
    (hle : (Number.ofInt l.i).le o.retries = true) : l.calls < l'.calls := by
  rcases fuel with _ | fuel
  · cases h
  cases hfn : fn l.calls with
  | ok value =>
    rw [run_value hle hfn] at h
    cases h
    exact Nat.lt_succ_self _
  | error err =>
    rw [run_fail hle hfn] at h
    have hcalls := (run_grows h).1
    rw [Loop.failed_calls] at hcalls
    omega

end Run

/-! ### Runs of failures -/

section Failures

/-- The loop after calls that failed with `es`, none of which was its last turn. -/
def failures (es : List ε) : Loop ε := es.foldl (Loop.failed pow o) {}

variable {pow o} {fn : Nat → Except ε α} {es : List ε}

theorem failures_concat (es : List ε) (e : ε) :
    failures pow o (es ++ [e]) = (failures pow o es).failed pow o e := by
  rw [failures, List.foldl_append]
  rfl

theorem failures_calls (es : List ε) : (failures pow o es).calls = es.length := by
  induction es using List.reverseRecOn with
  | nil => rfl
  | append_singleton es e ih => rw [failures_concat, Loop.failed_calls, ih, List.length_append]; rfl

/-- The counter counts the calls, up to the first number that is its own successor. -/
theorem failures_i (es : List ε) : (failures pow o es).i = min es.length (2 ^ 53) := by
  induction es using List.reverseRecOn with
  | nil => rfl
  | append_singleton es e ih =>
    rw [failures_concat, Loop.failed_i, ih, List.length_append, List.length_singleton]
    by_cases hsmall : es.length < 2 ^ 53
    · rw [Nat.min_eq_left (by omega), Nat.min_eq_left (by omega),
        Double.roundNat_of_le (by omega)]
    · rw [Nat.min_eq_right (by omega), Nat.min_eq_right (by omega),
        Double.roundNat_two_pow_53_succ]

theorem failures_le {es : List ε} :
    (Number.ofInt (failures pow o es).i).le o.retries = true ↔
      o.retries.AtLeast (min es.length (2 ^ 53)) := by
  rw [failures_i, Number.le_natCast_iff (Nat.min_le_right _ _)]

theorem failures_lt {es : List ε} :
    (Number.ofInt (failures pow o es).i).lt o.retries = true ↔
      o.retries.AtLeast (min es.length (2 ^ 53) + 1) := by
  rw [failures_i, Number.lt_natCast_iff (Nat.min_le_right _ _)]

/-- While the counter is below `retries`, each failure is reported and waited for. -/
theorem failures_retrying (h : ∀ k < es.length, o.retries.AtLeast (min k (2 ^ 53) + 1)) :
    (failures pow o es).retried = es.zipIdx.map (fun p => (min (p.2 + 1) (2 ^ 53), p.1)) ∧
      (failures pow o es).waits = (List.range es.length).map fun k => delay pow o (min k (2 ^ 53)) := by
  induction es using List.reverseRecOn with
  | nil => exact ⟨rfl, rfl⟩
  | append_singleton es e ih =>
    rw [List.length_append, List.length_singleton] at h
    obtain ⟨hretried, hwaits⟩ := ih fun k hk => h k (by omega)
    obtain ⟨hr, hw⟩ : ((failures pow o es).failed pow o e).retried = _ ∧
        ((failures pow o es).failed pow o e).waits = _ :=
      (failures pow o es).failed_retrying e (failures_lt.mpr (h _ (by omega)))
    have hi : (failures pow o (es ++ [e])).i = _ := failures_i (es ++ [e])
    rw [failures_concat, Loop.failed_i, List.length_append, List.length_singleton] at hi
    rw [failures_concat, hr, hw, hretried, hwaits, hi, failures_i, List.length_append,
      List.length_singleton, List.zipIdx_append, List.range_succ, List.map_append, List.map_append]
    exact ⟨by simp, by simp⟩

theorem run_failures (hfn : ∀ k e, es[k]? = some e → fn k = .error e)
    (h : ∀ k < es.length, o.retries.AtLeast (min k (2 ^ 53))) (fuel : Nat) :
    Loop.run pow o fn (es.length + fuel) {} = Loop.run pow o fn fuel (failures pow o es) := by
  induction es using List.reverseRecOn generalizing fuel with
  | nil => rw [List.length_nil, Nat.zero_add]; rfl
  | append_singleton es e ih =>
    rw [List.length_append, List.length_singleton] at h ⊢
    have hes : ∀ k e', es[k]? = some e' → fn k = .error e' := by
      intro k e' hk
      refine hfn k e' ?_
      rw [List.getElem?_append_left (List.getElem?_eq_some_iff.mp hk).1, hk]
    have hlast : fn (failures pow o es).calls = .error e := by
      rw [failures_calls]
      exact hfn _ _ (by simp)
    rw [Nat.add_assoc, Nat.add_comm 1, ih hes fun k hk => h k (by omega), failures_concat]
    exact run_fail (failures_le.mpr (h _ (by omega))) hlast

/-- The errors of calls that all fail. -/
theorem exists_errors {n : Nat} (h : ∀ k < n, ∀ a, fn k ≠ .ok a) :
    ∃ es : List ε, es.length = n ∧ ∀ k e, es[k]? = some e → fn k = .error e := by
  induction n with
  | zero => exact ⟨[], rfl, by simp⟩
  | succ n ih =>
    obtain ⟨es, hlen, hes⟩ := ih fun k hk => h k (by omega)
    cases hn : fn n with
    | ok a => exact absurd hn (h n (by omega) a)
    | error err =>
      refine ⟨es ++ [err], by simp [hlen], fun k e hk => ?_⟩
      rw [List.getElem?_append] at hk
      split at hk
      · exact hes k e hk
      · obtain ⟨hk0, he⟩ : k - es.length = 0 ∧ err = e := by simpa [List.getElem?_singleton] using hk
        rw [show k = n by omega, hn, he]

end Failures

/-! ### The contract -/

section Meets

variable {pow o} {fn : Nat → Except ε α}

/-- Before the counter stops growing it is the number of calls. -/
theorem failures_report {es : List ε} (hlen : es.length ≤ 2 ^ 53)
    (h : o.retries.AtLeast es.length) :
    (failures pow o es).retried = es.zipIdx.map (fun p => (p.2 + 1, p.1)) ∧
      (failures pow o es).waits = (List.range es.length).map (delay pow o) := by
  have hall : ∀ k < es.length, o.retries.AtLeast (min k (2 ^ 53) + 1) := by
    intro k hk
    exact h.mono (by omega)
  obtain ⟨hretried, hwaits⟩ := failures_retrying hall
  refine ⟨hretried.trans (List.map_congr_left fun p hp => ?_),
    hwaits.trans (List.map_congr_left fun k hk => ?_)⟩
  · have hp2 := (List.mem_zipIdx' hp).1
    rw [Nat.min_eq_left (by omega)]
  · have hk := List.mem_range.mp hk
    rw [Nat.min_eq_left (by omega)]

theorem le_maxCalls {k n : Nat} (h : o.retries.AtLeast k) (hn : maxCalls o.retries = some n) :
    k + 1 ≤ n := by
  cases hr : o.retries with
  | nan => rw [hr] at h; exact h.elim
  | infinite negative =>
    rw [hr] at h hn
    rw [show negative = false from h] at hn
    simp [maxCalls] at hn
  | whole x =>
    rw [hr] at h hn
    simp only [maxCalls, Option.some.injEq, Number.AtLeast] at h hn
    omega

theorem run_to_failures {es : List ε}
    (hes : ∀ k e, es[k]? = some e → fn k = .error e) (h : o.retries.AtLeast es.length)
    (fuel : Nat) : Loop.run pow o fn (es.length + fuel) {} = Loop.run pow o fn fuel (failures pow o es) :=
  run_failures hes (fun k hk => h.mono (by omega)) fuel

/-- Waits that fit are exact. -/
theorem waits_exact (hpow : Powers pow) {waits : List Number} {n : Nat}
    (hwaits : waits = (List.range n).map (delay pow o)) (hfits : ∀ k < n, Fits pow o.backoffMs k) :
    waits.length = n ∧ ∀ k w, waits[k]? = some w → o.backoffMs.IsTimes (3 ^ k) w := by
  subst hwaits
  refine ⟨by simp, fun k w hw => ?_⟩
  obtain ⟨hk, rfl⟩ : k < n ∧ delay pow o k = w := by simpa [List.getElem?_eq_some_iff] using hw
  exact (mul_isTimes_iff hpow _ _).mpr (hfits k hk)

/-- A first success that is reached ends the loop. -/
theorem meets_of_value (hpow : Powers pow) {k : Nat} {value : α} (hk : k ≤ 2 ^ 53)
    (h : o.retries.AtLeast k) (hvalue : fn k = .ok value) (hfail : ∀ j < k, ∀ a, fn j ≠ .ok a)
    (hfits : ∀ j < k, Fits pow o.backoffMs j) : Meets pow o fn := by
  obtain ⟨es, rfl, hes⟩ := exists_errors hfail
  obtain ⟨hretried, hwaits⟩ : (failures pow o es).retried = _ ∧ (failures pow o es).waits = _ :=
    failures_report hk h
  obtain ⟨hwaited, hexact⟩ := waits_exact hpow hwaits hfits
  have hle : (Number.ofInt (failures pow o es).i).le o.retries = true := by
    rw [failures_le, Nat.min_eq_left hk]
    exact h
  have hcall : fn (failures pow o es).calls = .ok value := by rw [failures_calls, hvalue]
  refine ⟨es, _, _, ⟨es.length + 1, (run_to_failures hes h 1).trans (run_value hle hcall)⟩, hes,
    by rw [failures_calls], fun n hn => ?_, .inl ⟨value, hvalue, rfl⟩, hretried, hwaited, hexact⟩
  rw [failures_calls]
  exact le_maxCalls h hn

/-- After `retries + 1` failures the last error is thrown. -/
theorem meets_of_errors (hpow : Powers pow) {n : Nat} (hn : n < 2 ^ 53) (h : o.retries.AtLeast n)
    (hmax : ¬ o.retries.AtLeast (n + 1)) (hfail : ∀ k ≤ n, ∀ a, fn k ≠ .ok a)
    (hfits : ∀ j < n, Fits pow o.backoffMs j) : Meets pow o fn := by
  obtain ⟨es, rfl, hes⟩ := exists_errors fun k hk => hfail k (Nat.le_of_lt hk)
  cases hlast : fn es.length with
  | ok a => exact absurd hlast (hfail _ le_rfl a)
  | error err =>
    obtain ⟨hretried, hwaits⟩ : (failures pow o es).retried = _ ∧ (failures pow o es).waits = _ :=
      failures_report (by omega) h
    have hle : (Number.ofInt (failures pow o es).i).le o.retries = true := by
      rw [failures_le, Nat.min_eq_left (by omega)]
      exact h
    have hnot : ¬ (Number.ofInt (failures pow o es).i).lt o.retries = true := by
      rw [failures_lt, Nat.min_eq_left (by omega)]
      exact hmax
    have hstop : ¬ (Number.ofInt ((failures pow o es).failed pow o err).i).le o.retries = true := by
      rw [← failures_concat, failures_le, List.length_append, List.length_singleton,
        Nat.min_eq_left (by omega)]
      exact hmax
    have hcall : fn (failures pow o es).calls = .error err := by rw [failures_calls, hlast]
    obtain ⟨hr, hw⟩ : ((failures pow o es).failed pow o err).retried = _ ∧
        ((failures pow o es).failed pow o err).waits = _ := (failures pow o es).failed_last err hnot
    obtain ⟨hwaited, hexact⟩ := waits_exact hpow (hw.trans hwaits) hfits
    have hrun : Loop.run pow o fn (es.length + 2) {} =
        some ((failures pow o es).failed pow o err, .error (some err)) := by
      rw [run_to_failures hes h, run_fail hle hcall, run_stop hstop,
        Loop.failed_lastError]
    refine ⟨es, _, _, ⟨_, hrun⟩, hes, by rw [Loop.failed_calls, failures_calls], fun m hm => ?_,
      .inr ⟨err, hlast, rfl⟩, hr.trans hretried, hwaited, hexact⟩
    rw [Loop.failed_calls, failures_calls]
    exact le_maxCalls h hm

theorem not_le_start (h : ¬ o.retries.AtLeast 0) :
    ¬ (Number.ofInt ({} : Loop ε).i).le o.retries = true := fun hle =>
  h ((Number.le_natCast_iff (Nat.zero_le _) _).mp hle)

/-- With no number of retries, or a negative one, `fn` is not called. -/
theorem Meets.atLeast_zero (h : Meets pow o fn) : o.retries.AtLeast 0 := by
  obtain ⟨es, l, r, ⟨fuel, hrun⟩, hcontract⟩ := h
  by_contra hneg
  have hstop : ¬ (Number.ofInt ({} : Loop ε).i).le o.retries = true := not_le_start hneg
  rcases fuel with _ | fuel
  · cases hrun
  rw [run_stop hstop] at hrun
  cases hrun
  exact absurd hcontract.calls (by simp)

/-- If more than `2 ^ 53` calls fail, the last ones are not counted. -/
theorem Meets.exists_value (h : Meets pow o fn) (hlarge : o.retries.AtLeast (2 ^ 53)) :
    ∃ k ≤ 2 ^ 53, ∃ value, fn k = .ok value := by
  by_contra hnone
  have hfail : ∀ k < 2 ^ 53 + 1, ∀ a, fn k ≠ .ok a := fun k hk a ha =>
    hnone ⟨k, by omega, a, ha⟩
  obtain ⟨es', l, r, ⟨fuel, hrun⟩, hcontract⟩ := h
  obtain ⟨es, hlen, hes⟩ := exists_errors hfail
  have hturns : ∀ k < es.length, o.retries.AtLeast (min k (2 ^ 53)) := fun k _ =>
    hlarge.mono (Nat.min_le_right _ _)
  have hafter : Loop.run pow o fn fuel (failures pow o es) = some (l, r) := by
    rw [← run_failures hes hturns fuel, Nat.add_comm]
    exact run_add hrun _
  have hle : (Number.ofInt (failures pow o es).i).le o.retries = true :=
    failures_le.mpr (hlarge.mono (Nat.min_le_right _ _))
  have hcalls := run_calls hafter hle
  rw [failures_calls, hlen, hcontract.calls] at hcalls
  by_cases hmore : o.retries.AtLeast (2 ^ 53 + 1)
  · -- The report of the last of these failures has the attempt number of the one before.
    have hall : ∀ k < es.length, o.retries.AtLeast (min k (2 ^ 53) + 1) :=
      fun k _ => hmore.mono (by omega)
    have hreport : (failures pow o es).retried = _ := (failures_retrying hall).1
    obtain ⟨err, herr⟩ : ∃ err, es[2 ^ 53]? = some err :=
      ⟨_, List.getElem?_eq_getElem (by omega)⟩
    obtain ⟨err', herr'⟩ : ∃ err', es'[2 ^ 53]? = some err' :=
      ⟨_, List.getElem?_eq_getElem (by omega)⟩
    have hreported : (failures pow o es).retried[2 ^ 53]? = some (2 ^ 53, err) := by
      rw [hreport, List.getElem?_map, List.getElem?_zipIdx, herr]
      simp
    have hexpected : l.retried[2 ^ 53]? = some (2 ^ 53 + 1, err') := by
      rw [hcontract.retried, List.getElem?_map, List.getElem?_zipIdx, herr']
      simp
    obtain ⟨later, hlater⟩ := (run_grows hafter).2.1
    rw [← hlater, List.getElem?_append_left (List.getElem?_eq_some_iff.mp hreported).1,
      hreported] at hexpected
    simp at hexpected
  · -- Here there is one more call than `retries + 1`.
    have hmax : maxCalls o.retries = some (2 ^ 53 + 1) := by
      cases hr : o.retries with
      | nan => rw [hr] at hlarge; exact hlarge.elim
      | infinite negative =>
        rw [hr] at hlarge hmore
        exact absurd hlarge hmore
      | whole x =>
        rw [hr] at hlarge hmore
        simp only [Number.AtLeast] at hlarge hmore
        have hx : (max x.val 0).toNat = 2 ^ 53 := by omega
        rw [maxCalls, hx]
    have hbound := hcontract.bounded _ hmax
    rw [hcontract.calls] at hbound
    omega

/-- A wait that takes place fits. -/
theorem Meets.fits (hpow : Powers pow) (h : Meets pow o fn) {k : Nat} (hk : k < 2 ^ 53)
    (hwait : WaitsAfter o fn k) : Fits pow o.backoffMs k := by
  obtain ⟨es', l, r, ⟨fuel, hrun⟩, hcontract⟩ := h
  obtain ⟨es, hlen, hes⟩ := exists_errors (n := k + 1) fun j hj => hwait.2 j (by omega)
  have hat : o.retries.AtLeast es.length := hlen ▸ hwait.1
  have hafter : Loop.run pow o fn fuel (failures pow o es) = some (l, r) := by
    rw [← run_to_failures hes hat fuel, Nat.add_comm]
    exact run_add hrun _
  have hwaits : (failures pow o es).waits = _ := (failures_report (by omega) hat).2
  obtain ⟨later, hlater⟩ := (run_grows hafter).2.2
  have hdelay : l.waits[k]? = some (delay pow o k) := by
    rw [← hlater, hwaits, List.getElem?_append_left (by simp; omega)]
    simp [hlen]
  exact (mul_isTimes_iff hpow _ _).mp (hcontract.waits k _ hdelay)

theorem exists_first {p : Nat → Prop} (h : ∃ k, p k) : ∃ k, p k ∧ ∀ j < k, ¬ p j := by
  classical
  exact ⟨Nat.find h, Nat.find_spec h, fun j hj => Nat.find_min h hj⟩

end Meets

variable {pow o} in
/-- `withRetry` keeps its contract exactly if `retries` is a number that is not negative, one of the
first `2 ^ 53 + 1` calls succeeds where it is `2 ^ 53` or more, and what it waits for fits. -/
theorem meets_iff (hpow : Powers pow) (fn : Nat → Except ε α) :
    Meets pow o fn ↔ o.retries.AtLeast 0 ∧
      (¬ o.retries.AtLeast (2 ^ 53) ∨ ∃ k ≤ 2 ^ 53, ∃ value, fn k = .ok value) ∧
      ∀ k, WaitsAfter o fn k → Fits pow o.backoffMs k := by
  constructor
  · intro h
    have hcase : ¬ o.retries.AtLeast (2 ^ 53) ∨ ∃ k ≤ 2 ^ 53, ∃ value, fn k = .ok value := by
      by_cases hlarge : o.retries.AtLeast (2 ^ 53)
      · exact .inr (h.exists_value hlarge)
      · exact .inl hlarge
    refine ⟨h.atLeast_zero, hcase, fun k hwait => h.fits hpow ?_ hwait⟩
    by_contra hk
    obtain ⟨j, hj, value, hvalue⟩ :=
      hcase.resolve_left (not_not.mpr (hwait.1.mono (by omega)))
    exact hwait.2 j (by omega) value hvalue
  · rintro ⟨hzero, hcase, hfits⟩
    by_cases hvalue : ∃ k ≤ 2 ^ 53, o.retries.AtLeast k ∧ ∃ value, fn k = .ok value
    · obtain ⟨k, ⟨hk, hat, value, hvalue⟩, hfirst⟩ := exists_first hvalue
      have hfail : ∀ j < k, ∀ a, fn j ≠ .ok a := fun j hj a ha =>
        hfirst j hj ⟨by omega, hat.mono (by omega), a, ha⟩
      exact meets_of_value hpow hk hat hvalue hfail fun j hj =>
        hfits j ⟨hat.mono (by omega), fun i hi => hfail i (by omega)⟩
    · have hsmall : ¬ o.retries.AtLeast (2 ^ 53) := by
        intro hlarge
        obtain ⟨k, hk, value⟩ := hcase.resolve_left (not_not.mpr hlarge)
        exact hvalue ⟨k, hk, hlarge.mono hk, value⟩
      obtain ⟨n, hn, hat, hmax⟩ := Number.exists_last hzero hsmall
      have hfail : ∀ k ≤ n, ∀ a, fn k ≠ .ok a := fun k hk a ha =>
        hvalue ⟨k, by omega, hat.mono hk, a, ha⟩
      exact meets_of_errors hpow hn hat hmax hfail fun j hj =>
        hfits j ⟨hat.mono (by omega), fun i hi => hfail i (by omega)⟩

variable {pow o} in
/-- What is returned is the value of a call. -/
theorem Returns.exists_value {fn : Nat → Except ε α} {l : Loop ε} {value : α}
    (h : Returns pow o fn l (.ok value)) : ∃ k, fn k = .ok value := by
  obtain ⟨fuel, hrun⟩ := h
  generalize ({} : Loop ε) = start at hrun
  induction fuel generalizing start with
  | zero => cases hrun
  | succ fuel ih =>
    by_cases hle : (Number.ofInt start.i).le o.retries = true
    · cases hfn : fn start.calls with
      | ok v =>
        rw [run_value hle hfn] at hrun
        cases hrun
        exact ⟨_, hfn⟩
      | error err =>
        rw [run_fail hle hfn] at hrun
        exact ih _ hrun
    · rw [run_stop hle] at hrun
      cases hrun

variable {pow o} in
/-- If one of the calls that there are turns for succeeds, a value is returned. -/
theorem returns_of_value {fn : Nat → Except ε α} {k : Nat} {value : α}
    (hk : k ≤ 2 ^ 53) (h : o.retries.AtLeast k) (hvalue : fn k = .ok value) :
    ∃ l first, Returns pow o fn l (.ok first) := by
  obtain ⟨j, ⟨hj, first, hfirst⟩, hfail⟩ := exists_first (p := fun j => j ≤ k ∧ ∃ v, fn j = .ok v)
    ⟨k, le_rfl, value, hvalue⟩
  obtain ⟨es, rfl, hes⟩ := exists_errors fun i hi a ha => hfail i hi ⟨by omega, a, ha⟩
  have hle : (Number.ofInt (failures pow o es).i).le o.retries = true := by
    rw [failures_le, Nat.min_eq_left (by omega)]
    exact h.mono hj
  have hcall : fn (failures pow o es).calls = .ok first := by rw [failures_calls, hfirst]
  exact ⟨_, first, es.length + 1,
    (run_to_failures hes (h.mono hj) 1).trans (run_value hle hcall)⟩

/-- Where `fn` is not called, what is thrown is `null`. -/
theorem returns_null (fn : Nat → Except ε α) (h : ¬ o.retries.AtLeast 0) :
    Returns pow o fn {} (.error none) ∧ ¬ Meets pow o fn :=
  ⟨⟨1, run_stop (not_le_start h)⟩, fun hmeets => h hmeets.atLeast_zero⟩

end Model

/-! ### Samples -/

/-- `Math.pow`, rounded as all other operations are. -/
def roundedPow (b i : Nat) : Number := .ofInt (b ^ i)

theorem powers_rounded : Powers roundedPow := fun _ _ _ => rfl

/-- By default the third call is the last one. -/
theorem meets_iff_sample : Meets roundedPow ⟨.ofInt 2, .ofInt 300⟩
    fun k => if k < 2 then .error "offline" else .ok k := by
  have h2 : ∀ k, (Number.ofInt 2).AtLeast k ↔ k ≤ 2 := fun k =>
    Number.atLeast_ofInt (n := 2) (by decide)
  have h300 : Number.ofInt 300 = .whole ⟨300, _⟩ := Number.ofInt_of_lt (by decide) (by decide)
  rw [meets_iff powers_rounded]
  simp only [WaitsAfter, h2, h300, Fits]
  refine ⟨by decide, Or.inl (by decide), ?_⟩
  rintro k ⟨hk, -⟩
  rw [if_neg (by decide)]
  obtain rfl | rfl : k = 0 ∨ k = 1 := by omega
  · exact Number.isFinite_of_lt (by decide) (by decide)
  · exact Number.isFinite_of_lt (by decide) (by decide)

/-- A variable that is set is parsed. -/
theorem Environment.rpc_retries {env : Environment} {u : UInt16} {s : CodeUnits}
    (h : env.solanaRpcRetries = some (u :: s)) :
    env.rpc.retries = CodeUnits.parseInt (u :: s) 10 := by
  rw [Environment.rpc, h, setting]
  simp

theorem parseInt_minus_one : (CodeUnits.ofAscii ['-', '1']).parseInt 10 = .ofInt (-1) := by
  have hspace : (CodeUnits.ofAscii ['-', '1']).dropWhile CodeUnits.isSpace =
      CodeUnits.ofAscii ['-', '1'] := by decide
  have hsign : CodeUnits.stripSign (CodeUnits.ofAscii ['-', '1']) =
      (true, CodeUnits.ofAscii ['1']) := by decide
  have hdigits : CodeUnits.leadingDigits 10 (CodeUnits.ofAscii ['1']) = [1] := by decide
  have hvalue : Radix.value 10 [1] = 1 := by simp [Radix.value]
  simp [CodeUnits.parseInt, hspace, hsign, hdigits, hvalue]

theorem not_atLeast_minus_one : ¬ (Number.ofInt (-1)).AtLeast 0 := by
  rw [Number.ofInt_of_lt (n := -1) (by decide) (by decide), Number.AtLeast]
  decide

/-- With `-1` or `none` as the number of retries of the RPC node, `getRegistry` throws `null` and
does not ask the node, which would have answered. -/
theorem retries_not_counted :
    let negative : Environment := ⟨some (CodeUnits.ofAscii ['-', '1']), none, none⟩
    let noNumber : Environment := ⟨some (CodeUnits.ofAscii ['n', 'o', 'n', 'e']), none, none⟩
    let fn : Nat → Except String Nat := fun _ => .ok 0
    (Returns roundedPow negative.rpc fn {} (.error none) ∧ ¬ Meets roundedPow negative.rpc fn) ∧
      Returns roundedPow noNumber.rpc fn {} (.error none) ∧ ¬ Meets roundedPow noNumber.rpc fn := by
  intro negative noNumber fn
  have hnegative : ¬ negative.rpc.retries.AtLeast 0 := by
    have hretries : negative.rpc.retries = .ofInt (-1) :=
      (Environment.rpc_retries rfl).trans parseInt_minus_one
    rw [hretries]
    exact not_atLeast_minus_one
  have hnoNumber : ¬ noNumber.rpc.retries.AtLeast 0 := by
    have hparse : (CodeUnits.ofAscii ['n', 'o', 'n', 'e']).parseInt 10 = .nan := by decide
    have hretries : noNumber.rpc.retries = .nan := (Environment.rpc_retries rfl).trans hparse
    rw [hretries]
    exact not_false
  exact ⟨returns_null _ _ fn hnegative, returns_null _ _ fn hnoNumber⟩

end SovereignJedi.Registry.Retry
