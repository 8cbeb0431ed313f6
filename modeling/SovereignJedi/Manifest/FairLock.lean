import SovereignJedi.Manifest.Mutex

/-! `createMutex` as a lock. Functions that are passed to `runExclusive` note when they are called
and when what they return is settled; whatever they do, and whenever the calls are made, their notes
say that they ran one at a time and in the order of the calls. An abstract lock says how it passes
from one function to the next, and the promises of the mutex follow it. -/

namespace SovereignJedi.Manifest.FairLock

open SovereignJedi.Async

/-! ### Functions of any kind -/

section Functions

variable {ι δ ε α : Type}

/-- A function that is passed to `runExclusive`. Its call throws, or returns a promise, of which the
task is what is left to do until it is settled. -/
abbrev Fn (ι δ ε α : Type) := δ → δ × Except ε (Task ι δ ε α)

/-- `return await fn()`. -/
def awaitCall (result : ι) (fn : Fn ι δ ε α) : Task ι δ ε α :=
  .sync (fun d => (fn d).1) fun d => match (fn d).2 with
    | .ok t => t.awaited result
    | .error e => .done (.error e)

/-- `runExclusive(fn)` on the one mutex of the state. -/
def runExclusiveOf (previous result : ι) (fn : Fn ι δ ε α) : Task ι (Tab Unit δ) ε α :=
  .sync (fun s => s.setMutex () (s.getMutex ()).enqueue) fun s =>
    waiting () previous (s.getMutex ()).tail (awaitCall result fn)

end Functions

/-! ### Notes -/

/-- Function `i` is called, or what it returned is settled with `r`. -/
inductive Event (ε α : Type) where
  | started (i : Nat)
  | settled (i : Nat) (r : Except ε α)

/-- The data that functions work on, and their notes. -/
structure World (δ ε α : Type) where
  data : δ
  notes : List (Event ε α)

section Notes

variable {ι δ ε α : Type}

def World.setData (d : δ) (w : World δ ε α) : World δ ε α := { w with data := d }

def World.note (w : World δ ε α) (e : Event ε α) : World δ ε α := { w with notes := w.notes ++ [e] }

@[simp] theorem World.setData_notes (d : δ) (w : World δ ε α) : (w.setData d).notes = w.notes := rfl
@[simp] theorem World.note_notes (w : World δ ε α) (e : Event ε α) :
    (w.note e).notes = w.notes ++ [e] := rfl

/-- What is left of function `i`, which notes its end. -/
def settling (i : Nat) : Task ι δ ε α → Task ι (World δ ε α) ε α
  | .done r => .sync (fun w => w.note (.settled i r)) fun _ => .done r
  | .sync f n => .sync (fun w => w.setData (f w.data)) fun w => settling i (n w.data)
  | .await p ready n => .await p (fun w => ready w.data) (settling i n)

/-- `fn`, passed to call number `i`, with its notes. -/
def noting (i : Nat) (fn : Fn ι δ ε α) : Fn ι (World δ ε α) ε α := fun w =>
  let w' := (w.note (.started i)).setData (fn w.data).1
  match (fn w.data).2 with
  | .ok t => (w', .ok (settling i t))
  | .error e => (w'.note (.settled i (.error e)), .error e)

end Notes

/-! ### Runs -/

section Runs

variable {ι δ ε α : Type}

/-- The mutex, the data and the calls of `runExclusive` so far. -/
abbrev State (ι δ ε α : Type) := Pool Nat ι (Tab Unit (World δ ε α)) ε α

def State.notes (p : State ι δ ε α) : List (Event ε α) := p.state.data.notes

def State.start (d : δ) : State ι δ ε α := Pool.init (Tab.fresh ⟨d, []⟩)

variable (previous result : ι) (fn : Nat → Fn ι δ ε α)

/-- Call number `i`, with `fn i`. -/
def body (i : Nat) : Task ι (Tab Unit (World δ ε α)) ε α :=
  runExclusiveOf previous result (noting i (fn i))

/-- Call `i` can go on. -/
def Ready (p : State ι δ ε α) (i : Nat) : Prop :=
  ∃ c point ready next, p.threads[i]? = some (c, .await point ready next) ∧ ready p.state = true

/-- Call `i` goes on up to its next `await`. -/
def Resumes (p q : State ι δ ε α) (i : Nat) : Prop :=
  ∃ c point ready next, p.threads[i]? = some (c, .await point ready next) ∧ ready p.state = true ∧
    q = p.resume i c next

/-- One turn of the event loop: another call is made, one of the calls goes on, or some other code
changes the data. A call that a function makes in the middle of a turn only touches the mutex, and
stands for one just before that turn. -/
inductive Step : State ι δ ε α → State ι δ ε α → Prop
  | call (p : State ι δ ε α) : Step p (p.call (body previous result fn) p.threads.length)
  | resume {p q : State ι δ ε α} (i : Nat) (h : Resumes p q i) : Step p q
  | other (p : State ι δ ε α) (d : δ) :
      Step p { p with state := p.state.setData (p.state.data.setData d) }

/-- The states that can be reached from a fresh mutex. -/
def Reachable (d : δ) (p : State ι δ ε α) : Prop :=
  Relation.ReflTransGen (Step previous result fn) (.start d) p

/-- An infinite run, in which a call that stays ready goes on at some time. -/
structure Execution (d : δ) where
  state : Nat → State ι δ ε α
  start : state 0 = .start d
  next : ∀ t, state (t + 1) = state t ∨ Step previous result fn (state t) (state (t + 1))
  fair : ∀ t i, (∀ u ≥ t, Ready (state u) i) → ∃ u ≥ t, Resumes (state u) (state (u + 1)) i

end Runs

/-! ### The lock -/

/-- Whether the function whose turn it is has not been called, is running, or has settled without
having given the lock back. -/
inductive Phase (ε α : Type) where
  | idle
  | running
  | ending (r : Except ε α)

/-- A lock: the outcomes of the functions that have had it, and the phase of the next one. -/
structure Lock (ε α : Type) where
  outcomes : List (Except ε α)
  phase : Phase ε α

section Lock

variable {ε α : Type}

def Phase.notes (i : Nat) : Phase ε α → List (Event ε α)
  | .idle => []
  | .running => [.started i]
  | .ending r => [.started i, .settled i r]

/-- The notes of functions that have run one after the other, with these outcomes. -/
def history (rs : List (Except ε α)) : List (Event ε α) :=
  rs.zipIdx.flatMap fun p => [.started p.2, .settled p.2 p.1]

def Lock.notes (L : Lock ε α) : List (Event ε α) :=
  history L.outcomes ++ L.phase.notes L.outcomes.length

/-- How the lock passes on: a function is called, which throws, returns a promise or returns one that
is settled already; it settles; it gives the lock to the next one. -/
inductive Lock.Next : Lock ε α → Lock ε α → Prop
  | throws (rs : List (Except ε α)) (e : ε) : Next ⟨rs, .idle⟩ ⟨rs ++ [.error e], .idle⟩
  | starts (rs : List (Except ε α)) : Next ⟨rs, .idle⟩ ⟨rs, .running⟩
  | returns (rs : List (Except ε α)) (r : Except ε α) : Next ⟨rs, .idle⟩ ⟨rs, .ending r⟩
  | settles (rs : List (Except ε α)) (r : Except ε α) : Next ⟨rs, .running⟩ ⟨rs, .ending r⟩
  | releases (rs : List (Except ε α)) (r : Except ε α) : Next ⟨rs, .ending r⟩ ⟨rs ++ [r], .idle⟩

theorem Lock.Next.cases_outcomes {L L' : Lock ε α} (h : L.Next L') :
    L'.outcomes = L.outcomes ∨ L'.phase = .idle ∧ ∃ r, L'.outcomes = L.outcomes ++ [r] := by
  cases h with
  | throws rs e => exact .inr ⟨rfl, _, rfl⟩
  | starts rs => exact .inl rfl
  | returns rs r => exact .inl rfl
  | settles rs r => exact .inl rfl
  | releases rs r => exact .inr ⟨rfl, _, rfl⟩

/-- The outcomes that have been noted. -/
def Lock.settled (L : Lock ε α) : List (Except ε α) :=
  match L.phase with
  | .ending r => L.outcomes ++ [r]
  | _ => L.outcomes

theorem history_concat (rs : List (Except ε α)) (r : Except ε α) :
    history (rs ++ [r]) = history rs ++ [.started rs.length, .settled rs.length r] := by
  simp [history, List.zipIdx_append]

theorem started_mem_history {rs : List (Except ε α)} {i : Nat} :
    Event.started i ∈ history rs ↔ i < rs.length := by
  induction rs using List.reverseRecOn with
  | nil => simp [history]
  | append_singleton rs r ih =>
    simp only [history_concat, List.mem_append, ih, List.mem_cons, Event.started.injEq, reduceCtorEq,
      List.not_mem_nil, or_false, List.length_append, List.length_cons, List.length_nil]
    omega

theorem settled_mem_history {rs : List (Except ε α)} {i : Nat} {r : Except ε α} :
    Event.settled i r ∈ history rs ↔ rs[i]? = some r := by
  induction rs using List.reverseRecOn with
  | nil => simp [history]
  | append_singleton rs r' ih =>
    simp only [history_concat, List.mem_append, ih, List.mem_cons, Event.settled.injEq, reduceCtorEq,
      List.not_mem_nil, or_false, false_or]
    rcases Nat.lt_trichotomy i rs.length with hi | rfl | hi
    · rw [List.getElem?_append_left hi]
      simp [Nat.ne_of_lt hi]
    · simp [eq_comm]
    · rw [List.getElem?_eq_none (Nat.le_of_lt hi), List.getElem?_eq_none (by simp; omega)]
      simp [Nat.ne_of_gt hi]

theorem Lock.notes_ending (rs : List (Except ε α)) (r : Except ε α) :
    Lock.notes ⟨rs, .ending r⟩ = history (rs ++ [r]) := (history_concat rs r).symm

/-- In what was noted there are no two outcomes of one function. -/
theorem Lock.settled_mem {L : Lock ε α} {i : Nat} {r : Except ε α} :
    Event.settled i r ∈ L.notes ↔ L.settled[i]? = some r := by
  obtain ⟨rs, phase⟩ := L
  cases phase with
  | idle => simp [Lock.notes, Phase.notes, Lock.settled, settled_mem_history]
  | running => simp [Lock.notes, Phase.notes, Lock.settled, settled_mem_history]
  | ending r' => rw [Lock.notes_ending, settled_mem_history]; rfl

end Lock

/-! ### What the notes of a lock say -/

section Notes

variable {ε α : Type}

/-- Function `i` has been called, and what it returned is not settled. -/
def Active (notes : List (Event ε α)) (i : Nat) : Prop :=
  .started i ∈ notes ∧ ∀ r, .settled i r ∉ notes

/-- The functions that have been called, in order. -/
def started (notes : List (Event ε α)) : List Nat :=
  notes.filterMap fun e => match e with
    | .started i => some i
    | .settled _ _ => none

theorem not_active_history (rs : List (Except ε α)) (i : Nat) : ¬ Active (history rs) i := by
  intro ⟨hstarted, hsettled⟩
  have hi := started_mem_history.mp hstarted
  exact hsettled rs[i] (settled_mem_history.mpr (List.getElem?_eq_getElem hi))

theorem Lock.active {L : Lock ε α} {i : Nat} (h : Active L.notes i) : i = L.outcomes.length := by
  obtain ⟨rs, phase⟩ := L
  cases phase with
  | idle =>
    rw [Lock.notes, Phase.notes, List.append_nil] at h
    exact absurd h (not_active_history _ _)
  | running =>
    obtain ⟨hstarted, hsettled⟩ := h
    simp only [Lock.notes, Phase.notes, List.mem_append, List.mem_singleton, Event.started.injEq]
      at hstarted
    rcases hstarted with hold | hnew
    · refine absurd ⟨hold, fun r hr => ?_⟩ (not_active_history rs i)
      exact hsettled r (List.mem_append_left _ hr)
    · exact hnew
  | ending r =>
    rw [Lock.notes_ending] at h
    exact absurd h (not_active_history _ _)

/-- What was noted at an earlier time are the notes of a lock, too. -/
theorem history_earlier {rs : List (Except ε α)} {notes : List (Event ε α)}
    (h : notes <+: history rs) : ∃ L : Lock ε α, notes = L.notes := by
  induction rs using List.reverseRecOn with
  | nil => exact ⟨⟨[], .idle⟩, List.prefix_nil.mp h⟩
  | append_singleton rs r ih =>
    have hsplit : history (rs ++ [r]) = Lock.notes ⟨rs, .running⟩ ++ [.settled rs.length r] := by
      simp [history_concat, Lock.notes, Phase.notes]
    rw [hsplit, List.prefix_concat_iff] at h
    rcases h with h | h
    · exact ⟨⟨rs, .ending r⟩, by rw [h, Lock.notes_ending, hsplit]⟩
    · rw [Lock.notes, Phase.notes, List.prefix_concat_iff] at h
      rcases h with h | h
      · exact ⟨⟨rs, .running⟩, h⟩
      · exact ih h

theorem Lock.notes_earlier {L : Lock ε α} {notes : List (Event ε α)} (h : notes <+: L.notes) :
    ∃ L₀ : Lock ε α, notes = L₀.notes := by
  obtain ⟨rs, phase⟩ := L
  cases phase with
  | idle =>
    rw [Lock.notes, Phase.notes, List.append_nil] at h
    exact history_earlier h
  | running =>
    rw [Lock.notes, Phase.notes, List.prefix_concat_iff] at h
    rcases h with h | h
    · exact ⟨⟨rs, .running⟩, h⟩
    · exact history_earlier h
  | ending r =>
    rw [Lock.notes_ending] at h
    exact history_earlier h

theorem started_history (rs : List (Except ε α)) : started (history rs) = List.range rs.length := by
  induction rs using List.reverseRecOn with
  | nil => rfl
  | append_singleton rs r ih =>
    rw [started] at ih
    rw [started, history_concat, List.filterMap_append, ih, List.length_append, List.length_singleton,
      List.range_succ]
    rfl

theorem Lock.started_notes (L : Lock ε α) :
    started L.notes = List.range (started L.notes).length := by
  obtain ⟨rs, phase⟩ := L
  cases phase with
  | idle =>
    rw [Lock.notes, Phase.notes, List.append_nil, started_history, List.length_range]
  | running =>
    have hstarted : started (Lock.notes ⟨rs, .running⟩) = List.range (rs.length + 1) := by
      have hrs := started_history rs
      rw [started] at hrs
      rw [Lock.notes, Phase.notes, started, List.filterMap_append, hrs, List.range_succ]
      rfl
    rw [hstarted, List.length_range]
  | ending r => rw [Lock.notes_ending, started_history, List.length_range]

end Notes

/-! ### The mutex follows the lock -/

section Follows

variable {ι δ ε α : Type} (previous result : ι) (fn : Nat → Fn ι δ ε α)

/-- Where call `i` stands with a lock. -/
inductive Stands (L : Lock ε α) (i : Nat) : Task ι (Tab Unit (World δ ε α)) ε α → Prop
  | past (r : Except ε α) (h : L.outcomes[i]? = some r) : Stands L i (.done r)
  | waits (h : L.outcomes.length ≤ i) (hidle : i = L.outcomes.length → L.phase = .idle) :
      Stands L i (waiting () previous i (awaitCall result (noting i (fn i))))
  | runs (p : ι) (ready : δ → Bool) (t : Task ι δ ε α) (hi : i = L.outcomes.length)
      (h : L.phase = .running) :
      Stands L i (section_ () i ((settling i (.await p ready t)).awaited result))
  | ends (r : Except ε α) (hi : i = L.outcomes.length) (h : L.phase = .ending r) :
      Stands L i (section_ () i (.op result r))

/-- The promises of the mutex are those of the functions that have had the lock, and every call
stands where the lock has it. -/
structure Follows (p : State ι δ ε α) (L : Lock ε α) : Prop where
  tail : (p.state.getMutex ()).tail = p.threads.length
  resolved : ∀ n, (p.state.getMutex ()).resolved n = true ↔ n ≤ L.outcomes.length
  issued : L.outcomes.length ≤ p.threads.length
  turn : L.phase ≠ .idle → L.outcomes.length < p.threads.length
  notes : p.notes = L.notes
  thread : ∀ i c t, p.threads[i]? = some (c, t) → c = i ∧ Stands previous result fn L i t

variable {previous result fn} {p q : State ι δ ε α} {L L' : Lock ε α} {rs : List (Except ε α)}
  {r : Except ε α} {c : Nat} {t₀ : Task ι (Tab Unit (World δ ε α)) ε α}

theorem Follows.start (d : δ) : Follows previous result fn (.start d) ⟨[], .idle⟩ where
  tail := rfl
  resolved n := by simp [State.start, Pool.init, createMutex]
  issued := le_rfl
  turn h := absurd rfl h
  notes := rfl
  thread i c t h := by simp [State.start, Pool.init] at h

/-- A call that is not at its turn stands where it stood. -/
theorem Stands.next {i : Nat} {t : Task ι (Tab Unit (World δ ε α)) ε α} (hL : L.Next L')
    (hi : i ≠ L.outcomes.length) (h : Stands previous result fn L i t) :
    Stands previous result fn L' i t := by
  cases h with
  | past r h =>
    refine .past r ?_
    rcases hL.cases_outcomes with heq | ⟨-, r', heq⟩
    · rw [heq, h]
    · rw [heq, List.getElem?_append_left (List.getElem?_eq_some_iff.mp h).1, h]
  | waits h hidle =>
    rcases hL.cases_outcomes with heq | ⟨hphase, r', heq⟩
    · exact .waits (heq ▸ h) fun hi' => absurd (heq ▸ hi') hi
    · refine .waits ?_ fun _ => hphase
      rw [heq, List.length_append, List.length_singleton]
      omega
  | runs p ready t hi' h => exact absurd hi' hi
  | ends r hi' h => exact absurd hi' hi

/-- The call whose turn it is goes on, and the lock as well or not. -/
theorem Follows.resume {next t' : Task ι (Tab Unit (World δ ε α)) ε α}
    {s' : Tab Unit (World δ ε α)} (hF : Follows previous result fn p L)
    (hi : p.threads[L.outcomes.length]? = some (c, t₀)) (hseg : next.seg p.state = (s', t'))
    (hL : L' = L ∨ L.Next L') (htail : (s'.getMutex ()).tail = (p.state.getMutex ()).tail)
    (hresolved : ∀ n, (s'.getMutex ()).resolved n = true ↔ n ≤ L'.outcomes.length)
    (hnotes : s'.data.notes = L'.notes) (ht' : Stands previous result fn L' L.outcomes.length t') :
    Follows previous result fn (p.resume L.outcomes.length c next) L' := by
  obtain ⟨hlt, -⟩ := List.getElem?_eq_some_iff.mp hi
  have hlen : (p.resume L.outcomes.length c next).threads.length = p.threads.length := by
    rw [Pool.resume, List.length_set]
  have hstate : (p.resume L.outcomes.length c next).state = s' := by rw [Pool.resume, hseg]
  have hcases : L'.outcomes = L.outcomes ∨ L'.phase = .idle ∧ ∃ r, L'.outcomes = L.outcomes ++ [r] := by
    rcases hL with rfl | hL
    · exact .inl rfl
    · exact hL.cases_outcomes
  refine ⟨?_, ?_, ?_, ?_, ?_, fun j d t hj => ?_⟩
  · rw [hstate, htail, hF.tail, hlen]
  · rw [hstate]
    exact hresolved
  · rw [hlen]
    rcases hcases with heq | ⟨-, r, heq⟩
    · rw [heq]
      exact hF.issued
    · rw [heq, List.length_append, List.length_singleton]
      exact hlt
  · intro hphase
    rw [hlen]
    rcases hcases with heq | ⟨hidle, -⟩
    · rw [heq]
      exact hlt
    · exact absurd hidle hphase
  · rw [State.notes, hstate, hnotes]
  · rcases Pool.getElem?_resume hi hj with ⟨hne, hj⟩ | ⟨rfl, rfl, rfl⟩
    · obtain ⟨hd, hstands⟩ := hF.thread j d t hj
      refine ⟨hd, ?_⟩
      rcases hL with rfl | hL
      · exact hstands
      · exact hstands.next hL hne
    · rw [hseg]
      exact ⟨(hF.thread _ _ _ hi).1, ht'⟩

variable (result) in
/-- What is left of a function runs up to its next `await`, or to its end, which it notes. -/
theorem seg_settling (i : Nat) (t : Task ι δ ε α) (w : World δ ε α) :
    (∃ w' p ready t', ((settling i t).awaited result).seg w =
        (w', (settling i (.await p ready t')).awaited result) ∧ w'.notes = w.notes) ∨
      ∃ w' r, ((settling i t).awaited result).seg w = (w', .op result r) ∧
        w'.notes = w.notes ++ [.settled i r] := by
  induction t generalizing w with
  | done r => exact .inr ⟨_, r, rfl, rfl⟩
  | sync f n ih => exact ih w.data (w.setData (f w.data))
  | await p ready n ih => exact .inl ⟨w, p, ready, n, rfl, rfl⟩

variable (result) in
theorem awaitCall_throws {i : Nat} {w : World δ ε α} {e : ε} (h : (fn i w.data).2 = .error e) :
    ∃ w', (awaitCall result (noting i (fn i))).seg w = (w', .done (.error e)) ∧
      w'.notes = w.notes ++ [.started i, .settled i (.error e)] := by
  refine ⟨(noting i (fn i) w).1, ?_, ?_⟩
  · simp only [awaitCall, Task.seg, noting, h]
  · simp [noting, h]

variable (result) in
theorem awaitCall_returns {i : Nat} {w : World δ ε α} {t : Task ι δ ε α}
    (h : (fn i w.data).2 = .ok t) :
    ∃ w', (awaitCall result (noting i (fn i))).seg w = ((settling i t).awaited result).seg w' ∧
      w'.notes = w.notes ++ [.started i] := by
  refine ⟨(noting i (fn i) w).1, ?_, ?_⟩
  · simp only [awaitCall, Task.seg, noting, h]
  · simp [noting, h]

/-- The end of a section, at which promise `i + 1` is resolved. -/
theorem release_resolved {m : Mutex} {i : Nat} (h : ∀ n, m.resolved n = true ↔ n ≤ i) (n : Nat) :
    (m.release (i + 1)).resolved n = true ↔ n ≤ i + 1 := by
  by_cases hn : n = i + 1
  · subst hn
    simp
  · rw [Mutex.release_resolved, Function.update_of_ne hn, h]
    omega

/-- A turn in which a function goes on: it runs then, or has ended. -/
theorem Follows.goesOn {phase : Phase ε α} (hF : Follows previous result fn p ⟨rs, phase⟩)
    (hi : p.threads[rs.length]? = some (c, t₀)) {next : Task ι (World δ ε α) ε α} {t : Task ι δ ε α}
    {w : World δ ε α}
    (hcall : next.seg p.state.data = ((settling rs.length t).awaited result).seg w)
    (hw : w.notes = history rs ++ [.started rs.length])
    (hruns : ⟨rs, .running⟩ = Lock.mk rs phase ∨ Lock.Next ⟨rs, phase⟩ ⟨rs, .running⟩)
    (hends : ∀ r, Lock.Next ⟨rs, phase⟩ ⟨rs, .ending r⟩) :
    ∃ L', (L' = ⟨rs, .running⟩ ∨ ∃ r, L' = ⟨rs, .ending r⟩) ∧ Follows previous result fn
      (p.resume rs.length c (section_ () rs.length next)) L' := by
  rcases seg_settling result rs.length t w with
    ⟨w', pt, ready, t', hseg, hw'⟩ | ⟨w', r, hseg, hw'⟩
  · rw [← hcall] at hseg
    refine ⟨_, .inl rfl, hF.resume hi (seg_section_await hseg) hruns ?_ ?_ ?_ ?_⟩
    · rw [Tab.getMutex_setData]
    · rw [Tab.getMutex_setData]
      exact hF.resolved
    · simp [hw', hw, Lock.notes, Phase.notes]
    · exact .runs pt ready t' rfl rfl
  · rw [← hcall] at hseg
    refine ⟨_, .inr ⟨r, rfl⟩, hF.resume hi (seg_section_await hseg) (.inr (hends r)) ?_ ?_ ?_ ?_⟩
    · rw [Tab.getMutex_setData]
    · rw [Tab.getMutex_setData]
      exact hF.resolved
    · simp [hw', hw, Lock.notes, Phase.notes]
    · exact .ends r rfl rfl

/-- The first turn of a function. -/
theorem Follows.first (hF : Follows previous result fn p ⟨rs, .idle⟩)
    (hi : p.threads[rs.length]? = some (c, t₀)) :
    ∃ L', Lock.Next ⟨rs, .idle⟩ L' ∧ Follows previous result fn
      (p.resume rs.length c
        (section_ () rs.length (awaitCall result (noting rs.length (fn rs.length))))) L' := by
  have hnotes : p.state.data.notes = history rs := hF.notes.trans (List.append_nil _)
  cases hfn : (fn rs.length p.state.data.data).2 with
  | error e =>
    obtain ⟨w, hseg, hw⟩ := awaitCall_throws result hfn
    refine ⟨_, .throws rs e, hF.resume hi (seg_section_done hseg) (.inr (.throws rs e)) ?_ ?_ ?_ ?_⟩
    · rw [Tab.getMutex_setMutex_same, Mutex.release_tail]
    · rw [Tab.getMutex_setMutex_same, List.length_append]
      exact release_resolved hF.resolved
    · simp [hw, hnotes, Lock.notes, Phase.notes, history_concat]
    · exact .past _ (by simp)
  | ok t =>
    obtain ⟨w, hcall, hw⟩ := awaitCall_returns result hfn
    rw [hnotes] at hw
    obtain ⟨L', rfl | ⟨r, rfl⟩, hF'⟩ := hF.goesOn hi hcall hw (.inr (.starts rs)) (.returns rs)
    · exact ⟨_, .starts rs, hF'⟩
    · exact ⟨_, .returns rs r, hF'⟩

/-- A later turn of a function. -/
theorem Follows.later (hF : Follows previous result fn p ⟨rs, .running⟩)
    (hi : p.threads[rs.length]? = some (c, t₀)) (t : Task ι δ ε α) :
    ∃ L', (L' = ⟨rs, .running⟩ ∨ Lock.Next ⟨rs, .running⟩ L') ∧ Follows previous result fn
      (p.resume rs.length c (section_ () rs.length ((settling rs.length t).awaited result))) L' := by
  obtain ⟨L', rfl | ⟨r, rfl⟩, hF'⟩ := hF.goesOn hi rfl hF.notes (.inl rfl) (.settles rs)
  · exact ⟨_, .inl rfl, hF'⟩
  · exact ⟨_, .inr (.settles rs r), hF'⟩

/-- The turn in which the lock is given back. -/
theorem Follows.last (hF : Follows previous result fn p ⟨rs, .ending r⟩)
    (hi : p.threads[rs.length]? = some (c, t₀)) :
    Follows previous result fn (p.resume rs.length c (section_ () rs.length (.done r)))
      ⟨rs ++ [r], .idle⟩ := by
  have hnotes : p.state.data.notes = history rs ++ [.started rs.length, .settled rs.length r] :=
    hF.notes
  refine hF.resume hi (seg_section_done (d := p.state.data) rfl) (.inr (.releases rs r)) ?_ ?_ ?_ ?_
  · rw [Tab.getMutex_setMutex_same, Mutex.release_tail]
  · rw [Tab.getMutex_setMutex_same, List.length_append]
    exact release_resolved hF.resolved
  · simp [hnotes, Lock.notes, Phase.notes, history_concat]
  · exact .past _ (by simp)

theorem Follows.call (hF : Follows previous result fn p L) :
    Follows previous result fn (p.call (body previous result fn) p.threads.length) L := by
  have hseg : (body previous result fn p.threads.length).seg p.state =
      (p.state.setMutex () (p.state.getMutex ()).enqueue,
        waiting () previous p.threads.length
          (awaitCall result (noting p.threads.length (fn p.threads.length)))) := by
    rw [← hF.tail]
    rfl
  have hlen : (p.call (body previous result fn) p.threads.length).threads.length =
      p.threads.length + 1 := by rw [Pool.call, List.length_append]; rfl
  have hstate : (p.call (body previous result fn) p.threads.length).state =
      p.state.setMutex () (p.state.getMutex ()).enqueue := by rw [Pool.call, hseg]
  refine ⟨?_, ?_, ?_, ?_, ?_, fun i c t hi => ?_⟩
  · rw [hstate, Tab.getMutex_setMutex_same, Mutex.enqueue_tail, hF.tail, hlen]
  · rw [hstate, Tab.getMutex_setMutex_same]
    exact hF.resolved
  · rw [hlen]
    exact Nat.le_succ_of_le hF.issued
  · intro hphase
    rw [hlen]
    exact Nat.lt_succ_of_lt (hF.turn hphase)
  · rw [State.notes, hstate, Tab.setMutex_data]
    exact hF.notes
  · rcases Pool.getElem?_call hi with hi | ⟨rfl, rfl, rfl⟩
    · exact hF.thread i c t hi
    · rw [hseg]
      refine ⟨rfl, .waits hF.issued fun hlast => ?_⟩
      by_contra hphase
      exact absurd (hF.turn hphase) (by omega)

theorem Follows.other (hF : Follows previous result fn p L) (d : δ) :
    Follows previous result fn { p with state := p.state.setData (p.state.data.setData d) } L :=
  ⟨hF.tail, hF.resolved, hF.issued, hF.turn, hF.notes, hF.thread⟩

/-- Only the call whose turn it is can go on. The lock passes on with it, except while a function
runs. -/
theorem Follows.resumes {i : Nat} (hF : Follows previous result fn p L) (h : Resumes p q i) :
    i = L.outcomes.length ∧
      ((L.phase = .running ∧ Follows previous result fn q L) ∨
        ∃ L', L.Next L' ∧ Follows previous result fn q L') := by
  obtain ⟨c, point, ready, next, hi, hready, rfl⟩ := h
  obtain ⟨rfl, hstands⟩ := hF.thread i c _ hi
  obtain ⟨rs, phase⟩ := L
  generalize ht : Task.await point ready next = t at hstands
  cases hstands with
  | past r h => cases ht
  | waits h hidle =>
    obtain ⟨rfl, rfl, rfl⟩ := Task.await.inj ht
    have hle := (hF.resolved c).mp hready
    have heq : c = rs.length := Nat.le_antisymm hle h
    subst heq
    obtain rfl : phase = .idle := hidle rfl
    exact ⟨rfl, .inr (hF.first hi)⟩
  | runs p ready' t' hc h =>
    obtain ⟨rfl, rfl, rfl⟩ := Task.await.inj ht
    subst hc
    obtain rfl : phase = .running := h
    obtain ⟨L', hL' | hL', hF'⟩ := hF.later hi t'
    · subst hL'
      exact ⟨rfl, .inl ⟨rfl, hF'⟩⟩
    · exact ⟨rfl, .inr ⟨L', hL', hF'⟩⟩
  | ends r hc h =>
    obtain ⟨rfl, rfl, rfl⟩ := Task.await.inj ht
    subst hc
    obtain rfl : phase = .ending r := h
    exact ⟨rfl, .inr ⟨_, .releases rs r, hF.last hi⟩⟩

/-- Every turn of the event loop leaves the lock as it is or lets it pass on. -/
theorem Follows.step (hF : Follows previous result fn p L) (h : Step previous result fn p q) :
    Follows previous result fn q L ∨ ∃ L', L.Next L' ∧ Follows previous result fn q L' := by
  cases h with
  | call => exact .inl hF.call
  | other d => exact .inl (hF.other d)
  | resume i h =>
    rcases (hF.resumes h).2 with ⟨-, hsame⟩ | hnext
    · exact .inl hsame
    · exact .inr hnext

theorem Reachable.follows {d : δ} (h : Reachable previous result fn d p) :
    ∃ L, Follows previous result fn p L := by
  induction h with
  | refl => exact ⟨_, .start d⟩
  | tail _ hstep ih =>
    obtain ⟨L, hF⟩ := ih
    rcases hF.step hstep with h | ⟨L', -, h⟩
    · exact ⟨L, h⟩
    · exact ⟨L', h⟩

/-- A call whose function has had the lock has ended with its outcome. -/
theorem Follows.past {i : Nat} {t : Task ι (Tab Unit (World δ ε α)) ε α}
    (hF : Follows previous result fn p L) (hi : p.threads[i]? = some (c, t))
    (hr : L.outcomes[i]? = some r) : c = i ∧ t = .done r := by
  obtain ⟨hc, hstands⟩ := hF.thread i c t hi
  have hlt := (List.getElem?_eq_some_iff.mp hr).1
  refine ⟨hc, ?_⟩
  cases hstands with
  | past r' h =>
    rw [hr] at h
    cases h
    rfl
  | waits h hidle => omega
  | runs p ready t hi h => omega
  | ends r hi h => omega

theorem Follows.outcome {i : Nat} (hF : Follows previous result fn p L)
    (hi : p.threads[i]? = some (c, .done r)) : L.outcomes[i]? = some r := by
  have hstands := (hF.thread i c _ hi).2
  generalize ht : (Task.done r : Task ι (Tab Unit (World δ ε α)) ε α) = t at hstands
  cases hstands with
  | past r' h =>
    cases ht
    exact h
  | waits h hidle => cases ht
  | runs p ready t hi h => cases ht
  | ends r hi h => cases ht

/-- Unless a function runs, the call whose turn it is can go on. -/
theorem Follows.ready (hF : Follows previous result fn p L) (hphase : L.phase ≠ .running)
    (hissued : L.outcomes.length < p.threads.length) : Ready p L.outcomes.length := by
  obtain ⟨⟨c, t⟩, hi⟩ : ∃ thread, p.threads[L.outcomes.length]? = some thread :=
    ⟨_, List.getElem?_eq_getElem hissued⟩
  have hstands := (hF.thread _ c t hi).2
  generalize hn : L.outcomes.length = n at hi hstands
  cases hstands with
  | past r h =>
    rw [← hn, List.getElem?_eq_none le_rfl] at h
    cases h
  | waits h hidle => exact ⟨c, _, _, _, hi, (hF.resolved n).mpr (Nat.le_of_eq hn.symm)⟩
  | runs point ready t hi' h => exact absurd h hphase
  | ends r hi' h => exact ⟨c, _, _, _, hi, rfl⟩

end Follows

/-! ### One at a time, in order -/

section Safety

variable {ι δ ε α : Type}

/-- What the notes of the functions and the results of the calls say in a state: at no time have two
functions been active, they have been called in the order of the calls, each has settled once, and
what a call of `runExclusive` ended with is what its own function did. -/
structure OneAtATime (p : State ι δ ε α) : Prop where
  exclusive : ∀ notes, notes <+: p.notes → ∀ i j, Active notes i → Active notes j → i = j
  order : started p.notes = List.range (started p.notes).length
  once : ∀ i r r', .settled i r ∈ p.notes → .settled i r' ∈ p.notes → r = r'
  own : ∀ i c r, p.threads[i]? = some (c, .done r) → .settled i r ∈ p.notes

variable {previous result : ι} {fn : Nat → Fn ι δ ε α} {p : State ι δ ε α} {L : Lock ε α}

theorem Follows.oneAtATime (hF : Follows previous result fn p L) : OneAtATime p where
  exclusive notes hnotes i j hi hj := by
    rw [hF.notes] at hnotes
    obtain ⟨L₀, rfl⟩ := Lock.notes_earlier hnotes
    exact (Lock.active hi).trans (Lock.active hj).symm
  order := by
    rw [hF.notes]
    exact L.started_notes
  once i r r' h h' := by
    rw [hF.notes, Lock.settled_mem] at h h'
    exact Option.some.inj (h.symm.trans h')
  own i c r h := by
    have hr := hF.outcome h
    rw [hF.notes, Lock.settled_mem, Lock.settled]
    split
    · rw [List.getElem?_append_left (List.getElem?_eq_some_iff.mp hr).1, hr]
    · exact hr

end Safety

/-! ### The lock is passed on -/

section Liveness

variable {ι δ ε α : Type} {previous result : ι} {fn : Nat → Fn ι δ ε α} {d : δ} {L : Lock ε α}
  (E : Execution previous result fn d) {t u : Nat}

theorem Step.issued {p q : State ι δ ε α} (h : Step previous result fn p q) :
    p.threads.length ≤ q.threads.length := by
  cases h with
  | call => simp [Pool.call]
  | resume i h =>
    obtain ⟨c, point, ready, next, -, -, rfl⟩ := h
    simp [Pool.resume]
  | other d => exact le_rfl

theorem Execution.issued (h : t ≤ u) : (E.state t).threads.length ≤ (E.state u).threads.length := by
  induction u, h using Nat.le_induction with
  | base => exact le_rfl
  | succ u _ ih =>
    rcases E.next u with heq | hstep
    · rw [heq]
      exact ih
    · exact ih.trans hstep.issued

theorem Execution.follows (t : Nat) : ∃ L, Follows previous result fn (E.state t) L := by
  induction t with
  | zero =>
    rw [E.start]
    exact ⟨_, Follows.start d⟩
  | succ t ih =>
    obtain ⟨L, hF⟩ := ih
    rcases E.next t with heq | hstep
    · exact ⟨L, heq ▸ hF⟩
    · rcases hF.step hstep with h | ⟨L', -, h⟩
      · exact ⟨L, h⟩
      · exact ⟨L', h⟩

/-- A lock that no function keeps passes on, once there is a call whose turn it is. -/
theorem Execution.passes (hF : Follows previous result fn (E.state t) L) (hphase : L.phase ≠ .running)
    (hissued : L.outcomes.length < (E.state t).threads.length) :
    ∃ u ≥ t, ∃ L', L.Next L' ∧ Follows previous result fn (E.state u) L' := by
  by_contra hnever
  have hstays : ∀ u, t ≤ u → Follows previous result fn (E.state u) L := by
    intro u hu
    induction u, hu using Nat.le_induction with
    | base => exact hF
    | succ u hu ih =>
      rcases E.next u with heq | hstep
      · rw [heq]
        exact ih
      · rcases ih.step hstep with h | ⟨L', hL', h⟩
        · exact h
        · exact absurd ⟨u + 1, Nat.le_succ_of_le hu, L', hL', h⟩ hnever
  have hready : ∀ u ≥ t, Ready (E.state u) L.outcomes.length := fun u hu =>
    (hstays u hu).ready hphase (Nat.lt_of_lt_of_le hissued (E.issued hu))
  obtain ⟨u, hu, hresumes⟩ := E.fair t _ hready
  rcases ((hstays u hu).resumes hresumes).2 with ⟨hrunning, -⟩ | ⟨L', hL', h⟩
  · exact hphase hrunning
  · exact hnever ⟨u + 1, Nat.le_succ_of_le hu, L', hL', h⟩

/-- A function whose turn it is is called. -/
theorem Execution.starts_idle {rs : List (Except ε α)}
    (hF : Follows previous result fn (E.state t) ⟨rs, .idle⟩)
    (hissued : rs.length < (E.state t).threads.length) :
    ∃ u ≥ t, .started rs.length ∈ (E.state u).notes := by
  obtain ⟨u, hu, L', hL', hF'⟩ := E.passes hF (by simp) hissued
  refine ⟨u, hu, ?_⟩
  rw [hF'.notes]
  cases hL' with
  | throws rs e => simp [Lock.notes, Phase.notes, history_concat]
  | starts rs => simp [Lock.notes, Phase.notes]
  | returns rs r => simp [Lock.notes, Phase.notes]

/-- When all earlier functions have settled, a function is called. -/
theorem Execution.starts {j : Nat} (hissued : j < (E.state t).threads.length)
    (hearlier : ∀ i < j, ∃ r, .settled i r ∈ (E.state t).notes) :
    ∃ u ≥ t, .started j ∈ (E.state u).notes := by
  obtain ⟨⟨rs, phase⟩, hF⟩ := E.follows t
  have hsettled : j ≤ (Lock.settled ⟨rs, phase⟩).length := by
    by_contra hlt
    obtain ⟨r, hr⟩ := hearlier _ (Nat.not_le.mp hlt)
    rw [hF.notes, Lock.settled_mem, List.getElem?_eq_none le_rfl] at hr
    cases hr
  rcases Nat.lt_trichotomy j rs.length with hj | hj | hj
  · refine ⟨t, le_rfl, ?_⟩
    rw [hF.notes]
    exact List.mem_append_left _ (started_mem_history.mpr hj)
  · subst hj
    cases phase with
    | idle => exact E.starts_idle hF hissued
    | running => exact ⟨t, le_rfl, by rw [hF.notes]; simp [Lock.notes, Phase.notes]⟩
    | ending r => exact ⟨t, le_rfl, by rw [hF.notes]; simp [Lock.notes, Phase.notes]⟩
  · cases phase with
    | idle => exact absurd hsettled (Nat.not_le.mpr hj)
    | running => exact absurd hsettled (Nat.not_le.mpr hj)
    | ending r =>
      have hnext : j = (rs ++ [r]).length := by
        simp only [Lock.settled, List.length_append, List.length_singleton] at hsettled ⊢
        omega
      obtain ⟨u, hu, L', hL', hF'⟩ := E.passes hF (by simp) (Nat.lt_trans hj hissued)
      cases hL' with
      | releases rs r =>
        subst hnext
        obtain ⟨v, hv, hstarted⟩ := E.starts_idle hF' (Nat.lt_of_lt_of_le hissued (E.issued hu))
        exact ⟨v, hu.trans hv, hstarted⟩

/-- What a function has settled with, its caller gets. -/
theorem Execution.receives {i : Nat} {r : Except ε α} (h : .settled i r ∈ (E.state t).notes) :
    ∃ u ≥ t, (E.state u).threads[i]? = some (i, .done r) := by
  have hpast : ∀ u L, Follows previous result fn (E.state u) L → L.outcomes[i]? = some r →
      (E.state u).threads[i]? = some (i, .done r) := by
    intro u L hF hr
    have hlt := Nat.lt_of_lt_of_le (List.getElem?_eq_some_iff.mp hr).1 hF.issued
    obtain ⟨⟨c, s⟩, hi⟩ : ∃ thread, (E.state u).threads[i]? = some thread :=
      ⟨_, List.getElem?_eq_getElem hlt⟩
    obtain ⟨rfl, rfl⟩ := hF.past hi hr
    exact hi
  obtain ⟨⟨rs, phase⟩, hF⟩ := E.follows t
  rw [hF.notes, Lock.settled_mem] at h
  cases phase with
  | idle => exact ⟨t, le_rfl, hpast t _ hF h⟩
  | running => exact ⟨t, le_rfl, hpast t _ hF h⟩
  | ending r' =>
    obtain ⟨u, hu, L', hL', hF'⟩ := E.passes hF (by simp) (hF.turn (by simp))
    cases hL' with
    | releases rs r' => exact ⟨u, hu, hpast u _ hF' h⟩

end Liveness

/-- `createMutex` is a fair lock: for all functions and all runs, the functions run one at a time, in
the order of the calls, and each call ends with what its own function did; whatever the outcomes of
the earlier functions are, a function is called when they have settled, and its caller gets its own
outcome. -/
theorem createMutex_fair {ι δ ε α : Type} (previous result : ι) (fn : Nat → Fn ι δ ε α) (d : δ) :
    (∀ p, Reachable previous result fn d p → OneAtATime p) ∧
    ∀ E : Execution previous result fn d, ∀ t,
      (∀ j < (E.state t).threads.length, (∀ i < j, ∃ r, .settled i r ∈ (E.state t).notes) →
        ∃ u ≥ t, .started j ∈ (E.state u).notes) ∧
      ∀ i r, .settled i r ∈ (E.state t).notes →
        ∃ u ≥ t, (E.state u).threads[i]? = some (i, .done r) := by
  refine ⟨fun p hp => ?_, fun E t => ⟨fun j hj hearlier => E.starts hj hearlier, fun i r h => ?_⟩⟩
  · obtain ⟨L, hF⟩ := hp.follows
    exact hF.oneAtATime
  · exact E.receives h

/-! ### A run -/

/-- The first function throws, the second one returns a promise of `7`. -/
def sampleFn : Nat → Fn Unit Unit String Nat
  | 0 => fun _ => ((), .error "failed")
  | _ => fun _ => ((), .ok (.done (.ok 7)))

/-- What call `i` does in its turn as the holder of the lock. -/
def sampleSection (i : Nat) : Task Unit (Tab Unit (World Unit String Nat)) String Nat :=
  section_ () i (awaitCall () (noting i (sampleFn i)))

/-- Two calls are made, and run to their ends. -/
def sampleState : Nat → State Unit Unit String Nat
  | 0 => .start ()
  | 1 => (sampleState 0).call (body () () sampleFn) 0
  | 2 => (sampleState 1).call (body () () sampleFn) 1
  | 3 => (sampleState 2).resume 0 0 (sampleSection 0)
  | 4 => (sampleState 3).resume 1 1 (sampleSection 1)
  | 5 => (sampleState 4).resume 1 1 (section_ () 1 (.done (.ok 7)))
  | t + 6 => sampleState (t + 5)

theorem sampleState_end (t : Nat) :
    (sampleState (t + 5)).threads = [(0, .done (.error "failed")), (1, .done (.ok 7))] := by
  induction t with
  | zero => rfl
  | succ t ih => exact ih

theorem sampleState_next (t : Nat) : sampleState (t + 1) = sampleState t ∨
    Step () () sampleFn (sampleState t) (sampleState (t + 1)) := by
  rcases t with _ | _ | _ | _ | _ | t
  · exact .inr (.call _)
  · exact .inr (.call _)
  · exact .inr (.resume 0 ⟨0, (), _, _, rfl, rfl, rfl⟩)
  · exact .inr (.resume 1 ⟨1, (), _, _, rfl, rfl, rfl⟩)
  · exact .inr (.resume 1 ⟨1, (), _, _, rfl, rfl, rfl⟩)
  · exact .inl rfl

def sampleExecution : Execution () () sampleFn () where
  state := sampleState
  start := rfl
  next := sampleState_next
  fair t i h := by
    obtain ⟨c, point, ready, next, hi, -⟩ := h (t + 5) (by omega)
    rw [sampleState_end] at hi
    rcases i with _ | _ | i <;> cases hi

theorem sample_reachable (t : Nat) : Reachable () () sampleFn () (sampleState t) := by
  induction t with
  | zero => exact .refl
  | succ t ih =>
    rcases sampleState_next t with heq | hstep
    · rw [heq]
      exact ih
    · exact .tail ih hstep

theorem createMutex_fair_sample :
    OneAtATime (sampleState 5) ∧
    (∃ u ≥ 3, .started 1 ∈ (sampleState u).notes) ∧
    ∃ u ≥ 4, (sampleState u).threads[1]? = some (1, .done (.ok 7)) := by
  have hlock := createMutex_fair () () sampleFn ()
  refine ⟨hlock.1 _ (sample_reachable 5), (hlock.2 sampleExecution 3).1 1 (by decide) ?_,
    (hlock.2 sampleExecution 4).2 1 (.ok 7) ?_⟩
  · intro i hi
    obtain rfl : i = 0 := by omega
    exact ⟨.error "failed", .tail _ (.head _)⟩
  · exact .tail _ (.tail _ (.tail _ (.head _)))

end SovereignJedi.Manifest.FairLock
