import SovereignJedi.Async.Contract

/-! Pools of concurrent calls on one event loop. A step either issues a new call, which runs up to
its first suspension, or resumes a suspended call up to its next one. Calls stay in the pool in the
order in which they were issued, with what is left of them. -/

namespace SovereignJedi.Async

open Relation

/-- The shared state and the calls issued so far. -/
structure Pool (κ ι σ ε α : Type) where
  state : σ
  threads : List (κ × Task ι σ ε α)

namespace Pool

variable {κ ι σ ε α : Type}

/-- No call has been issued. -/
def init (s : σ) : Pool κ ι σ ε α := ⟨s, []⟩

def call (body : κ → Task ι σ ε α) (p : Pool κ ι σ ε α) (c : κ) : Pool κ ι σ ε α :=
  ⟨((body c).seg p.state).1, p.threads ++ [(c, ((body c).seg p.state).2)]⟩

/-- Call `i`, suspended before `next`, runs its next segment. -/
def resume (p : Pool κ ι σ ε α) (i : Nat) (c : κ) (next : Task ι σ ε α) : Pool κ ι σ ε α :=
  ⟨(next.seg p.state).1, p.threads.set i (c, (next.seg p.state).2)⟩

/-- One turn of the event loop. A call is issued only in states where `allowed` holds of it, and it
is resumed only where `resumable` holds of it, its suspension point and the state. -/
inductive Step (body : κ → Task ι σ ε α) (allowed : κ → σ → Prop) (resumable : κ → ι → σ → Prop) :
    Pool κ ι σ ε α → Pool κ ι σ ε α → Prop
  | call {p : Pool κ ι σ ε α} (c : κ) (hc : allowed c p.state) :
      Step body allowed resumable p (p.call body c)
  | resume {p : Pool κ ι σ ε α} (i : Nat) (c : κ) (point : ι) (ready : σ → Bool)
      (next : Task ι σ ε α) (hi : p.threads[i]? = some (c, .await point ready next))
      (hready : ready p.state = true) (hr : resumable c point p.state) :
      Step body allowed resumable p (p.resume i c next)

theorem Step.mono {body : κ → Task ι σ ε α} {allowed allowed' : κ → σ → Prop}
    {resumable resumable' : κ → ι → σ → Prop} (ha : ∀ c s, allowed c s → allowed' c s)
    (hr : ∀ c pt s, resumable c pt s → resumable' c pt s) {p q : Pool κ ι σ ε α}
    (h : Step body allowed resumable p q) : Step body allowed' resumable' p q := by
  cases h with
  | call c hc => exact .call c (ha _ _ hc)
  | resume i c point ready next hi hready h => exact .resume i c point ready next hi hready (hr _ _ _ h)

/-- Any number of turns. -/
abbrev Run (body : κ → Task ι σ ε α) (allowed : κ → σ → Prop) (resumable : κ → ι → σ → Prop) :
    Pool κ ι σ ε α → Pool κ ι σ ε α → Prop :=
  ReflTransGen (Step body allowed resumable)

/-- Every call issued has settled. -/
def Settled (p : Pool κ ι σ ε α) : Prop := ∀ c t, (c, t) ∈ p.threads → ∃ r, t = .done r

/-- Some suspended call can be resumed. -/
def Resumable (p : Pool κ ι σ ε α) : Prop :=
  ∃ (i : Nat) (c : κ) (point : ι) (ready : σ → Bool) (next : Task ι σ ε α),
    p.threads[i]? = some (c, .await point ready next) ∧ ready p.state = true

/-- The calls issued, in order. -/
def calls (p : Pool κ ι σ ε α) : List κ := p.threads.map Prod.fst

variable {body : κ → Task ι σ ε α} {allowed : κ → σ → Prop} {resumable : κ → ι → σ → Prop}
  {p q : Pool κ ι σ ε α}

@[simp] theorem calls_init (s : σ) : (init s : Pool κ ι σ ε α).calls = [] := rfl

@[simp] theorem calls_call (p : Pool κ ι σ ε α) (c : κ) : (p.call body c).calls = p.calls ++ [c] := by
  simp [call, calls]

theorem calls_set {i : Nat} {c : κ} {t : Task ι σ ε α} (hi : p.threads[i]? = some (c, t)) (s : σ)
    (t' : Task ι σ ε α) : Pool.calls ⟨s, p.threads.set i (c, t')⟩ = p.calls := by
  simp only [calls, List.map_set]
  refine List.ext_getElem? fun j => ?_
  by_cases hj : i = j
  · subst hj
    obtain ⟨hlt, hget⟩ := List.getElem?_eq_some_iff.mp hi
    simp [hlt, hget]
  · rw [List.getElem?_set_ne hj]

theorem calls_resume {i : Nat} {c : κ} {t next : Task ι σ ε α}
    (hi : p.threads[i]? = some (c, t)) : (p.resume i c next).calls = p.calls :=
  calls_set hi ..

theorem calls_getElem? {i : Nat} {c : κ} {t : Task ι σ ε α}
    (hi : p.threads[i]? = some (c, t)) : p.calls[i]? = some c := by
  simp [calls, hi]

theorem exists_thread {i : Nat} {c : κ} (hi : p.calls[i]? = some c) :
    ∃ t, p.threads[i]? = some (c, t) := by
  rw [calls, List.getElem?_map, Option.map_eq_some_iff] at hi
  obtain ⟨⟨c', t⟩, ht, rfl⟩ := hi
  exact ⟨t, ht⟩

/-- The thread at `j` after a call is one that was there, or the new one. -/
theorem getElem?_call {j : Nat} {c d : κ} {t : Task ι σ ε α}
    (h : (p.call body c).threads[j]? = some (d, t)) :
    p.threads[j]? = some (d, t) ∨
      j = p.threads.length ∧ d = c ∧ t = ((body c).seg p.state).2 := by
  rcases Nat.lt_or_ge j p.threads.length with hj | hj
  · rw [call, List.getElem?_append_left hj] at h
    exact Or.inl h
  · rw [call, List.getElem?_append_right hj] at h
    have hlast : j - p.threads.length = 0 := by
      by_contra hne
      rw [List.getElem?_eq_none (by simp; omega)] at h
      cases h
    rw [hlast] at h
    simp only [List.getElem?_cons_zero, Option.some.injEq, Prod.mk.injEq] at h
    exact Or.inr ⟨by omega, h.1.symm, h.2.symm⟩

/-- The thread at `j` after call `i` is resumed is one that was there, or what is left of `i`. -/
theorem getElem?_resume {i j : Nat} {c d : κ} {t t₀ next : Task ι σ ε α}
    (hi : p.threads[i]? = some (c, t₀)) (h : (p.resume i c next).threads[j]? = some (d, t)) :
    (j ≠ i ∧ p.threads[j]? = some (d, t)) ∨ j = i ∧ d = c ∧ t = (next.seg p.state).2 := by
  by_cases hj : i = j
  · subst hj
    obtain ⟨hlt, _⟩ := List.getElem?_eq_some_iff.mp hi
    rw [resume, List.getElem?_set_self hlt] at h
    simp only [Option.some.injEq, Prod.mk.injEq] at h
    exact Or.inr ⟨rfl, h.1.symm, h.2.symm⟩
  · rw [resume, List.getElem?_set_ne hj] at h
    exact Or.inl ⟨Ne.symm hj, h⟩

/-- A call that has settled stays so. -/
theorem Step.done (h : Step body allowed resumable p q) {j : Nat} {c : κ} {r : Except ε α}
    (hj : p.threads[j]? = some (c, .done r)) : q.threads[j]? = some (c, .done r) := by
  cases h with
  | call d hd =>
    obtain ⟨hlt, -⟩ := List.getElem?_eq_some_iff.mp hj
    rwa [Pool.call, List.getElem?_append_left hlt]
  | resume i d point ready next hi hready hr =>
    have hne : i ≠ j := by
      rintro rfl
      rw [hi] at hj
      cases hj
    rwa [Pool.resume, List.getElem?_set_ne hne]

/-- What every turn preserves holds in every pool of a run. -/
theorem Run.invariant (Inv : Pool κ ι σ ε α → Prop)
    (hstep : ∀ p q, Inv p → Step body allowed resumable p q → Inv q)
    (hrun : Run body allowed resumable p q) (hp : Inv p) : Inv q := by
  induction hrun with
  | refl => exact hp
  | tail _ h ih => exact hstep _ _ ih h

theorem Run.calls {ok : κ → Prop} (hrun : Run body (fun c _ => ok c) resumable p q)
    (hp : ∀ c ∈ p.calls, ok c) : ∀ c ∈ q.calls, ok c := by
  refine hrun.invariant (fun p => ∀ c ∈ p.calls, ok c) (fun p q hcalls hstep => ?_) hp
  cases hstep with
  | call c hc =>
    rw [calls_call]
    exact List.forall_mem_append.mpr ⟨hcalls, List.forall_mem_singleton.mpr hc⟩
  | resume i c point ready next hi =>
    rw [calls_resume hi]
    exact hcalls

/-- A suspended call that never blocks can be run to its end while the others stay where they are,
as if it ran alone from here. -/
theorem Run.drive {i : Nat} {c : κ} (hr : ∀ pt s, resumable c pt s) {u : Task ι σ ε α}
    (hu : u.NeverBlocks) (s : σ) (p : Pool κ ι σ ε α)
    (hi : p.threads[i]? = some (c, (u.seg s).2)) :
    Run body allowed resumable p
      ⟨((u.seg s).2.run p.state).1, p.threads.set i (c, .done ((u.seg s).2.run p.state).2)⟩ := by
  induction u generalizing s p with
  | done r =>
    obtain ⟨hlt, hget⟩ := List.getElem?_eq_some_iff.mp hi
    change p.threads[i] = (c, Task.done r) at hget
    change Run body allowed resumable p ⟨p.state, p.threads.set i (c, .done r)⟩
    rw [← hget, List.set_getElem_self]
  | sync f n ih => exact ih s (hu.sync s) (f s) p hi
  | await pt ready n ih =>
    obtain ⟨hready, hn⟩ := (Task.neverBlocks_await ..).mp hu
    have hi' : (p.resume i c n).threads[i]? = some (c, (n.seg p.state).2) := by
      obtain ⟨hlt, _⟩ := List.getElem?_eq_some_iff.mp hi
      rw [resume, List.getElem?_set_self hlt]
    have hrun := ih hn p.state (p.resume i c n) hi'
    have hrest : (n.seg p.state).2.run (p.resume i c n).state = n.run p.state :=
      Task.run_seg n p.state
    rw [hrest, resume, List.set_set] at hrun
    exact .head (.resume i c pt ready n hi (hready _) (hr _ _)) hrun

/-- A call that can be resumed, and never blocks from there, can be run to its end. -/
theorem Run.finish {i : Nat} {c : κ} (hr : ∀ pt s, resumable c pt s) {pt : ι} {ready : σ → Bool}
    {next : Task ι σ ε α} (hi : p.threads[i]? = some (c, .await pt ready next))
    (hready : ready p.state = true) (hn : next.NeverBlocks) :
    Run body allowed resumable p
      ⟨(next.run p.state).1, p.threads.set i (c, .done (next.run p.state).2)⟩ := by
  have hi' : (p.resume i c next).threads[i]? = some (c, (next.seg p.state).2) := by
    obtain ⟨hlt, _⟩ := List.getElem?_eq_some_iff.mp hi
    rw [resume, List.getElem?_set_self hlt]
  have hrun : Run body allowed resumable _ _ := Run.drive hr hn p.state _ hi'
  have hrest : (next.seg p.state).2.run (p.resume i c next).state = next.run p.state :=
    Task.run_seg next p.state
  rw [hrest, resume, List.set_set] at hrun
  exact .head (.resume i c pt ready next hi hready (hr _ _)) hrun

end Pool

end SovereignJedi.Async
