import SovereignJedi.Async.Task

/-! Cooperative tasks in time. A task takes no time up to its next `await`; there time passes, and
others may change the state that it shares with them. -/

namespace SovereignJedi.Async

/-- What a call has come to: when it was resumed at its suspensions, and the clock, the state and the
result at its end. -/
structure Timed (ι σ ε α : Type) where
  resumed : List (ι × Int)
  clock : Int
  state : σ
  result : Except ε α

namespace Task

variable {ι σ ε α β : Type}

section Run

variable (delay : ι → Nat) (amid : ι → σ → σ)

/-- Runs from the clock `now`. At the suspension `p` the time `delay p` passes, and others do `amid p`
to the state. -/
def runTimed : Task ι σ ε α → Int → σ → Timed ι σ ε α
  | .done r, now, s => ⟨[], now, s, r⟩
  | .sync f n, now, s => (n s).runTimed now (f s)
  | .await p _ n, now, s =>
    let rest := n.runTimed (now + delay p) (amid p s)
    { rest with resumed := (p, now + delay p) :: rest.resumed }

end Run

variable {delay : ι → Nat} {amid : ι → σ → σ}

@[simp] theorem runTimed_done (r : Except ε α) (now : Int) (s : σ) :
    (Task.done r : Task ι σ ε α).runTimed delay amid now s = ⟨[], now, s, r⟩ := rfl

@[simp] theorem runTimed_get (now : Int) (s : σ) :
    (get : Task ι σ ε σ).runTimed delay amid now s = ⟨[], now, s, .ok s⟩ := rfl

@[simp] theorem runTimed_modify (f : σ → σ) (now : Int) (s : σ) :
    (modify f : Task ι σ ε Unit).runTimed delay amid now s = ⟨[], now, f s, .ok ()⟩ := rfl

@[simp] theorem runTimed_op (p : ι) (r : Except ε α) (now : Int) (s : σ) :
    (op p r : Task ι σ ε α).runTimed delay amid now s =
      ⟨[(p, now + delay p)], now + delay p, amid p s, r⟩ := rfl

/-- A sequence takes the time of its first part and then that of its second. -/
theorem runTimed_bind (t : Task ι σ ε α) (k : α → Task ι σ ε β) (now : Int) (s : σ) :
    (t.bind k).runTimed delay amid now s =
      match t.runTimed delay amid now s with
      | ⟨resumed, clock, s', .ok a⟩ =>
        let rest := (k a).runTimed delay amid clock s'
        { rest with resumed := resumed ++ rest.resumed }
      | ⟨resumed, clock, s', .error e⟩ => ⟨resumed, clock, s', .error e⟩ := by
  induction t generalizing now s with
  | done r => cases r <;> rfl
  | sync f n ih => exact ih s now (f s)
  | await p ready n ih =>
    rw [bind, runTimed, ih, runTimed]
    obtain ⟨resumed, clock, s', r⟩ := n.runTimed delay amid (now + delay p) (amid p s)
    cases r <;> rfl

theorem runTimed_bind_ok {t : Task ι σ ε α} {now clock : Int} {s s' : σ} {resumed : List (ι × Int)}
    {a : α} (h : t.runTimed delay amid now s = ⟨resumed, clock, s', .ok a⟩)
    (k : α → Task ι σ ε β) :
    (t.bind k).runTimed delay amid now s =
      let rest := (k a).runTimed delay amid clock s'
      { rest with resumed := resumed ++ rest.resumed } := by
  rw [runTimed_bind, h]

theorem runTimed_bind_error {t : Task ι σ ε α} {now : Int} {s : σ} {e : ε}
    (h : (t.runTimed delay amid now s).result = .error e) (k : α → Task ι σ ε β) :
    ((t.bind k).runTimed delay amid now s).result = .error e := by
  rw [runTimed_bind]
  generalize t.runTimed delay amid now s = first at h ⊢
  obtain ⟨resumed, clock, s', r⟩ := first
  obtain rfl : r = .error e := h
  rfl

end Task

end SovereignJedi.Async
