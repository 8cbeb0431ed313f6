import Mathlib.Logic.Relation
import Mathlib.Logic.Function.Basic

/-! Cooperative tasks over a shared state. A task runs without interruption up to its next `await`;
between two awaits it may read and update the state, and it ends with a result or an error. This is
how calls of asynchronous functions share the memory of one single-threaded event loop. -/

namespace SovereignJedi.Async

/-- A call in progress: `ι` names its suspension points, `σ` is the state it shares with others. -/
inductive Task (ι σ ε α : Type) where
  | done (result : Except ε α)
  | sync (update : σ → σ) (next : σ → Task ι σ ε α)
  | await (point : ι) (ready : σ → Bool) (next : Task ι σ ε α)

namespace Task

variable {ι σ τ ε α β : Type}

/-- Runs `t`, then `k` on its value; an error of `t` skips `k`. -/
def bind : Task ι σ ε α → (α → Task ι σ ε β) → Task ι σ ε β
  | .done (.ok a), k => k a
  | .done (.error e), _ => .done (.error e)
  | .sync f n, k => .sync f fun s => (n s).bind k
  | .await p ready n, k => .await p ready (n.bind k)

/-- `f` of the value of `t`. -/
def map (f : α → β) (t : Task ι σ ε α) : Task ι σ ε β := t.bind fun a => .done (.ok (f a))

instance : Monad (Task ι σ ε) where
  pure a := .done (.ok a)
  bind := Task.bind

instance : MonadExceptOf ε (Task ι σ ε) where
  throw e := .done (.error e)
  tryCatch := go
where
  go {α : Type} : Task ι σ ε α → (ε → Task ι σ ε α) → Task ι σ ε α
    | .done (.ok a), _ => .done (.ok a)
    | .done (.error e), h => h e
    | .sync f n, h => .sync f fun s => go (n s) h
    | .await p ready n, h => .await p ready (go n h)

/-- Reads the shared state. -/
def get : Task ι σ ε σ := .sync id fun s => .done (.ok s)

def modify (f : σ → σ) : Task ι σ ε Unit := .sync f fun _ => .done (.ok ())

/-- Reads and updates the state in one go; an error leaves it as it is. -/
def atomically (f : σ → Except ε (σ × α)) : Task ι σ ε α :=
  .sync (fun s => match f s with
      | .ok (s', _) => s'
      | .error _ => s)
    fun s => .done ((f s).map Prod.snd)

/-- Suspends once at `point`, then delivers `r`: an operation outside the shared state. -/
def op (point : ι) (r : Except ε α) : Task ι σ ε α := .await point (fun _ => true) (.done r)

/-- Awaits the outcome of `t` at `point`. -/
def awaited (point : ι) : Task ι σ ε α → Task ι σ ε α
  | .done r => op point r
  | .sync f n => .sync f fun s => (n s).awaited point
  | .await p ready n => .await p ready (n.awaited point)

/-- `try t finally fin`, for a finalizer that only updates the state. -/
def finish (fin : σ → σ) : Task ι σ ε α → Task ι σ ε α
  | .done r => .sync fin fun _ => .done r
  | .sync f n => .sync f fun s => (n s).finish fin
  | .await p ready n => .await p ready (n.finish fin)

/-- Runs a task over a part of a larger state. -/
def zoom (get : τ → σ) (put : σ → τ → τ) : Task ι σ ε α → Task ι τ ε α
  | .done r => .done r
  | .sync f n => .sync (fun s => put (f (get s)) s) fun s => (n (get s)).zoom get put
  | .await p ready n => .await p (fun s => ready (get s)) (n.zoom get put)

/-- Runs up to the next suspension: the state there and what is left to do. -/
def seg : Task ι σ ε α → σ → σ × Task ι σ ε α
  | .done r, s => (s, .done r)
  | .sync f n, s => (n s).seg (f s)
  | .await p ready n, s => (s, .await p ready n)

/-- Runs to the end with nothing else interleaved. -/
def run : Task ι σ ε α → σ → σ × Except ε α
  | .done r, s => (s, r)
  | .sync f n, s => (n s).run (f s)
  | .await _ _ n, s => n.run s

@[simp] theorem pure_def (a : α) : (pure a : Task ι σ ε α) = .done (.ok a) := rfl
@[simp] theorem throw_def (e : ε) : (throw e : Task ι σ ε α) = .done (.error e) := rfl
@[simp] theorem bind_def (t : Task ι σ ε α) (k : α → Task ι σ ε β) : t >>= k = t.bind k := rfl

@[simp] theorem done_ok_bind (a : α) (k : α → Task ι σ ε β) :
    (Task.done (.ok a)).bind k = k a := rfl
@[simp] theorem done_error_bind (e : ε) (k : α → Task ι σ ε β) :
    (Task.done (.error e)).bind k = .done (.error e) := rfl

theorem bind_bind {γ : Type} (t : Task ι σ ε α) (k : α → Task ι σ ε β) (l : β → Task ι σ ε γ) :
    (t.bind k).bind l = t.bind fun a => (k a).bind l := by
  induction t with
  | done r => cases r <;> rfl
  | sync f n ih => simp [bind, ih]
  | await p ready n ih => simp [bind, ih]

@[simp] theorem run_done (r : Except ε α) (s : σ) : (Task.done r : Task ι σ ε α).run s = (s, r) :=
  rfl
@[simp] theorem run_get (s : σ) : (get : Task ι σ ε σ).run s = (s, .ok s) := rfl
@[simp] theorem run_modify (f : σ → σ) (s : σ) :
    (modify f : Task ι σ ε Unit).run s = (f s, .ok ()) := rfl
theorem run_atomically (f : σ → Except ε (σ × α)) (s : σ) :
    (atomically f : Task ι σ ε α).run s =
      match f s with
      | .ok (s', a) => (s', .ok a)
      | .error e => (s, .error e) := by
  rw [atomically, run, run]
  cases f s <;> rfl
@[simp] theorem run_op (p : ι) (r : Except ε α) (s : σ) :
    (op p r : Task ι σ ε α).run s = (s, r) := rfl

theorem run_bind (t : Task ι σ ε α) (k : α → Task ι σ ε β) (s : σ) :
    (t.bind k).run s =
      match t.run s with
      | (s', .ok a) => (k a).run s'
      | (s', .error e) => (s', .error e) := by
  induction t generalizing s with
  | done r => cases r <;> rfl
  | sync f n ih => exact ih s (f s)
  | await p ready n ih => exact ih s

/-- `try t catch e => h e`. -/
theorem run_tryCatch (t : Task ι σ ε α) (h : ε → Task ι σ ε α) (s : σ) :
    (tryCatch t h : Task ι σ ε α).run s =
      match t.run s with
      | (s', .ok a) => (s', .ok a)
      | (s', .error e) => (h e).run s' := by
  change (instMonadExceptOf.go t h).run s = _
  induction t generalizing s with
  | done r => cases r <;> rfl
  | sync f n ih => exact ih s (f s)
  | await p ready n ih => exact ih s

theorem run_bind_ok {t : Task ι σ ε α} {s s' : σ} {a : α} (h : t.run s = (s', .ok a))
    (k : α → Task ι σ ε β) : (t.bind k).run s = (k a).run s' := by
  rw [run_bind, h]

theorem run_bind_error {t : Task ι σ ε α} {s s' : σ} {e : ε} (h : t.run s = (s', .error e))
    (k : α → Task ι σ ε β) : (t.bind k).run s = (s', .error e) := by
  rw [run_bind, h]

@[simp] theorem run_awaited (p : ι) (t : Task ι σ ε α) (s : σ) : (t.awaited p).run s = t.run s := by
  induction t generalizing s with
  | done r => rfl
  | sync f n ih => exact ih s (f s)
  | await p ready n ih => exact ih s

@[simp] theorem run_finish (fin : σ → σ) (t : Task ι σ ε α) (s : σ) :
    (t.finish fin).run s = (fin (t.run s).1, (t.run s).2) := by
  induction t generalizing s with
  | done r => rfl
  | sync f n ih => exact ih s (f s)
  | await p ready n ih => exact ih s

theorem run_map (f : α → β) (t : Task ι σ ε α) (s : σ) :
    (t.map f).run s = ((t.run s).1, (t.run s).2.map f) := by
  rw [map, run_bind]
  obtain ⟨s', r⟩ := t.run s
  cases r <;> rfl

theorem seg_map (f : α → β) (t : Task ι σ ε α) (s : σ) :
    (t.map f).seg s = ((t.seg s).1, (t.seg s).2.map f) := by
  induction t generalizing s with
  | done r => cases r <;> rfl
  | sync g n ih => exact ih s (g s)
  | await p ready n ih => rfl

theorem awaited_map (p : ι) (f : α → β) (t : Task ι σ ε α) :
    (t.map f).awaited p = (t.awaited p).map f := by
  induction t with
  | done r => cases r <;> rfl
  | sync g n ih => exact congrArg (Task.sync g) (funext ih)
  | await p ready n ih => exact congrArg (Task.await p ready) ih

theorem finish_map (fin : σ → σ) (f : α → β) (t : Task ι σ ε α) :
    (t.map f).finish fin = (t.finish fin).map f := by
  induction t with
  | done r => cases r <;> rfl
  | sync g n ih => exact congrArg (Task.sync g) (funext ih)
  | await p ready n ih => exact congrArg (Task.await p ready) ih

theorem zoom_map (get : τ → σ) (put : σ → τ → τ) (f : α → β) (t : Task ι σ ε α) :
    (t.map f).zoom get put = (t.zoom get put).map f := by
  induction t with
  | done r => cases r <;> rfl
  | sync g n ih => exact congrArg (Task.sync _) (funext fun s => ih (get s))
  | await p ready n ih => exact congrArg (Task.await p _) ih

/-- Running a segment and then the rest is running the whole task. -/
theorem run_seg (t : Task ι σ ε α) (s : σ) : (t.seg s).2.run (t.seg s).1 = t.run s := by
  induction t generalizing s with
  | done r => rfl
  | sync f n ih => exact ih s (f s)
  | await p ready n ih => rfl

theorem seg_bind_ok {t : Task ι σ ε α} {s s' : σ} {a : α} (h : t.seg s = (s', .done (.ok a)))
    (k : α → Task ι σ ε β) : (t.bind k).seg s = (k a).seg s' := by
  induction t generalizing s with
  | done r =>
    simp only [seg, Prod.mk.injEq, Task.done.injEq] at h
    rw [h.1, h.2]
    rfl
  | sync f n ih => exact ih s h
  | await p ready n ih => simp [seg] at h

theorem seg_atomically {f : σ → Except ε (σ × α)} {s s' : σ} {a : α} (h : f s = .ok (s', a)) :
    (atomically f : Task ι σ ε α).seg s = (s', .done (.ok a)) := by
  simp only [atomically, seg, h]
  rfl

theorem seg_get_bind (k : σ → Task ι σ ε α) (s : σ) : (get.bind k).seg s = (k s).seg s := rfl

theorem seg_finish (fin : σ → σ) (t : Task ι σ ε α) (s : σ) :
    (t.finish fin).seg s =
      match t.seg s with
      | (s', .done r) => (fin s', .done r)
      | (s', t') => (s', t'.finish fin) := by
  induction t generalizing s with
  | done r => rfl
  | sync f n ih => exact ih s (f s)
  | await p ready n ih => rfl

/-- A segment ends with a result or at a suspension, never in the middle of an update. -/
theorem seg_cases (t : Task ι σ ε α) (s : σ) :
    (∃ s' r, t.seg s = (s', .done r)) ∨ ∃ s' p ready n, t.seg s = (s', .await p ready n) := by
  induction t generalizing s with
  | done r => exact Or.inl ⟨s, r, rfl⟩
  | sync f n ih => exact ih s (f s)
  | await p ready n ih => exact Or.inr ⟨s, p, ready, n, rfl⟩

section Zoom

variable (get : τ → σ) (put : σ → τ → τ)

theorem seg_zoom (hput : ∀ d s, get (put d s) = d) (hset : ∀ d d' s, put d (put d' s) = put d s)
    (hself : ∀ s, put (get s) s = s) (t : Task ι σ ε α) (s : τ) :
    (t.zoom get put).seg s = (put (t.seg (get s)).1 s, (t.seg (get s)).2.zoom get put) := by
  induction t generalizing s with
  | done r => simp [seg, zoom, hself]
  | sync f n ih =>
    rw [zoom, seg, ih, hput, hset]
    rfl
  | await p ready n ih => simp [seg, zoom, hself]

theorem run_zoom (hput : ∀ d s, get (put d s) = d) (hset : ∀ d d' s, put d (put d' s) = put d s)
    (hself : ∀ s, put (get s) s = s) (t : Task ι σ ε α) (s : τ) :
    (t.zoom get put).run s = (put (t.run (get s)).1 s, (t.run (get s)).2) := by
  induction t generalizing s with
  | done r => simp [run, zoom, hself]
  | sync f n ih =>
    rw [zoom, run, ih, hput, hset]
    rfl
  | await p ready n ih => exact ih s

end Zoom

end Task

end SovereignJedi.Async
