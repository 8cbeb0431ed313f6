import Mathlib.Data.List.Forall2
import SovereignJedi.Async.Pool

/-! Two pools that take the same turns. Their states are related by `R` and their calls one by one
by `T`; the rules say what is left to show of the two segments that run in a turn. -/

namespace SovereignJedi.Async

/-! ### Related lists -/

section Lists

variable {α β : Type} {R : α → β → Prop} {l : List α} {l' : List β}

theorem forall₂_getElem? (h : List.Forall₂ R l l') {i : Nat} {a : α} (hi : l[i]? = some a) :
    ∃ b, l'[i]? = some b ∧ R a b := by
  induction h generalizing i with
  | nil => cases hi
  | @cons x y l l' hxy _ ih =>
    cases i with
    | zero =>
      obtain rfl := Option.some.inj hi
      exact ⟨y, rfl, hxy⟩
    | succ i => exact ih hi

theorem forall₂_set (h : List.Forall₂ R l l') (i : Nat) {a : α} {b : β} (hab : R a b) :
    List.Forall₂ R (l.set i a) (l'.set i b) := by
  induction h generalizing i with
  | nil => exact .nil
  | cons hxy htail ih =>
    cases i with
    | zero => exact .cons hab htail
    | succ i => exact .cons hxy (ih i)

theorem forall₂_concat (h : List.Forall₂ R l l') {a : α} {b : β} (hab : R a b) :
    List.Forall₂ R (l ++ [a]) (l' ++ [b]) :=
  List.rel_append h (.cons hab .nil)

end Lists

/-! ### Related pools -/

namespace Pool

variable {κ ι σ ε α : Type}

/-- The pools have related states, and related calls in the same order. -/
structure Twin (R : σ → σ → Prop) (T : κ × Task ι σ ε α → κ × Task ι σ ε α → Prop)
    (p q : Pool κ ι σ ε α) : Prop where
  state : R p.state q.state
  threads : List.Forall₂ T p.threads q.threads

variable {R : σ → σ → Prop} {T : κ × Task ι σ ε α → κ × Task ι σ ε α → Prop}
  {body : κ → Task ι σ ε α} {p q : Pool κ ι σ ε α}

theorem Twin.init {s s' : σ} (h : R s s') : Twin R T (Pool.init s) (Pool.init s') := ⟨h, .nil⟩

theorem Twin.call (h : Twin R T p q) {c d : κ}
    (hstate : R ((body c).seg p.state).1 ((body d).seg q.state).1)
    (hthread : T (c, ((body c).seg p.state).2) (d, ((body d).seg q.state).2)) :
    Twin R T (p.call body c) (q.call body d) :=
  ⟨hstate, forall₂_concat h.threads hthread⟩

theorem Twin.resume (h : Twin R T p q) (i : Nat) {c d : κ} {next next' : Task ι σ ε α}
    (hstate : R (next.seg p.state).1 (next'.seg q.state).1)
    (hthread : T (c, (next.seg p.state).2) (d, (next'.seg q.state).2)) :
    Twin R T (p.resume i c next) (q.resume i d next') :=
  ⟨hstate, forall₂_set h.threads i hthread⟩

/-- The same call waits in both pools. -/
theorem Twin.thread (h : Twin R T p q) {i : Nat} {x : κ × Task ι σ ε α}
    (hi : p.threads[i]? = some x) : ∃ y, q.threads[i]? = some y ∧ T x y :=
  forall₂_getElem? h.threads hi

end Pool

end SovereignJedi.Async
