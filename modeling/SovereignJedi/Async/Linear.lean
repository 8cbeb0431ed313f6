import SovereignJedi.Async.Pool

/-! Calls that take effect one at a time: the state of a pool, and the results of the calls that have
settled, are those of running these calls alone, one after the other. -/

namespace SovereignJedi.Async

variable {κ ι σ ε α : Type} {body : κ → Task ι σ ε α}

/-- Calls that run alone, one after the other, lead from `s` to `s'` with these results. -/
def Sequential (body : κ → Task ι σ ε α) : σ → List (κ × Except ε α) → σ → Prop
  | s, [], s' => s' = s
  | s, (c, r) :: rest, s' => ∃ s₁, (body c).run s = (s₁, r) ∧ Sequential body s₁ rest s'

theorem Sequential.concat {s s₁ s' : σ} {calls : List (κ × Except ε α)}
    (h : Sequential body s calls s₁) {c : κ} {r : Except ε α} (hrun : (body c).run s₁ = (s', r)) :
    Sequential body s (calls ++ [(c, r)]) s' := by
  induction calls generalizing s with
  | nil =>
    obtain rfl : s₁ = s := h
    exact ⟨s', hrun, rfl⟩
  | cons call calls ih =>
    obtain ⟨s₂, hfirst, hrest⟩ := h
    exact ⟨s₂, hfirst, ih hrest⟩

/-- What every call preserves holds after all of them. -/
theorem Sequential.invariant (Inv : σ → Prop)
    (hstep : ∀ c s, Inv s → Inv ((body c).run s).1) {s s' : σ} {calls : List (κ × Except ε α)}
    (h : Sequential body s calls s') (hs : Inv s) : Inv s' := by
  induction calls generalizing s with
  | nil =>
    obtain rfl : s' = s := h
    exact hs
  | cons call calls ih =>
    obtain ⟨s₁, hrun, hrest⟩ := h
    exact ih hrest (by simpa [hrun] using hstep call.1 s hs)

/-- The settled calls of a pool, by their positions, in an order in which they could have run one at
a time. -/
structure Linearized (body : κ → Task ι σ ε α) (s : σ) (p : Pool κ ι σ ε α)
    (order : List (Nat × κ × Except ε α)) : Prop where
  nodup : (order.map Prod.fst).Nodup
  settled : ∀ i c r, (i, c, r) ∈ order ↔ p.threads[i]? = some (c, .done r)
  sequential : Sequential body s (order.map Prod.snd) p.state

namespace Linearized

variable {s : σ} {p : Pool κ ι σ ε α} {order : List (Nat × κ × Except ε α)}

theorem init (s : σ) : Linearized body s (Pool.init s) [] :=
  ⟨.nil, by simp [Pool.init], rfl⟩

/-- A call that is suspended before it has any effect. -/
theorem call (h : Linearized body s p order) {c : κ} {point : ι} {ready : σ → Bool}
    {next : Task ι σ ε α} (hseg : (body c).seg p.state = (p.state, .await point ready next)) :
    Linearized body s (p.call body c) order := by
  refine ⟨h.nodup, fun i d r => ?_, ?_⟩
  · rw [h.settled]
    constructor
    · intro hi
      rwa [Pool.call, List.getElem?_append_left (List.getElem?_eq_some_iff.mp hi).1]
    · intro hi
      rcases Pool.getElem?_call hi with hi | ⟨-, -, hr⟩
      · exact hi
      · rw [hseg] at hr
        cases hr
  · rw [Pool.call, hseg]
    exact h.sequential

/-- A call that is suspended again without an effect. -/
theorem suspend (h : Linearized body s p order) {i : Nat} {c : κ} {point point' : ι}
    {ready ready' : σ → Bool} {next next' : Task ι σ ε α}
    (hi : p.threads[i]? = some (c, .await point ready next))
    (hseg : next.seg p.state = (p.state, .await point' ready' next')) :
    Linearized body s (p.resume i c next) order := by
  refine ⟨h.nodup, fun j d r => ?_, ?_⟩
  · rw [h.settled]
    constructor
    · intro hj
      have hne : i ≠ j := by
        rintro rfl
        simp [hi] at hj
      rwa [Pool.resume, List.getElem?_set_ne hne]
    · intro hj
      rcases Pool.getElem?_resume hi hj with ⟨-, hj⟩ | ⟨-, -, hr⟩
      · exact hj
      · rw [hseg] at hr
        cases hr
  · rw [Pool.resume, hseg]
    exact h.sequential

/-- A call that settles with the effect and the result that it would have if it ran alone now. -/
theorem commit (h : Linearized body s p order) {i : Nat} {c : κ} {point : ι} {ready : σ → Bool}
    {next : Task ι σ ε α} (hi : p.threads[i]? = some (c, .await point ready next)) {s' : σ}
    {r : Except ε α} (hseg : next.seg p.state = (s', .done r))
    (hrun : (body c).run p.state = (s', r)) :
    Linearized body s (p.resume i c next) (order ++ [(i, c, r)]) := by
  have hfresh : ∀ d r', (i, d, r') ∉ order := by
    intro d r' hmem
    rw [h.settled, hi] at hmem
    cases hmem
  refine ⟨?_, fun j d r' => ?_, ?_⟩
  · rw [List.map_append, List.nodup_append]
    refine ⟨h.nodup, by simp, fun j hj k hk => ?_⟩
    obtain ⟨⟨j', d, r'⟩, hmem, rfl⟩ := List.mem_map.mp hj
    rintro rfl
    obtain rfl : j' = i := by simpa using hk
    exact hfresh d r' hmem
  · rw [List.mem_append, h.settled, List.mem_singleton]
    have hlt := (List.getElem?_eq_some_iff.mp hi).1
    by_cases hj : i = j
    · subst hj
      rw [hi, Pool.resume, List.getElem?_set_self hlt, hseg]
      simp [eq_comm]
    · rw [Pool.resume, List.getElem?_set_ne hj]
      simp [Ne.symm hj]
  · rw [Pool.resume, hseg, List.map_append]
    exact h.sequential.concat hrun

end Linearized

end SovereignJedi.Async
