import SovereignJedi.Async.Contract

/-! Bounds of a task, whatever the others do between its segments. `Returns` bounds its results.
`Within` bounds where it is suspended and what its updates do; an update may do more when the task
can only succeed from there. -/

namespace SovereignJedi.Async

/-- An invariant of the state, the points where a task may be suspended, what its updates do, and
what they do in a segment that was resumed at a given point, unless the task may `commit` and can
then only succeed. -/
structure Bounds (ι σ : Type) where
  inv : σ → Prop
  suspends : ι → Prop
  update : σ → σ → Prop
  tentative : Option ι → σ → σ → Prop
  commits : Prop

namespace Bounds

variable {ι σ τ : Type}

/-- The same bounds for a task that never commits. -/
def strict (B : Bounds ι σ) : Bounds ι σ := { B with commits := False }

/-- The bounds on a part of a larger state. -/
def onPart (get : τ → σ) (B : Bounds ι σ) : Bounds ι τ where
  inv s := B.inv (get s)
  suspends := B.suspends
  update s s' := B.update (get s) (get s')
  tentative p s s' := B.tentative p (get s) (get s')
  commits := B.commits

/-- What the bounds require of the update from `s` to `s'`. -/
structure Allows (B : Bounds ι σ) (p : Option ι) (s s' : σ) : Prop where
  inv : B.inv s'
  update : B.update s s'
  tentative : B.tentative p s s'

/-- The updates of a segment add up. -/
structure Composes (B : Bounds ι σ) : Prop where
  refl : ∀ s, B.update s s
  trans : ∀ a b c, B.update a b → B.update b c → B.update a c
  tentative_refl : ∀ p s, B.tentative p s s
  tentative_trans : ∀ p a b c, B.tentative p a b → B.tentative p b c → B.tentative p a c

theorem Composes.onPart {B : Bounds ι σ} (h : B.Composes) (get : τ → σ) : (B.onPart get).Composes :=
  ⟨fun _ => h.refl _, fun _ _ _ => h.trans _ _ _, fun _ _ => h.tentative_refl _ _,
    fun _ _ _ _ => h.tentative_trans _ _ _ _⟩

end Bounds

namespace Task

variable {ι σ τ ε α β : Type}

/-! ### Results -/

/-- Every result of the task satisfies `φ`. -/
def Returns (φ : Except ε α → Prop) : Task ι σ ε α → Prop
  | .done r => φ r
  | .sync _ n => ∀ s, (n s).Returns φ
  | .await _ _ n => n.Returns φ

/-- The task can only succeed. -/
def Succeeds (t : Task ι σ ε α) : Prop := t.Returns fun r => ∃ a, r = .ok a

section Returns

variable {φ : Except ε α → Prop} {t : Task ι σ ε α}

@[simp] theorem returns_done (r : Except ε α) : (Task.done r : Task ι σ ε α).Returns φ ↔ φ r := Iff.rfl

@[simp] theorem returns_op (p : ι) (r : Except ε α) : (op p r : Task ι σ ε α).Returns φ ↔ φ r := Iff.rfl

theorem returns_await {p : ι} {ready : σ → Bool} {n : Task ι σ ε α} :
    (Task.await p ready n).Returns φ ↔ n.Returns φ := Iff.rfl

theorem Returns.mono {ψ : Except ε α → Prop} (h : t.Returns φ) (hφ : ∀ r, φ r → ψ r) : t.Returns ψ := by
  induction t with
  | done r => exact hφ r h
  | sync f n ih => exact fun s => ih s (h s)
  | await p ready n ih => exact ih h

theorem Returns.seg (h : t.Returns φ) (s : σ) : (t.seg s).2.Returns φ := by
  induction t generalizing s with
  | done r => exact h
  | sync f n ih => exact ih s (h s) (f s)
  | await p ready n ih => exact h

/-- The result of a bind is an error of the first task or a result of the second. -/
theorem Returns.bind {ψ : Except ε β → Prop} {k : α → Task ι σ ε β}
    (h : t.Returns fun r => (∀ e, r = .error e → ψ (.error e)) ∧ ∀ a, r = .ok a → (k a).Returns ψ) :
    (t.bind k).Returns ψ := by
  induction t with
  | done r =>
    cases r with
    | ok a => exact h.2 a rfl
    | error e => exact h.1 e rfl
  | sync f n ih => exact fun s => ih s (h s)
  | await p ready n ih => exact ih h

theorem Returns.modify_bind {ψ : Except ε β → Prop} {f : σ → σ} {k : Unit → Task ι σ ε β}
    (h : (k ()).Returns ψ) : ((modify f).bind k).Returns ψ := fun _ => h

theorem Returns.atomically_bind {ψ : Except ε β → Prop} {f : σ → Except ε (σ × α)}
    {k : α → Task ι σ ε β} (he : ∀ e, ψ (.error e)) (hk : ∀ a, (k a).Returns ψ) :
    ((atomically f).bind k).Returns ψ := by
  intro s
  cases hf : f s with
  | ok r =>
    simp only [hf]
    exact hk r.2
  | error e =>
    simp only [hf]
    exact he e

theorem Returns.awaited (h : t.Returns φ) (p : ι) : (t.awaited p).Returns φ := by
  induction t with
  | done r => exact h
  | sync f n ih => exact fun s => ih s (h s)
  | await p' ready n ih => exact ih h

theorem Returns.finish (h : t.Returns φ) (fin : σ → σ) : (t.finish fin).Returns φ := by
  induction t with
  | done r => exact fun _ => h
  | sync f n ih => exact fun s => ih s (h s)
  | await p ready n ih => exact ih h

theorem Returns.zoom (h : t.Returns φ) (get : τ → σ) (put : σ → τ → τ) :
    (t.zoom get put).Returns φ := by
  induction t with
  | done r => exact h
  | sync f n ih => exact fun s => ih (get s) (h (get s))
  | await p ready n ih => exact ih h

end Returns

/-! ### Updates and suspensions -/

/-- The task keeps to `B` from a segment on that was resumed at `p`, or in which it is called. -/
def Within (B : Bounds ι σ) : Option ι → Task ι σ ε α → Prop
  | _, .done _ => True
  | p, .sync f n => ∀ s, B.inv s → B.inv (f s) ∧ B.update s (f s) ∧ (n s).Within B p ∧
      (B.tentative p s (f s) ∨ B.commits ∧ (n s).Succeeds)
  | _, .await q _ n => B.suspends q ∧ n.Within B (some q)

section Within

variable {B : Bounds ι σ} {p q : Option ι} {t : Task ι σ ε α} {k : α → Task ι σ ε β}

theorem Within.done (r : Except ε α) : (Task.done r : Task ι σ ε α).Within B p := trivial

theorem within_await {pt : ι} {ready : σ → Bool} {n : Task ι σ ε α} :
    (Task.await pt ready n).Within B p ↔ B.suspends pt ∧ n.Within B (some pt) := Iff.rfl

theorem Within.sync {f : σ → σ} {n : σ → Task ι σ ε α} (hf : ∀ s, B.inv s → B.Allows p s (f s))
    (hn : ∀ s, (n s).Within B p) : (Task.sync f n).Within B p := by
  intro s hs
  have hallows := hf s hs
  exact ⟨hallows.inv, hallows.update, hn s, Or.inl hallows.tentative⟩

theorem Within.of_strict (h : t.Within B.strict p) : t.Within B p := by
  induction t generalizing p with
  | done r => trivial
  | sync f n ih =>
    intro s hs
    obtain ⟨hinv, hupdate, hn, htentative | ⟨hcommits, -⟩⟩ := h s hs
    · exact ⟨hinv, hupdate, ih s hn, Or.inl htentative⟩
    · exact hcommits.elim
  | await pt ready n ih => exact ⟨h.1, ih h.2⟩

/-- A task that never commits may be followed by any task. -/
theorem Within.bind (h : t.Within B.strict p) (hk : ∀ a q, (k a).Within B q) :
    (t.bind k).Within B p := by
  induction t generalizing p with
  | done r =>
    cases r with
    | ok a => exact hk a p
    | error e => trivial
  | sync f n ih =>
    intro s hs
    obtain ⟨hinv, hupdate, hn, htentative | ⟨hcommits, -⟩⟩ := h s hs
    · exact ⟨hinv, hupdate, ih s hn, Or.inl htentative⟩
    · exact hcommits.elim
  | await pt ready n ih => exact ⟨h.1, ih h.2⟩

/-- A task that commits may be followed by what can only succeed. -/
theorem Within.bind_succeeds (h : t.Within B p) (hk : ∀ a q, (k a).Within B q)
    (hsucceeds : ∀ a, (k a).Succeeds) : (t.bind k).Within B p := by
  induction t generalizing p with
  | done r =>
    cases r with
    | ok a => exact hk a p
    | error e => trivial
  | sync f n ih =>
    intro s hs
    obtain ⟨hinv, hupdate, hn, hrest⟩ := h s hs
    refine ⟨hinv, hupdate, ih s hn, hrest.imp_right fun ⟨hcommits, hn⟩ => ⟨hcommits, ?_⟩⟩
    refine Returns.bind (hn.mono fun r ⟨a, hr⟩ => ⟨fun e he => ?_, fun a _ => hsucceeds a⟩)
    cases hr.symm.trans he
  | await pt ready n ih => exact ⟨h.1, ih h.2⟩

theorem Within.op_bind {pt : ι} {r : Except ε α} (hpt : B.suspends pt)
    (hk : ∀ a, r = .ok a → (k a).Within B (some pt)) : ((op pt r).bind k).Within B p := by
  refine ⟨hpt, ?_⟩
  cases r with
  | ok a => exact hk a rfl
  | error e => trivial

theorem Within.op {pt : ι} (hpt : B.suspends pt) (r : Except ε α) :
    (op pt r : Task ι σ ε α).Within B p := ⟨hpt, trivial⟩

/-- An atomic step is followed by a task that may depend on the state in which it was made. -/
theorem Within.atomically_bind {f : σ → Except ε (σ × α)} (hB : B.Composes)
    (hk : ∀ s s' a, B.inv s → f s = .ok (s', a) → B.inv s' ∧ B.update s s' ∧ (k a).Within B p ∧
      (B.tentative p s s' ∨ B.commits ∧ (k a).Succeeds)) :
    ((atomically f).bind k).Within B p := by
  intro s hs
  cases hf : f s with
  | ok r =>
    simp only [hf]
    exact hk s r.1 r.2 hs hf
  | error e =>
    simp only [hf]
    exact ⟨hs, hB.refl s, trivial, Or.inl (hB.tentative_refl p s)⟩

theorem Within.modify_bind {f : σ → σ} {k : Unit → Task ι σ ε β}
    (hf : ∀ s, B.inv s → B.Allows p s (f s)) (hk : (k ()).Within B p) :
    ((modify f).bind k).Within B p := Within.sync hf fun _ => hk

theorem Within.awaited (h : t.Within B p) {pt : ι} (hpt : B.suspends pt) :
    (t.awaited pt).Within B p := by
  induction t generalizing p with
  | done r => exact Within.op hpt r
  | sync f n ih =>
    intro s hs
    obtain ⟨hinv, hupdate, hn, hrest⟩ := h s hs
    exact ⟨hinv, hupdate, ih s hn, hrest.imp_right fun ⟨hcommits, hn⟩ => ⟨hcommits, hn.awaited pt⟩⟩
  | await pt' ready n ih => exact ⟨h.1, ih h.2⟩

theorem Within.finish {fin : σ → σ} (h : t.Within B p)
    (hfin : ∀ p s, B.inv s → B.Allows p s (fin s)) : (t.finish fin).Within B p := by
  induction t generalizing p with
  | done r =>
    intro s hs
    have hallows := hfin p s hs
    exact ⟨hallows.inv, hallows.update, trivial, Or.inl hallows.tentative⟩
  | sync f n ih =>
    intro s hs
    obtain ⟨hinv, hupdate, hn, hrest⟩ := h s hs
    exact ⟨hinv, hupdate, ih s hn, hrest.imp_right fun ⟨hcommits, hn⟩ => ⟨hcommits, hn.finish fin⟩⟩
  | await pt ready n ih => exact ⟨h.1, ih h.2⟩

theorem Within.zoom {get : τ → σ} {put : σ → τ → τ} (hput : ∀ d s, get (put d s) = d)
    (h : t.Within B p) : (t.zoom get put).Within (B.onPart get) p := by
  induction t generalizing p with
  | done r => trivial
  | sync f n ih =>
    intro s hs
    obtain ⟨hinv, hupdate, hn, hrest⟩ := h (get s) hs
    simp only [Bounds.onPart, hput]
    exact ⟨hinv, hupdate, ih (get s) hn,
      hrest.imp_right fun ⟨hcommits, hn⟩ => ⟨hcommits, hn.zoom get put⟩⟩
  | await pt ready n ih => exact ⟨h.1, ih h.2⟩

/-- What a segment does, and what it leaves. -/
theorem Within.seg (hB : B.Composes) (h : t.Within B p) {s : σ} (hs : B.inv s) :
    B.inv (t.seg s).1 ∧ B.update s (t.seg s).1 ∧ (∀ q, (t.seg s).2.Within B q) ∧
      (B.tentative p s (t.seg s).1 ∨ (t.seg s).2.Succeeds) := by
  induction t generalizing s with
  | done r => exact ⟨hs, hB.refl s, fun _ => trivial, Or.inl (hB.tentative_refl p s)⟩
  | sync f n ih =>
    obtain ⟨hinv, hupdate, hn, hrest⟩ := h s hs
    obtain ⟨hinv', hupdate', hn', hrest'⟩ := ih s hn hinv
    refine ⟨hinv', hB.trans _ _ _ hupdate hupdate', hn', ?_⟩
    rcases hrest with htentative | ⟨-, hsucceeds⟩
    · exact hrest'.imp_left fun htentative' => hB.tentative_trans _ _ _ _ htentative htentative'
    · exact Or.inr (hsucceeds.seg (f s))
  | await pt ready n ih => exact ⟨hs, hB.refl s, fun _ => h, Or.inl (hB.tentative_refl p s)⟩

theorem Within.map {f : α → β} (h : t.Within B p) : (t.map f).Within B p :=
  h.bind_succeeds (fun _ _ => Within.done _) fun _ => (returns_done _).mpr ⟨_, rfl⟩

/-- A task within bounds keeps every contract that guarantees no more than their updates. -/
theorem Within.wp {K : Contract ι σ} {Q : Except ε α → σ → σ → Prop} (hB : B.Composes)
    (h : t.Within B p) (hinv : K.Stable B.inv) (hsuspends : ∀ pt, B.suspends pt → K.suspends pt)
    (hguar : ∀ s s', B.update s s' → K.guar s s') (hQ : ∀ r s s', B.update s s' → Q r s s')
    {s₀ s : σ} (hs : B.inv s) (h₀ : B.update s₀ s) : t.wp K Q s₀ s := by
  induction t generalizing p s₀ s with
  | done r => exact (wp_done ..).mpr (hQ r s₀ s h₀)
  | sync f n ih =>
    obtain ⟨hs', hupdate, hn, -⟩ := h s hs
    exact (wp_sync ..).mpr (ih s hn hs' (hB.trans _ _ _ h₀ hupdate))
  | await pt ready n ih =>
    exact (wp_await ..).mpr ⟨⟨hsuspends pt h.1, hguar _ _ h₀⟩, fun s' hrely _ _ =>
      ih h.2 (hinv.closure hrely hs) (hB.refl s')⟩

end Within

-- used through the lemmas above only: unfolded at a concrete task they walk through all of it
attribute [irreducible] Returns Within

end Task

end SovereignJedi.Async
