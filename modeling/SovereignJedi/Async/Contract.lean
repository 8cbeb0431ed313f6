import SovereignJedi.Async.Task

/-! Contracts for cooperative tasks. While a task is suspended the others may change the state as
its contract's `rely` allows, and each of its own segments must do no more than `guar` allows. `wp`
is the weakest precondition under such a contract; `Confined` tasks depend on one view of the state
only, and under a contract that protects the view they compute what they compute alone. -/

namespace SovereignJedi.Async

/-- What a task counts on from the others, what its segments promise to them, what holds of the
state whenever it is resumed at a point, and the points where it may be suspended. -/
structure Contract (ι σ : Type) where
  rely : σ → σ → Prop
  guar : σ → σ → Prop
  resumed : ι → σ → Prop
  suspends : ι → Prop

/-- `I` survives whatever the others do. -/
def Contract.Stable {ι σ : Type} (K : Contract ι σ) (I : σ → Prop) : Prop :=
  ∀ s s', K.rely s s' → I s → I s'

theorem Contract.Stable.closure {ι σ : Type} {K : Contract ι σ} {I : σ → Prop} (hI : K.Stable I)
    {s s' : σ} (h : Relation.ReflTransGen K.rely s s') (hs : I s) : I s' := by
  induction h with
  | refl => exact hs
  | tail _ hstep ih => exact hI _ _ hstep ih

namespace Task

open Relation

variable {ι σ ε α β υ : Type} {K : Contract ι σ}

/-- `t`, in a segment that began in `s₀` and is now in `s`, keeps the contract and ends in `Q`. The
postcondition sees the start of the last segment, which is still open when the task ends. -/
def wp (K : Contract ι σ) (Q : Except ε α → σ → σ → Prop) : Task ι σ ε α → σ → σ → Prop
  | .done r, s₀, s => Q r s₀ s
  | .sync f n, s₀, s => (n s).wp K Q s₀ (f s)
  | .await p ready n, s₀, s => (K.suspends p ∧ K.guar s₀ s) ∧
      ∀ s', ReflTransGen K.rely s s' → ready s' = true → K.resumed p s' → n.wp K Q s' s'

/-- `t` is suspended, and keeps the contract from its resumption on. -/
def Waits (K : Contract ι σ) (Q : Except ε α → σ → σ → Prop) : Task ι σ ε α → σ → Prop
  | .await p ready n, s => K.suspends p ∧
      ∀ s', ReflTransGen K.rely s s' → ready s' = true → K.resumed p s' → n.wp K Q s' s'
  | _, _ => False

theorem Waits.rely {Q : Except ε α → σ → σ → Prop} {t : Task ι σ ε α} {s s' : σ}
    (h : t.Waits K Q s) (hr : K.rely s s') : t.Waits K Q s' := by
  cases t with
  | await p ready n => exact ⟨h.1, fun s'' hs'' => h.2 s'' (ReflTransGen.head hr hs'')⟩
  | done r => exact h
  | sync f n => exact h

theorem Waits.resume {Q : Except ε α → σ → σ → Prop} {p : ι} {ready : σ → Bool}
    {n : Task ι σ ε α} {s : σ} (h : (Task.await p ready n).Waits K Q s) (hr : ready s = true)
    (hp : K.resumed p s) : n.wp K Q s s :=
  h.2 s ReflTransGen.refl hr hp

theorem Waits.exists_await {Q : Except ε α → σ → σ → Prop} {t : Task ι σ ε α} {s : σ}
    (h : t.Waits K Q s) : ∃ p ready n, t = .await p ready n := by
  cases t with
  | await p ready n => exact ⟨p, ready, n, rfl⟩
  | done r => exact h.elim
  | sync f n => exact h.elim

/-- A segment of a task that keeps its contract ends in the postcondition or suspended. -/
theorem seg_wp {Q : Except ε α → σ → σ → Prop} {t : Task ι σ ε α} {s₀ s : σ}
    (h : t.wp K Q s₀ s) :
    (∃ r, (t.seg s).2 = .done r ∧ Q r s₀ (t.seg s).1) ∨
      (K.guar s₀ (t.seg s).1 ∧ (t.seg s).2.Waits K Q (t.seg s).1) := by
  induction t generalizing s with
  | done r => exact Or.inl ⟨r, rfl, h⟩
  | sync f n ih => exact ih s h
  | await p ready n ih => exact Or.inr ⟨h.1.2, h.1.1, h.2⟩

theorem wp_mono {Q Q' : Except ε α → σ → σ → Prop} (hQ : ∀ r s₀ s, Q r s₀ s → Q' r s₀ s)
    {t : Task ι σ ε α} {s₀ s : σ} (h : t.wp K Q s₀ s) : t.wp K Q' s₀ s := by
  induction t generalizing s₀ s with
  | done r => exact hQ r s₀ s h
  | sync f n ih => exact ih s h
  | await p ready n ih => exact ⟨h.1, fun s' hs hr hp => ih (h.2 s' hs hr hp)⟩

/-- What a task's value must satisfy for its continuation to go on; an error skips it. -/
def Cont (K : Contract ι σ) (Q : Except ε β → σ → σ → Prop) (k : α → Task ι σ ε β) :
    Except ε α → σ → σ → Prop
  | .ok a, s₀, s => (k a).wp K Q s₀ s
  | .error e, s₀, s => Q (.error e) s₀ s

@[simp] theorem Cont_ok (Q : Except ε β → σ → σ → Prop) (k : α → Task ι σ ε β) (a : α) (s₀ s : σ) :
    Cont K Q k (.ok a) s₀ s = (k a).wp K Q s₀ s := rfl

@[simp] theorem Cont_error (Q : Except ε β → σ → σ → Prop) (k : α → Task ι σ ε β) (e : ε)
    (s₀ s : σ) : Cont K Q k (.error e) s₀ s = Q (.error e) s₀ s := rfl

theorem wp_bind {Q : Except ε β → σ → σ → Prop} {t : Task ι σ ε α} {k : α → Task ι σ ε β}
    {s₀ s : σ} : (t.bind k).wp K Q s₀ s ↔ t.wp K (Cont K Q k) s₀ s := by
  induction t generalizing s₀ s with
  | done r => cases r <;> rfl
  | sync f n ih => exact ih s
  | await p ready n ih =>
    exact and_congr_right fun _ =>
      forall_congr' fun s' => imp_congr_right fun _ => imp_congr_right fun _ =>
        imp_congr_right fun _ => ih

theorem wp_map {Q : Except ε β → σ → σ → Prop} {f : α → β} {t : Task ι σ ε α} {s₀ s : σ} :
    (t.map f).wp K Q s₀ s ↔ t.wp K (fun r => Q (r.map f)) s₀ s := by
  have hcont : Cont K Q (fun a => .done (.ok (f a))) = fun r => Q (r.map f) := by
    funext r
    cases r <;> rfl
  rw [map, wp_bind, hcont]

theorem wp_atomically (Q : Except ε α → σ → σ → Prop) {f : σ → Except ε (σ × α)} {s₀ s s' : σ}
    {a : α} (h : f s = .ok (s', a)) :
    (atomically f : Task ι σ ε α).wp K Q s₀ s ↔ Q (.ok a) s₀ s' := by
  simp only [atomically, wp, h]
  rfl

@[simp] theorem wp_done (Q : Except ε α → σ → σ → Prop) (r : Except ε α) (s₀ s : σ) :
    (Task.done r : Task ι σ ε α).wp K Q s₀ s ↔ Q r s₀ s := Iff.rfl

theorem wp_sync (Q : Except ε α → σ → σ → Prop) (f : σ → σ) (n : σ → Task ι σ ε α) (s₀ s : σ) :
    (Task.sync f n).wp K Q s₀ s ↔ (n s).wp K Q s₀ (f s) := Iff.rfl

theorem wp_await (Q : Except ε α → σ → σ → Prop) (p : ι) (ready : σ → Bool) (n : Task ι σ ε α)
    (s₀ s : σ) :
    (Task.await p ready n).wp K Q s₀ s ↔ (K.suspends p ∧ K.guar s₀ s) ∧
      ∀ s', ReflTransGen K.rely s s' → ready s' = true → K.resumed p s' → n.wp K Q s' s' := Iff.rfl

@[simp] theorem wp_modify (Q : Except ε Unit → σ → σ → Prop) (f : σ → σ) (s₀ s : σ) :
    (modify f : Task ι σ ε Unit).wp K Q s₀ s ↔ Q (.ok ()) s₀ (f s) := Iff.rfl

theorem wp_op (Q : Except ε α → σ → σ → Prop) (p : ι) (r : Except ε α) (s₀ s : σ) :
    (op p r : Task ι σ ε α).wp K Q s₀ s ↔ (K.suspends p ∧ K.guar s₀ s) ∧
      ∀ s', ReflTransGen K.rely s s' → K.resumed p s' → Q r s' s' := by
  simp [op, wp]

theorem wp_awaited {Q : Except ε α → σ → σ → Prop} {p : ι} {t : Task ι σ ε α} {s₀ s : σ} :
    (t.awaited p).wp K Q s₀ s ↔
      t.wp K (fun r s₀ s => (K.suspends p ∧ K.guar s₀ s) ∧
        ∀ s', ReflTransGen K.rely s s' → K.resumed p s' → Q r s' s') s₀ s := by
  induction t generalizing s₀ s with
  | done r => exact wp_op Q p r s₀ s
  | sync f n ih => exact ih s
  | await p' ready n ih =>
    exact and_congr_right fun _ =>
      forall_congr' fun s' => imp_congr_right fun _ => imp_congr_right fun _ =>
        imp_congr_right fun _ => ih

/-- An operation under a stable assertion. -/
theorem wp_op_of_stable {Q : Except ε α → σ → σ → Prop} {I : σ → Prop} (hI : K.Stable I) {p : ι}
    {r : Except ε α} {s₀ s : σ} (hp : K.suspends p) (h₀ : K.guar s₀ s) (hs : I s)
    (hQ : ∀ s', I s' → K.resumed p s' → Q r s' s') :
    (op p r : Task ι σ ε α).wp K Q s₀ s :=
  (wp_op Q p r s₀ s).mpr ⟨⟨hp, h₀⟩, fun s' hs' hp' => hQ s' (hI.closure hs' hs) hp'⟩

/-- Every update that `t` can make relates the state before it to the state after it by `U`. -/
def Updates (U : σ → σ → Prop) : Task ι σ ε α → Prop
  | .done _ => True
  | .sync f n => (∀ s, U s (f s)) ∧ ∀ s, (n s).Updates U
  | .await _ _ n => n.Updates U

theorem Updates.done {U : σ → σ → Prop} (r : Except ε α) :
    (Task.done r : Task ι σ ε α).Updates U := trivial

theorem Updates.mono {U V : σ → σ → Prop} (hUV : ∀ s s', U s s' → V s s') {t : Task ι σ ε α}
    (ht : t.Updates U) : t.Updates V := by
  induction t with
  | done r => trivial
  | sync f n ih => exact ⟨fun s => hUV _ _ (ht.1 s), fun s => ih s (ht.2 s)⟩
  | await p ready n ih => exact ih ht

theorem Updates.bind {U : σ → σ → Prop} {t : Task ι σ ε α} {k : α → Task ι σ ε β}
    (ht : t.Updates U) (hk : ∀ a, (k a).Updates U) : (t.bind k).Updates U := by
  induction t with
  | done r => cases r with
    | ok a => exact hk a
    | error e => trivial
  | sync f n ih => exact ⟨ht.1, fun s => ih s (ht.2 s)⟩
  | await p ready n ih => exact ih ht

theorem Updates.get {U : σ → σ → Prop} (hU : ∀ s, U s s) : (Task.get : Task ι σ ε σ).Updates U :=
  ⟨hU, fun _ => trivial⟩

theorem Updates.modify {U : σ → σ → Prop} {f : σ → σ} (hf : ∀ s, U s (f s)) :
    (Task.modify f : Task ι σ ε Unit).Updates U := ⟨hf, fun _ => trivial⟩

theorem Updates.atomically {U : σ → σ → Prop} (hU : ∀ s, U s s) {f : σ → Except ε (σ × α)}
    (hf : ∀ s s' a, f s = .ok (s', a) → U s s') :
    (Task.atomically f : Task ι σ ε α).Updates U := by
  refine ⟨fun s => ?_, fun _ => trivial⟩
  cases h : f s with
  | ok r =>
    simp only [h]
    exact hf s r.1 r.2 h
  | error e =>
    simp only [h]
    exact hU s

theorem Updates.op {U : σ → σ → Prop} (p : ι) (r : Except ε α) :
    (Task.op p r : Task ι σ ε α).Updates U := trivial

theorem Updates.awaited {U : σ → σ → Prop} {p : ι} {t : Task ι σ ε α} (ht : t.Updates U) :
    (t.awaited p).Updates U := by
  induction t with
  | done r => trivial
  | sync f n ih => exact ⟨ht.1, fun s => ih s (ht.2 s)⟩
  | await p' ready n ih => exact ih ht

theorem Updates.run {U : σ → σ → Prop} (hrefl : ∀ s, U s s)
    (htrans : ∀ a b c, U a b → U b c → U a c) {t : Task ι σ ε α} (ht : t.Updates U) (s : σ) :
    U s (t.run s).1 := by
  induction t generalizing s with
  | done r => exact hrefl s
  | sync f n ih => exact htrans _ _ _ (ht.1 s) (ih s (ht.2 s) (f s))
  | await p ready n ih => exact ih ht s

/-- `t` is only ever suspended for the others to have their turn, not for a state to come about. -/
def NeverBlocks : Task ι σ ε α → Prop
  | .done _ => True
  | .sync _ n => ∀ s, (n s).NeverBlocks
  | .await _ ready n => (∀ s, ready s = true) ∧ n.NeverBlocks

theorem NeverBlocks.done (r : Except ε α) : (Task.done r : Task ι σ ε α).NeverBlocks := trivial

theorem NeverBlocks.sync {f : σ → σ} {n : σ → Task ι σ ε α} (h : (Task.sync f n).NeverBlocks)
    (s : σ) : (n s).NeverBlocks := h s

@[simp] theorem neverBlocks_await (p : ι) (ready : σ → Bool) (n : Task ι σ ε α) :
    (Task.await p ready n).NeverBlocks ↔ (∀ s, ready s = true) ∧ n.NeverBlocks := Iff.rfl

theorem NeverBlocks.bind {t : Task ι σ ε α} {k : α → Task ι σ ε β} (ht : t.NeverBlocks)
    (hk : ∀ a, (k a).NeverBlocks) : (t.bind k).NeverBlocks := by
  induction t with
  | done r => cases r with
    | ok a => exact hk a
    | error e => trivial
  | sync f n ih => exact fun s => ih s (ht s)
  | await p ready n ih => exact ⟨ht.1, ih ht.2⟩

theorem NeverBlocks.modify (f : σ → σ) : (Task.modify f : Task ι σ ε Unit).NeverBlocks :=
  fun _ => trivial

theorem NeverBlocks.atomically (f : σ → Except ε (σ × α)) :
    (Task.atomically f : Task ι σ ε α).NeverBlocks := fun _ => trivial

theorem NeverBlocks.op (p : ι) (r : Except ε α) : (Task.op p r : Task ι σ ε α).NeverBlocks :=
  ⟨fun _ => rfl, trivial⟩

theorem NeverBlocks.awaited {p : ι} {t : Task ι σ ε α} (ht : t.NeverBlocks) :
    (t.awaited p).NeverBlocks := by
  induction t with
  | done r => exact NeverBlocks.op p r
  | sync f n ih => exact fun s => ih s (ht s)
  | await p' ready n ih => exact ⟨ht.1, ih ht.2⟩

theorem NeverBlocks.zoom {τ : Type} {t : Task ι σ ε α} (ht : t.NeverBlocks) (get : τ → σ)
    (put : σ → τ → τ) : (t.zoom get put).NeverBlocks := by
  induction t with
  | done r => trivial
  | sync f n ih => exact fun s => ih (get s) (ht (get s))
  | await p ready n ih => exact ⟨fun s => ht.1 (get s), ih ht.2⟩

theorem NeverBlocks.finish {t : Task ι σ ε α} (ht : t.NeverBlocks) (fin : σ → σ) :
    (t.finish fin).NeverBlocks := by
  induction t with
  | done r => exact fun _ => trivial
  | sync f n ih => exact fun s => ih s (ht s)
  | await p ready n ih => exact ⟨ht.1, ih ht.2⟩

theorem NeverBlocks.map {t : Task ι σ ε α} (ht : t.NeverBlocks) (f : α → β) :
    (t.map f).NeverBlocks := ht.bind fun _ => trivial

theorem NeverBlocks.seg {t : Task ι σ ε α} (ht : t.NeverBlocks) (s : σ) :
    (t.seg s).2.NeverBlocks := by
  induction t generalizing s with
  | done r => trivial
  | sync f n ih => exact ih s (ht s) (f s)
  | await p ready n ih => exact ht

/-- What `t` reads of the state, and how it changes `view`, are functions of `view`. -/
def Confined (view : σ → υ) : Task ι σ ε α → Prop
  | .done _ => True
  | .sync f n =>
      (∀ s s', view s = view s' → view (f s) = view (f s') ∧ n s = n s') ∧
        ∀ s, (n s).Confined view
  | .await _ _ n => n.Confined view

theorem Confined.done {view : σ → υ} (r : Except ε α) :
    (Task.done r : Task ι σ ε α).Confined view := trivial

theorem Confined.bind {view : σ → υ} {t : Task ι σ ε α} {k : α → Task ι σ ε β}
    (ht : t.Confined view) (hk : ∀ a, (k a).Confined view) : (t.bind k).Confined view := by
  induction t with
  | done r => cases r with
    | ok a => exact hk a
    | error e => trivial
  | sync f n ih =>
    exact ⟨fun s s' h => ⟨(ht.1 s s' h).1, congrArg (·.bind k) (ht.1 s s' h).2⟩,
      fun s => ih s (ht.2 s)⟩
  | await p ready n ih => exact ih ht

theorem Confined.modify {view : σ → υ} {f : σ → σ}
    (hf : ∀ s s', view s = view s' → view (f s) = view (f s')) :
    (Task.modify f : Task ι σ ε Unit).Confined view := ⟨fun s s' h => ⟨hf s s' h, rfl⟩, fun _ => trivial⟩

/-- It is enough that the value and the new view are functions of the old view. -/
theorem Confined.atomically {view : σ → υ} {f : σ → Except ε (σ × α)} (g : υ → Except ε (υ × α))
    (hf : ∀ s, (f s).map (Prod.map view id) = g (view s)) :
    (Task.atomically f : Task ι σ ε α).Confined view := by
  refine ⟨fun s s' h => ?_, fun _ => trivial⟩
  have hs : (f s).map (Prod.map view id) = (f s').map (Prod.map view id) := by rw [hf, hf, h]
  cases hfs : f s with
  | error e =>
    cases hfs' : f s' with
    | error e' => simp_all [Except.map]
    | ok r' => simp [hfs, hfs', Except.map] at hs
  | ok r =>
    cases hfs' : f s' with
    | error e' => simp [hfs, hfs', Except.map] at hs
    | ok r' => simp_all [Except.map, Prod.map]

theorem Confined.op {view : σ → υ} (p : ι) (r : Except ε α) :
    (Task.op p r : Task ι σ ε α).Confined view := trivial

theorem Confined.awaited {view : σ → υ} {p : ι} {t : Task ι σ ε α} (ht : t.Confined view) :
    (t.awaited p).Confined view := by
  induction t with
  | done r => exact Confined.op p r
  | sync f n ih =>
    exact ⟨fun s s' h => ⟨(ht.1 s s' h).1, congrArg (·.awaited p) (ht.1 s s' h).2⟩,
      fun s => ih s (ht.2 s)⟩
  | await p' ready n ih => exact ih ht

/-- A confined task run alone from states with the same view gives the same result and view. -/
theorem Confined.run_congr {view : σ → υ} {t : Task ι σ ε α} (ht : t.Confined view) {s s' : σ}
    (h : view s = view s') :
    (t.run s).2 = (t.run s').2 ∧ view (t.run s).1 = view (t.run s').1 := by
  induction t generalizing s s' with
  | done r => exact ⟨rfl, h⟩
  | sync f n ih =>
    obtain ⟨hview, hn⟩ := ht.1 s s' h
    rw [run, run, ← hn]
    exact ih s (ht.2 s) hview
  | await p ready n ih => exact ih ht h

theorem view_rely {view : σ → υ} (hrely : ∀ s s', K.rely s s' → view s = view s') {s s' : σ}
    (h : ReflTransGen K.rely s s') : view s = view s' := by
  induction h with
  | refl => rfl
  | tail _ hstep ih => exact ih.trans (hrely _ _ hstep)

/-- Under a contract that protects its view, a confined task ends with the result and the view it
has when it runs alone. -/
theorem Confined.wp_run {view : σ → υ} {t : Task ι σ ε α} (ht : t.Confined view)
    (hrely : ∀ s s', K.rely s s' → view s = view s') (hrefl : ∀ s, K.guar s s)
    (htrans : ∀ a b c, K.guar a b → K.guar b c → K.guar a c) (hupd : t.Updates K.guar)
    (hsusp : ∀ p, K.suspends p) {s₀ s : σ} (hs : K.guar s₀ s) :
    t.wp K (fun r s₀' s' => K.guar s₀' s' ∧ r = (t.run s).2 ∧ view s' = view (t.run s).1) s₀ s := by
  induction t generalizing s₀ s with
  | done r => exact ⟨hs, rfl, rfl⟩
  | sync f n ih => exact ih s (ht.2 s) (hupd.2 s) (htrans _ _ _ hs (hupd.1 s))
  | await p ready n ih =>
    refine ⟨⟨hsusp p, hs⟩, fun s' hs' _ _ => ?_⟩
    have hcongr := Confined.run_congr (t := n) ht (view_rely hrely hs')
    refine wp_mono ?_ (ih ht hupd (hrefl s'))
    rintro r s₁ s₂ ⟨hg, hr, hv⟩
    exact ⟨hg, hr.trans hcongr.1.symm, hv.trans hcongr.2.symm⟩

-- used through the lemmas above only: unfolded at a concrete task they walk through all of it
attribute [irreducible] wp Updates NeverBlocks Confined

end Task

end SovereignJedi.Async
