import SovereignJedi.Async.Alone

/-! Parallel calls under contracts. When each call keeps its contract and the contracts fit
together, every pool of such calls keeps the invariant of the shared state, and every outcome is as
promised, whatever the interleaving. -/

namespace SovereignJedi.Async

open Relation

variable {κ ι σ τ ε α : Type}

/-! ### Rules -/

/-- The contract on a part of a larger state. -/
def Contract.onPart (get : τ → σ) (K : Contract ι σ) : Contract ι τ where
  rely s s' := K.rely (get s) (get s')
  guar s s' := K.guar (get s) (get s')
  resumed p s := K.resumed p (get s)
  suspends := K.suspends

/-- The contract at the points that `f` names. -/
def Contract.comap {κ : Type} (f : ι → κ) (K : Contract κ σ) : Contract ι σ where
  rely := K.rely
  guar := K.guar
  resumed p := K.resumed (f p)
  suspends p := K.suspends (f p)

/-- Whoever keeps `K` on a part of the state and leaves the rest the `Same` keeps `K'`. -/
structure Contract.Lifts (get : τ → σ) (Same : τ → τ → Prop) (K : Contract ι σ)
    (K' : Contract ι τ) : Prop where
  rely : ∀ s s', K'.rely s s' → K.rely (get s) (get s')
  guar : ∀ s s', K.guar (get s) (get s') → Same s s' → K'.guar s s'
  resumed : ∀ p s, K'.resumed p s → K.resumed p (get s)
  suspends : ∀ p, K.suspends p → K'.suspends p

theorem Contract.lifts_onPart (get : τ → σ) (K : Contract ι σ) :
    K.Lifts get (fun _ _ => True) (K.onPart get) :=
  ⟨fun _ _ h => h, fun _ _ h _ => h, fun _ _ h => h, fun _ h => h⟩

namespace Task

variable {K : Contract ι σ} {Q : Except ε α → σ → σ → Prop}

theorem wp_finish {fin : σ → σ} {t : Task ι σ ε α} {s₀ s : σ} :
    (t.finish fin).wp K Q s₀ s ↔ t.wp K (fun r s₀ s => Q r s₀ (fin s)) s₀ s := by
  induction t generalizing s₀ s with
  | done r => rw [finish, wp_sync, wp_done, wp_done]
  | sync f n ih =>
    rw [finish, wp_sync, wp_sync]
    exact ih s
  | await p ready n ih =>
    rw [finish, wp_await, wp_await]
    exact and_congr_right fun _ => forall_congr' fun s' => imp_congr_right fun _ =>
      imp_congr_right fun _ => imp_congr_right fun _ => ih

/-- The suspension points of `t` under other names. -/
def relabel {κ : Type} (f : ι → κ) : Task ι σ ε α → Task κ σ ε α
  | .done r => .done r
  | .sync g n => .sync g fun s => (n s).relabel f
  | .await p ready n => .await (f p) ready (n.relabel f)

theorem run_relabel {κ : Type} (f : ι → κ) (t : Task ι σ ε α) (s : σ) :
    (t.relabel f).run s = t.run s := by
  induction t generalizing s with
  | done r => rfl
  | sync g n ih => exact ih s (g s)
  | await p ready n ih => exact ih s

theorem RunsAlone.relabel {κ : Type} {t : Task ι σ ε α} {s : σ} (ht : t.RunsAlone s) (f : ι → κ) :
    (t.relabel f).RunsAlone s := by
  induction t generalizing s with
  | done r => trivial
  | sync g n ih => exact ih s ht
  | await p ready n ih => exact ⟨ht.1, ih ht.2⟩

theorem wp_relabel {κ : Type} {f : ι → κ} {K : Contract κ σ} {t : Task ι σ ε α} {s₀ s : σ} :
    (t.relabel f).wp K Q s₀ s ↔ t.wp (K.comap f) Q s₀ s := by
  induction t generalizing s₀ s with
  | done r => rw [relabel, wp_done, wp_done]
  | sync g n ih =>
    rw [relabel, wp_sync, wp_sync]
    exact ih s
  | await p ready n ih =>
    rw [relabel, wp_await, wp_await]
    exact and_congr_right fun _ => forall_congr' fun s' => imp_congr_right fun _ =>
      imp_congr_right fun _ => imp_congr_right fun _ => ih

/-- A task that keeps its contract keeps it on a part of a larger state, the rest of which it leaves
as it is. -/
theorem wp_zoom_lift {get : τ → σ} {put : σ → τ → τ} {Same : τ → τ → Prop} {K' : Contract ι τ}
    (hK : K.Lifts get Same K') (hput : ∀ d s, get (put d s) = d) (hrefl : ∀ s, Same s s)
    (hsame : ∀ s₀ s d, Same s₀ s → Same s₀ (put d s)) {t : Task ι σ ε α} {s₀ s : τ}
    (h : t.wp K Q (get s₀) (get s)) (hs : Same s₀ s) :
    (t.zoom get put).wp K' (fun r s₀ s => Q r (get s₀) (get s) ∧ Same s₀ s) s₀ s := by
  induction t generalizing s₀ s with
  | done r =>
    rw [zoom, wp_done]
    exact ⟨(wp_done ..).mp h, hs⟩
  | sync f n ih =>
    rw [zoom, wp_sync]
    exact ih (get s) (by rwa [hput, ← wp_sync]) (hsame _ _ _ hs)
  | await p ready n ih =>
    rw [wp_await] at h
    rw [zoom, wp_await]
    refine ⟨⟨hK.suspends p h.1.1, hK.guar _ _ h.1.2 hs⟩, fun s' hs' hready hp => ?_⟩
    exact ih (h.2 (get s') (hs'.lift get hK.rely) hready (hK.resumed p s' hp)) (hrefl s')

theorem wp_zoom {get : τ → σ} {put : σ → τ → τ} (hput : ∀ d s, get (put d s) = d)
    {t : Task ι σ ε α} {s₀ s : τ} (h : t.wp K Q (get s₀) (get s)) :
    (t.zoom get put).wp (K.onPart get) (fun r s₀ s => Q r (get s₀) (get s)) s₀ s :=
  wp_mono (fun _ _ _ h => h.1) (wp_zoom_lift (K.lifts_onPart get) hput (fun _ => trivial)
    (fun _ _ _ _ => trivial) h trivial)

end Task

/-! ### Pools -/

/-- The calls keep the contracts `K`, under which they keep `inv`, and their outcomes satisfy `post`
from then on. -/
structure Parallel (body : κ → Task ι σ ε α) (allowed : κ → σ → Prop)
    (resumable : κ → ι → σ → Prop) (K : κ → Contract ι σ) (inv : σ → Prop)
    (post : κ → Except ε α → σ → Prop) : Prop where
  keeps : ∀ c s, allowed c s → inv s →
    (body c).wp (K c) (fun r s₀ s => (K c).guar s₀ s ∧ post c r s) s s
  rely_guar : ∀ c d s s', (K c).guar s s' → (K d).rely s s'
  inv_guar : ∀ c s s', (K c).guar s s' → inv s → inv s'
  post_guar : ∀ c d r s s', (K c).guar s s' → post d r s → post d r s'
  resumed : ∀ c p s, inv s → resumable c p s → (K c).resumed p s

namespace Parallel

variable {body : κ → Task ι σ ε α} {allowed : κ → σ → Prop} {resumable : κ → ι → σ → Prop}
  {K : κ → Contract ι σ} {inv : σ → Prop} {post : κ → Except ε α → σ → Prop}
  {p q : Pool κ ι σ ε α}

/-- A call has an outcome as promised, or waits to go on under its contract. -/
def Stands (K : κ → Contract ι σ) (post : κ → Except ε α → σ → Prop) (s : σ) (c : κ)
    (t : Task ι σ ε α) : Prop :=
  (∃ r, t = .done r ∧ post c r s) ∨ t.Waits (K c) (fun r s₀ s => (K c).guar s₀ s ∧ post c r s) s

/-- The invariant of a pool. -/
structure Inv (K : κ → Contract ι σ) (inv : σ → Prop) (post : κ → Except ε α → σ → Prop)
    (p : Pool κ ι σ ε α) : Prop where
  state : inv p.state
  thread : ∀ (i : Nat) (c : κ) (t : Task ι σ ε α), p.threads[i]? = some (c, t) →
    Stands K post p.state c t

theorem inv_init {s : σ} (hs : inv s) : Inv K inv post (Pool.init s) where
  state := hs
  thread i c t h := by simp [Pool.init] at h

variable (h : Parallel body allowed resumable K inv post)

include h

theorem stands_guar {c d : κ} {s s' : σ} {t : Task ι σ ε α} (hguar : (K c).guar s s')
    (ht : Stands K post s d t) : Stands K post s' d t := by
  rcases ht with ⟨r, hr, hpost⟩ | hwaits
  · exact Or.inl ⟨r, hr, h.post_guar _ _ _ _ _ hguar hpost⟩
  · exact Or.inr (hwaits.rely (h.rely_guar _ _ _ _ hguar))

omit h in
/-- A segment leaves the call standing, within its guarantee. -/
theorem seg_stands {c : κ} {s : σ} {t : Task ι σ ε α}
    (ht : t.wp (K c) (fun r s₀ s => (K c).guar s₀ s ∧ post c r s) s s) :
    (K c).guar s (t.seg s).1 ∧ Stands K post (t.seg s).1 c (t.seg s).2 := by
  rcases Task.seg_wp ht with ⟨r, hr, hguar, hpost⟩ | ⟨hguar, hwaits⟩
  · exact ⟨hguar, Or.inl ⟨r, hr, hpost⟩⟩
  · exact ⟨hguar, Or.inr hwaits⟩

theorem step_inv (hp : Inv K inv post p) (hstep : Pool.Step body allowed resumable p q) :
    Inv K inv post q := by
  cases hstep with
  | call c hc =>
    obtain ⟨hguar, hstands⟩ := seg_stands (h.keeps c p.state hc hp.state)
    refine ⟨h.inv_guar _ _ _ hguar hp.state, fun j d t hj => ?_⟩
    rcases Pool.getElem?_call hj with hj | ⟨-, rfl, rfl⟩
    · exact h.stands_guar hguar (hp.thread j d t hj)
    · exact hstands
  | resume i c point ready next hi hready hr =>
    have hwaits : (Task.await point ready next).Waits (K c)
        (fun r s₀ s => (K c).guar s₀ s ∧ post c r s) p.state := by
      rcases hp.thread i c _ hi with ⟨r, hr, -⟩ | hwaits
      · cases hr
      · exact hwaits
    obtain ⟨hguar, hstands⟩ :=
      seg_stands (hwaits.resume hready (h.resumed c point _ hp.state hr))
    refine ⟨h.inv_guar _ _ _ hguar hp.state, fun j d t hj => ?_⟩
    rcases Pool.getElem?_resume hi hj with ⟨-, hj⟩ | ⟨-, rfl, rfl⟩
    · exact h.stands_guar hguar (hp.thread j d t hj)
    · exact hstands

theorem run_inv (hrun : Pool.Run body allowed resumable p q) (hp : Inv K inv post p) :
    Inv K inv post q :=
  hrun.invariant _ (fun _ _ hp hstep => h.step_inv hp hstep) hp

/-- A call that has settled has an outcome as promised. -/
theorem run_post (hrun : Pool.Run body allowed resumable p q) (hp : Inv K inv post p) {i : Nat}
    {c : κ} {r : Except ε α} (hi : q.threads[i]? = some (c, .done r)) : post c r q.state := by
  rcases (h.run_inv hrun hp).thread i c _ hi with ⟨r', hr, hpost⟩ | hwaits
  · rw [Task.done.inj hr]
    exact hpost
  · exact hwaits.elim

end Parallel

/-! ### Calls of a run -/

namespace Pool

variable {body : κ → Task ι σ ε α} {allowed allowed' : κ → σ → Prop}
  {resumable : κ → ι → σ → Prop} {p q : Pool κ ι σ ε α}

theorem Step.calls_prefix (h : Step body allowed resumable p q) : p.calls <+: q.calls := by
  cases h with
  | call c hc =>
    rw [calls_call]
    exact List.prefix_append ..
  | resume i c point ready next hi hready hr =>
    exact ⟨[], by rw [List.append_nil, calls_resume hi]⟩

theorem Run.imp_allowed (h : ∀ c s, allowed c s → allowed' c s)
    (hrun : Run body allowed resumable p q) : Run body allowed' resumable p q := by
  induction hrun with
  | refl => exact .refl
  | tail _ hstep ih =>
    refine ih.tail ?_
    cases hstep with
    | call c hc => exact .call c (h c _ hc)
    | resume i c point ready next hi hready hr => exact .resume i c point ready next hi hready hr

/-- The calls of a run are those that it ends with. -/
theorem Run.among_calls (hrun : Run body allowed resumable p q) :
    Run body (fun c s => allowed c s ∧ c ∈ q.calls) resumable p q := by
  induction hrun with
  | refl => exact .refl
  | @tail q r _ hstep ih =>
    refine ReflTransGen.tail (ih.imp_allowed fun c s hc =>
      ⟨hc.1, hstep.calls_prefix.subset hc.2⟩) ?_
    cases hstep with
    | call c hc => exact .call c ⟨hc, by simp⟩
    | resume i c point ready next hi hready hr => exact .resume i c point ready next hi hready hr

end Pool

end SovereignJedi.Async
