import Mathlib.Data.List.Chain
import SovereignJedi.Async.Pool

/-! Tasks that run alone, one after the other. Nothing happens to the state while such a task is
suspended, but it is seen there; what holds of each segment holds from every state that is seen to
the next one. -/

namespace SovereignJedi.Async

/-- The contract of a task that runs alone: each of its segments does no more than `U`. -/
def Contract.alone {ι σ : Type} (U : σ → σ → Prop) : Contract ι σ where
  rely s s' := s' = s
  guar := U
  resumed _ _ := True
  suspends _ := True

theorem Contract.alone_stable {ι σ : Type} (U : σ → σ → Prop) (I : σ → Prop) :
    (Contract.alone U : Contract ι σ).Stable I := by
  rintro s s' rfl hs
  exact hs

namespace Task

open Relation

variable {ι σ τ ε α β υ κ : Type}

/-- Whatever `t` awaits is there when it runs alone from a state. -/
def RunsAlone : Task ι σ ε α → σ → Prop
  | .done _, _ => True
  | .sync f n, s => (n s).RunsAlone (f s)
  | .await _ ready n, s => ready s = true ∧ n.RunsAlone s

theorem NeverBlocks.runsAlone {t : Task ι σ ε α} (ht : t.NeverBlocks) (s : σ) : t.RunsAlone s := by
  induction t generalizing s with
  | done r => trivial
  | sync f n ih => exact ih s (ht.sync s) (f s)
  | await p ready n ih =>
    obtain ⟨hready, hn⟩ := (neverBlocks_await p ready n).mp ht
    exact ⟨hready s, ih hn s⟩

theorem RunsAlone.map {t : Task ι σ ε α} {s : σ} (ht : t.RunsAlone s) (f : α → β) :
    (t.map f).RunsAlone s := by
  induction t generalizing s with
  | done r => cases r <;> trivial
  | sync g n ih => exact ih s ht
  | await p ready n ih => exact ⟨ht.1, ih ht.2⟩

theorem RunsAlone.bind {t : Task ι σ ε α} {k : α → Task ι σ ε β} {s : σ} (ht : t.RunsAlone s)
    (hk : ∀ a, (k a).RunsAlone (t.run s).1) : (t.bind k).RunsAlone s := by
  induction t generalizing s with
  | done r =>
    cases r with
    | ok a => exact hk a
    | error e => trivial
  | sync f n ih => exact ih s ht hk
  | await p ready n ih => exact ⟨ht.1, ih ht.2 hk⟩

theorem RunsAlone.zoom {get : τ → σ} {put : σ → τ → τ} (hput : ∀ d s, get (put d s) = d)
    {t : Task ι σ ε α} {s : τ} (ht : t.RunsAlone (get s)) : (t.zoom get put).RunsAlone s := by
  induction t generalizing s with
  | done r => trivial
  | sync f n ih => exact ih (get s) (by rw [hput]; exact ht)
  | await p ready n ih => exact ⟨ht.1, ih ht.2⟩

/-- The states in which `t` is suspended when it runs alone, and the one in which it ends. -/
def visited : Task ι σ ε α → σ → List σ
  | .done _, s => [s]
  | .sync f n, s => (n s).visited (f s)
  | .await _ _ n, s => s :: n.visited s

/-- The state in which a task ends is the last one that is seen. -/
theorem visited_eq_concat (t : Task ι σ ε α) (s : σ) :
    ∃ before, t.visited s = before ++ [(t.run s).1] := by
  induction t generalizing s with
  | done r => exact ⟨[], rfl⟩
  | sync f n ih => exact ih s (f s)
  | await p ready n ih =>
    obtain ⟨before, h⟩ := ih s
    exact ⟨s :: before, congrArg (s :: ·) h⟩

theorem visited_map (f : α → β) (t : Task ι σ ε α) (s : σ) :
    (t.map f).visited s = t.visited s := by
  induction t generalizing s with
  | done r => cases r <;> rfl
  | sync g n ih => exact ih s (g s)
  | await p ready n ih => exact congrArg (s :: ·) (ih s)

theorem visited_awaited (p : ι) (t : Task ι σ ε α) (s : σ) :
    (t.awaited p).visited s = t.visited s ++ [(t.run s).1] := by
  induction t generalizing s with
  | done r => rfl
  | sync f n ih => exact ih s (f s)
  | await p' ready n ih => exact congrArg (s :: ·) (ih s)

theorem map_visited_zoom {get : τ → σ} {put : σ → τ → τ} (hput : ∀ d s, get (put d s) = d)
    (t : Task ι σ ε α) (s : τ) :
    ((t.zoom get put).visited s).map get = t.visited (get s) := by
  induction t generalizing s with
  | done r => rfl
  | sync f n ih =>
    rw [zoom, visited, ih, hput]
    rfl
  | await p ready n ih => exact congrArg (get s :: ·) (ih s)

/-- A finalizer that does not touch the view. -/
theorem map_visited_finish {view : σ → υ} {fin : σ → σ} (hfin : ∀ s, view (fin s) = view s)
    (t : Task ι σ ε α) (s : σ) :
    ((t.finish fin).visited s).map view = (t.visited s).map view := by
  induction t generalizing s with
  | done r => exact congrArg (fun v => [v]) (hfin s)
  | sync f n ih => exact ih s (f s)
  | await p ready n ih => exact congrArg (view s :: ·) (ih s)

/-- What the segments of a task do leads from each state that is seen to the next one. -/
theorem visited_chain {U : σ → σ → Prop} {t : Task ι σ ε α} (ht : t.NeverBlocks) {s₀ s : σ}
    (h : t.wp (.alone U) (fun _ => U) s₀ s) : (s₀ :: t.visited s).IsChain U := by
  induction t generalizing s₀ s with
  | done r => exact List.isChain_pair.mpr ((wp_done ..).mp h)
  | sync f n ih => exact ih s (ht.sync s) ((wp_sync ..).mp h)
  | await p ready n ih =>
    obtain ⟨hready, hn⟩ := (neverBlocks_await ..).mp ht
    obtain ⟨⟨-, hguar⟩, hrest⟩ := (wp_await ..).mp h
    exact List.isChain_cons_cons.mpr ⟨hguar, ih hn (hrest s .refl (hready s) trivial)⟩

end Task

section History

variable {κ ι σ ε α υ : Type} {body : κ → Task ι σ ε α}

/-- The states that are seen while calls are made one after the other, each to its end. -/
def history (body : κ → Task ι σ ε α) : List κ → σ → List σ
  | [], _ => []
  | c :: cs, s => (body c).visited s ++ history body cs ((body c).run s).1

/-- The state after these calls. -/
def afterCalls (body : κ → Task ι σ ε α) (cs : List κ) (s : σ) : σ :=
  cs.foldl (fun s c => ((body c).run s).1) s

/-- The state after the last call has been seen. -/
theorem afterCalls_mem (cs : List κ) (s : σ) : afterCalls body cs s ∈ s :: history body cs s := by
  induction cs generalizing s with
  | nil => exact List.mem_singleton_self s
  | cons c cs ih =>
    have hrest : afterCalls body (c :: cs) s = afterCalls body cs ((body c).run s).1 := rfl
    obtain ⟨before, hend⟩ := (body c).visited_eq_concat s
    rw [hrest, history, hend]
    rcases List.mem_cons.mp (ih ((body c).run s).1) with h | h
    · rw [h]
      simp
    · exact List.mem_cons_of_mem s (List.mem_append_right _ h)

/-- A view of the state that each call moves along `U` is moved so by all of them. -/
theorem history_chain {view : σ → υ} {U : υ → υ → Prop} {cs : List κ}
    (hbody : ∀ c ∈ cs, ∀ s, (view s :: ((body c).visited s).map view).IsChain U) (s : σ) :
    (view s :: (history body cs s).map view).IsChain U := by
  induction cs generalizing s with
  | nil => exact List.isChain_singleton _
  | cons c cs ih =>
    have hcall := hbody c List.mem_cons_self s
    have hrest := ih (fun d hd => hbody d (List.mem_cons_of_mem c hd)) ((body c).run s).1
    obtain ⟨before, hend⟩ := (body c).visited_eq_concat s
    rw [hend, List.map_append, ← List.cons_append] at hcall
    rw [history, hend, List.append_assoc, List.map_append, List.map_append, ← List.cons_append]
    exact List.isChain_split.mpr ⟨hcall, hrest⟩

end History

/-! ### In a pool -/

namespace Pool

variable {ι σ ε α κ : Type} {body : κ → Task ι σ ε α} {allowed : κ → σ → Prop}
  {resumable : κ → ι → σ → Prop} {p : Pool κ ι σ ε α}

/-- The last call, with what is left of it up to its first suspension, runs alone to its end. -/
theorem Run.last_alone (hr : ∀ c pt s, resumable c pt s) (c : κ) {t : Task ι σ ε α} {s : σ}
    (ht : t.RunsAlone s) (threads : List (κ × Task ι σ ε α)) :
    Run body allowed resumable ⟨(t.seg s).1, threads ++ [(c, (t.seg s).2)]⟩
      ⟨(t.run s).1, threads ++ [(c, .done (t.run s).2)]⟩ := by
  induction t generalizing s with
  | done r => exact .refl
  | sync f n ih => exact ih s ht
  | await pt ready n ih =>
    obtain ⟨hready, hn⟩ := ht
    have hi : (threads ++ [(c, Task.await pt ready n)])[threads.length]? =
        some (c, .await pt ready n) := List.getElem?_concat_length
    have hstep : Step body allowed resumable ⟨s, threads ++ [(c, .await pt ready n)]⟩
        (resume ⟨s, threads ++ [(c, .await pt ready n)]⟩ threads.length c n) :=
      .resume threads.length c pt ready n hi hready (hr ..)
    rw [resume, List.set_append_right _ _ (Nat.le_refl _), Nat.sub_self] at hstep
    exact .head hstep (ih hn)

/-- A call that runs alone from here can be made and run to its end. -/
theorem Run.call_alone (hr : ∀ c pt s, resumable c pt s) {c : κ} (hc : allowed c p.state)
    (ht : (body c).RunsAlone p.state) : Run body allowed resumable p
      ⟨((body c).run p.state).1, p.threads ++ [(c, .done ((body c).run p.state).2)]⟩ :=
  .head (.call c hc) (Run.last_alone hr c ht p.threads)

end Pool

end SovereignJedi.Async
