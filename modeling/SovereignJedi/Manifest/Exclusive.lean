import SovereignJedi.Manifest.Mutex
import Mathlib.Data.List.Induction

/-! Concurrent calls of which some run in a mutex section. For every key the sections are entered
one at a time, in the order in which their calls were issued; a resource invariant that each section
restores therefore holds whenever no section is open, and every call meets the contract that its
discipline gives it. -/

namespace SovereignJedi.Manifest

open SovereignJedi.Async

variable {κ Key ι δ ε α : Type} [DecidableEq Key]

/-! ### Calls by lock -/

/-- The calls of `cs` that take lock `k`, in order. -/
def queued (lock : κ → Option Key) (k : Key) (cs : List κ) : List κ :=
  cs.filter fun c => lock c = some k

/-- The calls issued before call `i` under the same lock as `c`. -/
def earlier (lock : κ → Option Key) (cs : List κ) (i : Nat) (c : κ) : List κ :=
  (cs.take i).filter fun c' => lock c' = lock c

variable {lock : κ → Option Key} {cs : List κ}

theorem earlier_append {i : Nat} (hi : i ≤ cs.length) (c c' : κ) :
    earlier lock (cs ++ [c']) i c = earlier lock cs i c := by
  rw [earlier, List.take_append_of_le_length hi, earlier]

theorem queued_append (k : Key) (c : κ) :
    queued lock k (cs ++ [c]) = queued lock k cs ++ if lock c = some k then [c] else [] := by
  simp [queued, List.filter_append, List.filter_cons]

theorem earlier_length_self (c : κ) {k : Key} (hk : lock c = some k) :
    earlier lock (cs ++ [c]) cs.length c = queued lock k cs := by
  rw [earlier_append (Nat.le_refl _), earlier, List.take_length, hk, queued]

/-- A call splits its queue into the earlier calls, itself and the later ones. -/
theorem queued_split {i : Nat} {c : κ} {k : Key} (hi : cs[i]? = some c) (hk : lock c = some k) :
    queued lock k cs = earlier lock cs i c ++ c :: queued lock k (cs.drop (i + 1)) := by
  obtain ⟨hlt, hget⟩ := List.getElem?_eq_some_iff.mp hi
  have hsplit : cs = cs.take i ++ c :: cs.drop (i + 1) := by
    rw [← hget, List.getElem_cons_drop, List.take_append_drop]
  calc queued lock k cs = queued lock k (cs.take i ++ c :: cs.drop (i + 1)) := by rw [← hsplit]
    _ = earlier lock cs i c ++ c :: queued lock k (cs.drop (i + 1)) := by
      simp [queued, earlier, hk]

theorem earlier_eq_take {i : Nat} {c : κ} {k : Key} (hi : cs[i]? = some c) (hk : lock c = some k) :
    earlier lock cs i c = (queued lock k cs).take (earlier lock cs i c).length := by
  rw [queued_split hi hk, List.take_left]

theorem earlier_concat {i : Nat} {c : κ} {k : Key} (hi : cs[i]? = some c) (hk : lock c = some k) :
    earlier lock cs i c ++ [c] = (queued lock k cs).take ((earlier lock cs i c).length + 1) := by
  rw [queued_split hi hk, List.take_length_add_append]
  rfl

theorem earlier_length_lt {i : Nat} {c : κ} {k : Key} (hi : cs[i]? = some c)
    (hk : lock c = some k) : (earlier lock cs i c).length < (queued lock k cs).length := by
  rw [queued_split hi hk]
  simp

theorem earlier_lt_of_lt {i j : Nat} {c d : κ} {k : Key} (hi : cs[i]? = some c)
    (hc : lock c = some k) (hd : lock d = some k) (hij : i < j) :
    (earlier lock cs i c).length < (earlier lock cs j d).length := by
  obtain ⟨hlt, hget⟩ := List.getElem?_eq_some_iff.mp hi
  have hi' : (cs.take j)[i]? = some c := by
    rw [List.getElem?_take_of_lt hij, hi]
  have hpos := earlier_length_lt hi' hc
  have htake : earlier lock (cs.take j) i c = earlier lock cs i c := by
    rw [earlier, earlier, List.take_take, Nat.min_eq_left (Nat.le_of_lt hij)]
  have hqueue : queued lock k (cs.take j) = earlier lock cs j d := by
    rw [queued, earlier, hd]
  rwa [htake, hqueue] at hpos

/-- A call is determined by its lock and its place in the queue. -/
theorem earlier_injective {i j : Nat} {c d : κ} {k : Key} (hi : cs[i]? = some c)
    (hj : cs[j]? = some d) (hc : lock c = some k) (hd : lock d = some k)
    (h : (earlier lock cs i c).length = (earlier lock cs j d).length) : i = j := by
  rcases Nat.lt_trichotomy i j with hij | hij | hij
  · exact absurd h (Nat.ne_of_lt (earlier_lt_of_lt hi hc hd hij))
  · exact hij
  · exact absurd h (Nat.ne_of_gt (earlier_lt_of_lt hj hd hc hij))

/-- Every place in the queue is taken by a call. -/
theorem exists_earlier {k : Key} {j : Nat} (hj : j < (queued lock k cs).length) :
    ∃ i c, cs[i]? = some c ∧ lock c = some k ∧ (earlier lock cs i c).length = j := by
  induction cs using List.reverseRecOn with
  | nil => simp [queued] at hj
  | append_singleton cs c ih =>
    by_cases hlt : j < (queued lock k cs).length
    · obtain ⟨i, d, hi, hd, hlen⟩ := ih hlt
      obtain ⟨hi', _⟩ := List.getElem?_eq_some_iff.mp hi
      refine ⟨i, d, ?_, hd, ?_⟩
      · rw [List.getElem?_append_left hi', hi]
      · rw [earlier_append (Nat.le_of_lt hi'), hlen]
    · by_cases hc : lock c = some k
      · refine ⟨cs.length, c, by simp, hc, ?_⟩
        rw [earlier_length_self c hc]
        rw [queued_append, if_pos hc, List.length_append, List.length_singleton] at hj
        omega
      · rw [queued_append, if_neg hc, List.append_nil] at hj
        exact absurd hj hlt

/-! ### Disciplines -/

/-- A call that takes a lock runs its code in a section of it; any other call runs on the data as it
is. -/
def exclusive (lock : κ → Option Key) (code : κ → Task ι δ ε α) (previous result : ι) (c : κ) :
    Task ι (Tab Key δ) ε α :=
  match lock c with
  | some k => runExclusive k previous result (code c)
  | none => onData (code c)

theorem exclusive_some {code : κ → Task ι δ ε α} {previous result : ι} {c : κ} {k : Key}
    (h : lock c = some k) :
    exclusive lock code previous result c = runExclusive k previous result (code c) := by
  rw [exclusive, h]

/-- A call on a free mutex can be issued and run to its end at once, as if it ran alone. -/
theorem run_exclusive_at_once {code : κ → Task ι δ ε α} {previous result : ι}
    {allowed : κ → Tab Key δ → Prop} {resumable : κ → ι → Tab Key δ → Prop}
    {p : Pool κ ι (Tab Key δ) ε α} {c : κ} {k : Key} (hc : allowed c p.state)
    (hr : ∀ pt s, resumable c pt s) (hl : lock c = some k)
    (hn : (code c).NeverBlocks)
    (hfree : (p.state.getMutex k).resolved (p.state.getMutex k).tail = true) :
    ∃ s, Pool.Run (exclusive lock code previous result) allowed resumable p
        ⟨s, p.threads ++ [(c, .done ((code c).run p.state.data).2)]⟩ ∧
      s.data = ((code c).run p.state.data).1 := by
  have hbody : exclusive lock code previous result c = runExclusive k previous result (code c) :=
    exclusive_some hl
  have hcall : p.call (exclusive lock code previous result) c =
      ⟨p.state.setMutex k (p.state.getMutex k).enqueue, p.threads ++
        [(c, waiting k previous (p.state.getMutex k).tail ((code c).awaited result))]⟩ := by
    rw [Pool.call, hbody]
    rfl
  have hsection : (section_ k (p.state.getMutex k).tail ((code c).awaited result)).NeverBlocks :=
    (hn.awaited.zoom _ _).finish _
  have hissue : Pool.Step (exclusive lock code previous result) allowed resumable p
      (p.call (exclusive lock code previous result) c) := .call c hc
  rw [hcall] at hissue
  have hfinish : Pool.Run (exclusive lock code previous result) allowed resumable _ _ :=
    Pool.Run.finish (i := p.threads.length)
      (p := ⟨p.state.setMutex k (p.state.getMutex k).enqueue, p.threads ++
        [(c, waiting k previous (p.state.getMutex k).tail ((code c).awaited result))]⟩)
      hr (List.getElem?_concat_length ..) (by simpa using hfree) hsection
  obtain ⟨hdata, hresult⟩ := run_section_data k (p.state.getMutex k).tail ((code c).awaited result)
    (p.state.setMutex k (p.state.getMutex k).enqueue)
  rw [Task.run_awaited, Tab.setMutex_data] at hdata hresult
  refine ⟨_, .head hissue ?_, hdata⟩
  rw [← hresult]
  simpa using hfinish

/-- The contracts of a set of calls. `rely` and `guar` are given by lock, with `none` for the calls
that take none; `resumed` says where a call may be resumed, `res` what a key's data satisfies when
the calls of a list have run and no section is open, and `post` what the outcome of a call
satisfies, given the earlier calls under its lock. -/
structure Discipline (κ Key ι δ ε α : Type) where
  rely : Option Key → δ → δ → Prop
  guar : Option Key → δ → δ → Prop
  resumed : κ → ι → δ → Prop
  res : Key → List κ → δ → Prop
  post : List κ → κ → Except ε α → δ → Prop

namespace Discipline

variable (D : Discipline κ Key ι δ ε α) (lock : κ → Option Key) (code : κ → Task ι δ ε α)
  (previous result : ι) (allowed : κ → Prop)

def contract (c : κ) : Contract ι δ where
  rely := D.rely (lock c)
  guar := D.guar (lock c)
  resumed := D.resumed c
  suspends _ := True

/-- How a call ends: its last segment keeps the guarantee, the outcome is as promised, and a section
gives its key's data back. -/
def ends (before : List κ) (c : κ) (r : Except ε α) (d₀ d : δ) : Prop :=
  D.guar (lock c) d₀ d ∧ D.post before c r d ∧ ∀ k, lock c = some k → D.res k (before ++ [c]) d

/-- What runs of `c` after its queueing: in a section the outcome is awaited. -/
def inner (c : κ) : Task ι δ ε α :=
  match lock c with
  | some _ => (code c).awaited result
  | none => code c

/-- The code keeps the contracts, and they fit together. -/
structure Sound : Prop where
  keeps : ∀ c, allowed c → ∀ before d, (∀ k, lock c = some k → D.res k before d) →
    (inner lock code result c).wp (D.contract lock c) (D.ends lock before c) d d
  unblocked : ∀ c, allowed c → (code c).NeverBlocks
  rely_guar : ∀ l l' d d', (l = l' → l = none) → D.guar l d d' → D.rely l' d d'
  post_guar : ∀ l d d' before c r, D.guar l d d' → D.post before c r d → D.post before c r d'
  res_rely : ∀ k before d d', D.rely (some k) d d' → D.res k before d → D.res k before d'

/-- Where call `i` stands, when `served k` sections on `k` are over and `active k` tells whether the
next one is open. -/
inductive Status (cs : List κ) (d : δ) (served : Key → Nat) (active : Key → Bool) (i : Nat) (c : κ) :
    Task ι (Tab Key δ) ε α → Prop
  | settled (r : Except ε α)
      (past : ∀ k, lock c = some k → (earlier lock cs i c).length < served k)
      (post : D.post (earlier lock cs i c) c r d) : Status cs d served active i c (.done r)
  | free (t : Task ι δ ε α) (hl : lock c = none)
      (waits : t.Waits (D.contract lock c) (D.ends lock (earlier lock cs i c) c) d)
      (unblocked : t.NeverBlocks) : Status cs d served active i c (onData t)
  | active (k : Key) (t : Task ι δ ε α) (hl : lock c = some k)
      (turn : (earlier lock cs i c).length = served k) (open_ : active k = true)
      (waits : t.Waits (D.contract lock c) (D.ends lock (earlier lock cs i c) c) d)
      (unblocked : t.NeverBlocks) : Status cs d served active i c (section_ k (served k) t)
  | waiting (k : Key) (hl : lock c = some k) (ahead : served k ≤ (earlier lock cs i c).length)
      (closed : (earlier lock cs i c).length = served k → active k = false) :
      Status cs d served active i c
        (waiting k previous (earlier lock cs i c).length (inner lock code result c))

/-- The invariant of a pool of exclusive calls. -/
structure Inv (p : Pool κ ι (Tab Key δ) ε α) (served : Key → Nat) (active : Key → Bool) : Prop where
  calls_allowed : ∀ c ∈ p.calls, allowed c
  tail : ∀ k, (p.state.getMutex k).tail = (queued lock k p.calls).length
  resolved : ∀ k n, (p.state.getMutex k).resolved n = true ↔ n ≤ served k
  served_le : ∀ k, served k ≤ (queued lock k p.calls).length
  active_lt : ∀ k, active k = true → served k < (queued lock k p.calls).length
  idle : ∀ k, active k = false → D.res k ((queued lock k p.calls).take (served k)) p.state.data
  thread : ∀ i c t, p.threads[i]? = some (c, t) →
    D.Status lock code previous result p.calls p.state.data served active i c t

/-- A change of the data by a call under lock `l`, which may also open or close the section of its
own key. -/
structure Change (l : Option Key) (d d' : δ) (served served' : Key → Nat)
    (active active' : Key → Bool) : Prop where
  guar : D.guar l d d'
  other : ∀ k, l ≠ some k → served' k = served k ∧ active' k = active k
  own : ∀ k, l = some k →
    served' k = served k ∨ served' k = served k + 1 ∧ active' k = false

variable {D lock code previous result allowed}
variable {cs : List κ} {d d' : δ} {served served' : Key → Nat} {active active' : Key → Bool}
  {p q : Pool κ ι (Tab Key δ) ε α}

theorem Change.served_le {l : Option Key} (h : D.Change l d d' served served' active active')
    (k : Key) : served k ≤ served' k := by
  by_cases hl : l = some k
  · rcases h.own k hl with h | h <;> omega
  · exact Nat.le_of_eq (h.other k hl).1.symm

theorem Status.append {i : Nat} {c c' : κ} {t : Task ι (Tab Key δ) ε α} (hi : i < cs.length)
    (h : D.Status lock code previous result cs d served active i c t) :
    D.Status lock code previous result (cs ++ [c']) d served active i c t := by
  have he : earlier lock (cs ++ [c']) i c = earlier lock cs i c :=
    earlier_append (Nat.le_of_lt hi) c c'
  cases h with
  | settled r past post => exact .settled r (he ▸ past) (he ▸ post)
  | free t hl waits unblocked => exact .free t hl (he ▸ waits) unblocked
  | active k t hl turn open_ waits unblocked =>
    exact .active k t hl (he ▸ turn) open_ (he ▸ waits) unblocked
  | waiting k hl ahead closed => rw [← he]; exact .waiting k hl (he ▸ ahead) (he ▸ closed)

/-- A call that is not at its turn under the lock of a change keeps its standing. -/
theorem Status.change (hS : D.Sound lock code result allowed) {l : Option Key}
    (hc : D.Change l d d' served served' active active') {i : Nat} {c : κ}
    {t : Task ι (Tab Key δ) ε α}
    (h : D.Status lock code previous result cs d served active i c t)
    (hturn : ∀ k, l = some k → lock c = some k → (earlier lock cs i c).length ≠ served k) :
    D.Status lock code previous result cs d' served' active' i c t := by
  cases h with
  | settled r past post =>
    exact .settled r (fun k hk => Nat.lt_of_lt_of_le (past k hk) (hc.served_le k))
      (hS.post_guar _ _ _ _ _ _ hc.guar post)
  | free t hl waits unblocked =>
    refine .free t hl (waits.rely ?_) unblocked
    rw [contract, hl]
    exact hS.rely_guar _ _ _ _ id hc.guar
  | active k t hl turn open_ waits unblocked =>
    have hne : l ≠ some k := fun h => hturn k h hl turn
    obtain ⟨hserved, hactive⟩ := hc.other k hne
    rw [← hserved] at turn ⊢
    refine .active k t hl turn (hactive.trans open_) (waits.rely ?_) unblocked
    rw [contract, hl]
    exact hS.rely_guar _ _ _ _ (fun h => absurd h hne) hc.guar
  | waiting k hl ahead closed =>
    by_cases hl' : l = some k
    · have hne := hturn k hl' hl
      rcases hc.own k hl' with hsame | ⟨hnext, hclosed⟩
      · exact .waiting k hl (by omega) (fun h => absurd (h.trans hsame) hne)
      · exact .waiting k hl (by omega) (fun _ => hclosed)
    · obtain ⟨hserved, hactive⟩ := hc.other k hl'
      exact .waiting k hl (hserved ▸ ahead) (fun h => hactive.trans (closed (h.trans hserved)))

/-- The data of the keys that a change is not about. -/
theorem res_change (hS : D.Sound lock code result allowed) {l : Option Key}
    (hc : D.Change l d d' served served' active active')
    (h : ∀ k, active k = false → D.res k ((queued lock k cs).take (served k)) d) {k : Key}
    (hl : l ≠ some k) (ha : active' k = false) :
    D.res k ((queued lock k cs).take (served' k)) d' := by
  obtain ⟨hserved, hactive⟩ := hc.other k hl
  rw [hserved]
  exact hS.res_rely k _ _ _ (hS.rely_guar _ _ _ _ (fun h => absurd h hl) hc.guar)
    (h k (hactive ▸ ha))

theorem inv_init (d : δ) (hres : ∀ k, D.res k [] d) :
    D.Inv lock code previous result allowed (.init (Tab.fresh d)) (fun _ => 0) (fun _ => false) where
  calls_allowed := by simp
  tail _ := rfl
  resolved k n := by simp [Pool.init, createMutex]
  served_le _ := Nat.zero_le _
  active_lt _ h := by cases h
  idle k _ := hres k
  thread i c t h := by simp [Pool.init] at h

omit [DecidableEq Key] in
theorem Change.free (hg : D.guar none d d') :
    D.Change none d d' served served active active :=
  ⟨hg, fun _ _ => ⟨rfl, rfl⟩, fun _ h => absurd h (by simp)⟩

/-- A segment of a call without a lock leaves it settled or waiting, within its guarantee. -/
theorem status_free (code : κ → Task ι δ ε α) (previous result : ι) (served : Key → Nat)
    (active : Key → Bool) {i : Nat} {c : κ} {t : Task ι δ ε α} (hl : lock c = none)
    (hwp : t.wp (D.contract lock c) (D.ends lock (earlier lock cs i c) c) d d)
    (hn : t.NeverBlocks) :
    D.guar none d (t.seg d).1 ∧
      D.Status lock code previous result cs (t.seg d).1 served active i c (onData (t.seg d).2) := by
  rcases Task.seg_wp hwp with ⟨r, hr, hg, hpost, -⟩ | ⟨hg, hw⟩
  · rw [hr]
    exact ⟨hl ▸ hg, .settled r (fun k hk => absurd (hl ▸ hk) (by simp)) hpost⟩
  · exact ⟨by simpa [contract, hl] using hg, .free _ hl hw (hn.seg d)⟩

theorem Inv.call_free (hS : D.Sound lock code result allowed)
    (hI : D.Inv lock code previous result allowed p served active) {c : κ} (hc : allowed c)
    (hl : lock c = none) :
    D.Inv lock code previous result allowed
      (p.call (exclusive lock code previous result) c) served active := by
  have hbody : exclusive lock code previous result c = onData (code c) := by simp [exclusive, hl]
  have hinner : inner lock code result c = code c := by simp [inner, hl]
  have hwp := hS.keeps c hc (earlier lock (p.calls ++ [c]) p.threads.length c) p.state.data
    (fun k hk => absurd (hl ▸ hk) (by simp))
  rw [hinner] at hwp
  obtain ⟨hg, hstatus⟩ := status_free code previous result served active hl hwp (hS.unblocked c hc)
  have hchange : D.Change none _ _ served served active active := Change.free hg
  have hstate : (p.call (exclusive lock code previous result) c).state =
      Tab.setData ((code c).seg p.state.data).1 p.state := by
    rw [Pool.call, hbody, seg_onData]
  have hqueued : ∀ k, queued lock k (p.calls ++ [c]) = queued lock k p.calls := by
    intro k
    simp [queued_append, hl]
  refine ⟨?_, ?_, ?_, ?_, ?_, ?_, ?_⟩
  · intro c' hc'
    rw [Pool.calls_call, List.mem_append, List.mem_singleton] at hc'
    rcases hc' with hc' | rfl
    · exact hI.calls_allowed c' hc'
    · exact hc
  · intro k
    rw [Pool.calls_call, hqueued, hstate]
    exact hI.tail k
  · intro k n
    rw [hstate]
    exact hI.resolved k n
  · intro k
    rw [Pool.calls_call, hqueued]
    exact hI.served_le k
  · intro k
    rw [Pool.calls_call, hqueued]
    exact hI.active_lt k
  · intro k ha
    rw [Pool.calls_call, hqueued, hstate]
    exact res_change hS hchange hI.idle (by simp) ha
  · intro j c' t ht
    rw [Pool.calls_call, hstate]
    rcases Pool.getElem?_call ht with hold | ⟨rfl, rfl, rfl⟩
    · obtain ⟨hj, _⟩ := List.getElem?_eq_some_iff.mp hold
      exact ((hI.thread j c' t hold).change hS hchange (fun k h => by cases h)).append
        (by simpa [Pool.calls] using hj)
    · rw [hbody, seg_onData]
      exact hstatus

theorem Inv.call_queue (hI : D.Inv lock code previous result allowed p served active) {c : κ}
    (hc : allowed c) {k : Key} (hl : lock c = some k) :
    D.Inv lock code previous result allowed
      (p.call (exclusive lock code previous result) c) served active := by
  have hbody : exclusive lock code previous result c = runExclusive k previous result (code c) := by
    simp [exclusive, hl]
  have hstate : (p.call (exclusive lock code previous result) c).state =
      p.state.setMutex k (p.state.getMutex k).enqueue := by
    rw [Pool.call, hbody]
    rfl
  have hlen : ∀ k', (queued lock k' p.calls).length ≤ (queued lock k' (p.calls ++ [c])).length := by
    intro k'
    simp [queued_append]
  refine ⟨?_, ?_, ?_, ?_, ?_, ?_, ?_⟩
  · intro c' hc'
    rw [Pool.calls_call, List.mem_append, List.mem_singleton] at hc'
    rcases hc' with hc' | rfl
    · exact hI.calls_allowed c' hc'
    · exact hc
  · intro k'
    rw [Pool.calls_call, hstate, queued_append]
    by_cases hk : k' = k
    · subst hk
      simp [hl, hI.tail k']
    · rw [Tab.getMutex_setMutex_ne _ _ hk, hI.tail k', if_neg (by simpa [hl] using Ne.symm hk)]
      simp
  · intro k' n
    rw [hstate, ← hI.resolved k' n]
    by_cases hk : k' = k
    · subst hk
      simp
    · rw [Tab.getMutex_setMutex_ne _ _ hk]
  · intro k'
    rw [Pool.calls_call]
    exact Nat.le_trans (hI.served_le k') (hlen k')
  · intro k' ha
    rw [Pool.calls_call]
    exact Nat.lt_of_lt_of_le (hI.active_lt k' ha) (hlen k')
  · intro k' ha
    rw [Pool.calls_call, hstate, queued_append,
      List.take_append_of_le_length (hI.served_le k')]
    exact hI.idle k' ha
  · intro j c' t ht
    rw [Pool.calls_call, hstate]
    rcases Pool.getElem?_call ht with hold | ⟨rfl, rfl, rfl⟩
    · obtain ⟨hj, _⟩ := List.getElem?_eq_some_iff.mp hold
      exact (hI.thread j c' t hold).append (by simpa [Pool.calls] using hj)
    · have hplace : earlier lock (p.calls ++ [c']) p.threads.length c' = queued lock k p.calls := by
        have hself : earlier lock (p.calls ++ [c']) p.calls.length c' = queued lock k p.calls :=
          earlier_length_self c' hl
        simpa [Pool.calls] using hself
      have hrest : ((exclusive lock code previous result c').seg p.state).2 =
          waiting k previous (earlier lock (p.calls ++ [c']) p.threads.length c').length
            (inner lock code result c') := by
        rw [hbody, hplace, ← hI.tail k]
        simp [runExclusive, Task.seg, waiting, inner, hl]
      rw [hrest]
      refine .waiting k hl ?_ ?_
      · rw [hplace]
        exact hI.served_le k
      · intro hturn
        rw [hplace] at hturn
        by_contra hopen
        have := hI.active_lt k (by simpa using hopen)
        omega

/-- Call `i` runs a segment of its code, in a section of `k` or under no lock: the rest of the
invariant follows from the change that the segment makes and from where it leaves the call. -/
theorem Inv.resume (hS : D.Sound lock code result allowed)
    (hI : D.Inv lock code previous result allowed p served active) {i : Nat} {c : κ}
    {t₀ next : Task ι (Tab Key δ) ε α} (hi : p.threads[i]? = some (c, t₀)) (d' : δ)
    (hdata : (next.seg p.state).1.data = d')
    (hchange : D.Change (lock c) p.state.data d' served served' active active')
    (hturn : ∀ k, lock c = some k → (earlier lock p.calls i c).length = served k)
    (htail : ∀ k, ((next.seg p.state).1.getMutex k).tail = (p.state.getMutex k).tail)
    (hresolved : ∀ k n, ((next.seg p.state).1.getMutex k).resolved n = true ↔ n ≤ served' k)
    (hres : ∀ k, lock c = some k → active' k = false →
      D.res k ((queued lock k p.calls).take (served' k)) d')
    (hstatus : D.Status lock code previous result p.calls d' served' active' i c
      (next.seg p.state).2) :
    D.Inv lock code previous result allowed (p.resume i c next) served' active' := by
  have hcalls : (p.resume i c next).calls = p.calls := Pool.calls_resume hi
  have hcall := Pool.calls_getElem? hi
  have hstate : (p.resume i c next).state = (next.seg p.state).1 := rfl
  have hown : ∀ k, lock c = some k → served k < (queued lock k p.calls).length := fun k hk =>
    hturn k hk ▸ earlier_length_lt hcall hk
  refine ⟨hcalls ▸ hI.calls_allowed, ?_, hresolved, ?_, ?_, ?_, ?_⟩
  · intro k
    rw [hcalls, hstate, htail]
    exact hI.tail k
  · intro k
    rw [hcalls]
    by_cases hk : lock c = some k
    · have := hown k hk
      rcases hchange.own k hk with h | h <;> omega
    · rw [(hchange.other k hk).1]
      exact hI.served_le k
  · intro k ha
    rw [hcalls]
    by_cases hk : lock c = some k
    · have := hown k hk
      rcases hchange.own k hk with h | ⟨_, h⟩
      · omega
      · rw [h] at ha
        cases ha
    · rw [(hchange.other k hk).2] at ha
      rw [(hchange.other k hk).1]
      exact hI.active_lt k ha
  · intro k ha
    rw [hcalls, hstate, hdata]
    by_cases hk : lock c = some k
    · exact hres k hk ha
    · exact res_change hS hchange hI.idle hk ha
  · intro j c' t ht
    rw [hcalls, hstate, hdata]
    rcases Pool.getElem?_resume hi ht with ⟨hj, hold⟩ | ⟨rfl, rfl, rfl⟩
    · refine (hI.thread j c' t hold).change hS hchange fun k hk hk' hplace => hj ?_
      exact earlier_injective (Pool.calls_getElem? hold) hcall hk' hk
        (hplace.trans (hturn k hk).symm)
    · exact hstatus

theorem Inv.resume_free (hS : D.Sound lock code result allowed)
    (hI : D.Inv lock code previous result allowed p served active) {i : Nat} {c : κ}
    {t₀ : Task ι (Tab Key δ) ε α} {t : Task ι δ ε α} (hi : p.threads[i]? = some (c, t₀))
    (hl : lock c = none)
    (hwp : t.wp (D.contract lock c) (D.ends lock (earlier lock p.calls i c) c)
      p.state.data p.state.data) (hn : t.NeverBlocks) :
    D.Inv lock code previous result allowed (p.resume i c (onData t)) served active := by
  obtain ⟨hg, hstatus⟩ := status_free code previous result served active hl hwp hn
  refine hI.resume hS hi _ rfl (hl ▸ Change.free ?_) (fun k hk => absurd (hl ▸ hk) (by simp))
    ?_ ?_ (fun k hk => absurd (hl ▸ hk) (by simp)) ?_
  · rw [seg_onData]
    exact hg
  · intro k
    rw [seg_onData]
    rfl
  · intro k n
    rw [seg_onData]
    exact hI.resolved k n
  · rw [seg_onData]
    exact hstatus

/-- The call whose turn it is runs a segment of its section. -/
theorem Inv.resume_section (hS : D.Sound lock code result allowed)
    (hI : D.Inv lock code previous result allowed p served active) {i : Nat} {c : κ} {k : Key}
    {t₀ : Task ι (Tab Key δ) ε α} {t : Task ι δ ε α} (hi : p.threads[i]? = some (c, t₀))
    (hl : lock c = some k) (hturn : (earlier lock p.calls i c).length = served k)
    (hwp : t.wp (D.contract lock c) (D.ends lock (earlier lock p.calls i c) c)
      p.state.data p.state.data) (hn : t.NeverBlocks) :
    ∃ served' active', D.Inv lock code previous result allowed
      (p.resume i c (section_ k (served k) t)) served' active' := by
  have hkeys : ∀ {k'}, lock c = some k' → k' = k := fun h => Option.some.inj (h.symm.trans hl)
  have hcall := Pool.calls_getElem? hi
  rcases Task.seg_wp hwp with ⟨r, hr, hg, hpost, hres⟩ | ⟨hg, hw⟩
  · -- the section is over: promise `served k + 1` is released
    have hseg := seg_section_done (k := k) (n := served k) (s := p.state)
      (show t.seg p.state.data = ((t.seg p.state.data).1, .done r) from Prod.ext rfl hr)
    refine ⟨Function.update served k (served k + 1), Function.update active k false,
      hI.resume hS hi (t.seg p.state.data).1 ?_ ⟨hg, ?_, ?_⟩ ?_ ?_ ?_ ?_ ?_⟩
    · rw [hseg]
      rfl
    · intro k' hk'
      have hne : k' ≠ k := fun h => hk' (h ▸ hl)
      simp [hne]
    · intro k' hk'
      obtain rfl := hkeys hk'
      simp
    · intro k' hk'
      obtain rfl := hkeys hk'
      exact hturn
    · intro k'
      rw [hseg]
      by_cases hk' : k' = k
      · subst hk'
        simp
      · rw [Tab.getMutex_setMutex_ne _ _ hk']
        rfl
    · intro k' n
      rw [hseg]
      by_cases hk' : k' = k
      · subst hk'
        have := hI.resolved k' n
        by_cases hn : n = served k' + 1
        · simp [hn]
        · simp only [Tab.getMutex_setMutex_same, Mutex.release_resolved, Function.update_self,
            Function.update_of_ne hn, this]
          omega
      · rw [Tab.getMutex_setMutex_ne _ _ hk', Function.update_of_ne hk']
        exact hI.resolved k' n
    · intro k' hk' _
      obtain rfl := hkeys hk'
      rw [Function.update_self, ← hturn, ← earlier_concat hcall hl]
      exact hres k' hl
    · rw [hseg]
      refine .settled r (fun k' hk' => ?_) hpost
      obtain rfl := hkeys hk'
      simp [hturn]
  · -- the section stays open
    obtain ⟨pt, ready, rest, hrest⟩ := hw.exists_await
    have hseg := seg_section_await (k := k) (n := served k) (s := p.state)
      (show t.seg p.state.data = ((t.seg p.state.data).1, .await pt ready rest) from
        Prod.ext rfl hrest)
    rw [← hrest] at hseg
    refine ⟨served, Function.update active k true,
      hI.resume hS hi (t.seg p.state.data).1 ?_ ⟨hg, ?_, ?_⟩ ?_ ?_ ?_ ?_ ?_⟩
    · rw [hseg]
      rfl
    · intro k' hk'
      have hne : k' ≠ k := fun h => hk' (h ▸ hl)
      simp [hne]
    · exact fun _ _ => Or.inl rfl
    · intro k' hk'
      obtain rfl := hkeys hk'
      exact hturn
    · intro k'
      rw [hseg]
      rfl
    · intro k' n
      rw [hseg]
      exact hI.resolved k' n
    · intro k' hk' ha
      obtain rfl := hkeys hk'
      simp at ha
    · rw [hseg]
      exact .active k _ hl hturn (by simp) hw (hn.seg _)

/-- What a resumed call runs: code that keeps its contract from here, under no lock or in the
section that is its turn. -/
theorem Inv.resumed (hS : D.Sound lock code result allowed)
    (hI : D.Inv lock code previous result allowed p served active) {i : Nat} {c : κ} {pt : ι}
    {ready : Tab Key δ → Bool} {next : Task ι (Tab Key δ) ε α}
    (hi : p.threads[i]? = some (c, .await pt ready next)) (hready : ready p.state = true)
    (hr : D.resumed c pt p.state.data) :
    ∃ t : Task ι δ ε α,
      t.wp (D.contract lock c) (D.ends lock (earlier lock p.calls i c) c) p.state.data p.state.data ∧
      t.NeverBlocks ∧ (lock c = none ∧ next = onData t ∨ ∃ k, lock c = some k ∧
        (earlier lock p.calls i c).length = served k ∧ next = section_ k (served k) t) := by
  have hcall := Pool.calls_getElem? hi
  generalize ht : Task.await pt ready next = t at hi
  cases hI.thread i c t hi with
  | settled r past post => cases ht
  | free t hl waits unblocked =>
    obtain ⟨pt', ready', rest, rfl⟩ := waits.exists_await
    obtain ⟨rfl, rfl, rfl⟩ := Task.await.inj ht
    exact ⟨rest, waits.resume hready hr, ((Task.neverBlocks_await ..).mp unblocked).2, Or.inl ⟨hl, rfl⟩⟩
  | active k t hl turn open_ waits unblocked =>
    obtain ⟨pt', ready', rest, rfl⟩ := waits.exists_await
    obtain ⟨rfl, rfl, rfl⟩ := Task.await.inj ht
    exact ⟨rest, waits.resume hready hr, ((Task.neverBlocks_await ..).mp unblocked).2,
      Or.inr ⟨k, hl, turn, rfl⟩⟩
  | waiting k hl ahead closed =>
    obtain ⟨rfl, rfl, rfl⟩ := Task.await.inj ht
    have hturn : (earlier lock p.calls i c).length = served k :=
      Nat.le_antisymm ((hI.resolved k _).mp hready) ahead
    have hres : ∀ k', lock c = some k' → D.res k' (earlier lock p.calls i c) p.state.data := by
      intro k' hk'
      obtain rfl := Option.some.inj (hl.symm.trans hk')
      rw [earlier_eq_take hcall hl, hturn]
      exact hI.idle k (closed hturn)
    have hc := hI.calls_allowed c (List.mem_of_getElem? hcall)
    have hn : (inner lock code result c).NeverBlocks := by
      simpa [inner, hl] using (hS.unblocked c hc).awaited
    exact ⟨_, hS.keeps c hc _ _ hres, hn, Or.inr ⟨k, hl, hturn, by rw [hturn]⟩⟩

theorem Inv.step (hS : D.Sound lock code result allowed)
    (hI : D.Inv lock code previous result allowed p served active)
    (hstep : Pool.Step (exclusive lock code previous result) (fun c _ => allowed c)
      (fun c pt s => D.resumed c pt s.data) p q) :
    ∃ served' active', D.Inv lock code previous result allowed q served' active' := by
  cases hstep with
  | call c hc =>
    cases hl : lock c with
    | none => exact ⟨_, _, hI.call_free hS hc hl⟩
    | some k => exact ⟨_, _, hI.call_queue hc hl⟩
  | resume i c pt ready next hi hready hr =>
    obtain ⟨t, hwp, hn, ⟨hl, rfl⟩ | ⟨k, hl, hturn, rfl⟩⟩ := hI.resumed hS hi hready hr
    · exact ⟨_, _, hI.resume_free hS hi hl hwp hn⟩
    · exact hI.resume_section hS hi hl hturn hwp hn

/-- Something else changes the data as a call without a lock may. -/
theorem Inv.outside (hS : D.Sound lock code result allowed)
    (hI : D.Inv lock code previous result allowed p served active) (hg : D.guar none p.state.data d') :
    D.Inv lock code previous result allowed ⟨p.state.setData d', p.threads⟩ served active where
  calls_allowed := hI.calls_allowed
  tail := hI.tail
  resolved := hI.resolved
  served_le := hI.served_le
  active_lt := hI.active_lt
  idle k ha := res_change hS (Change.free hg) hI.idle (by simp) ha
  thread i c t ht := (hI.thread i c t ht).change hS (Change.free hg) fun k h => by cases h

omit [DecidableEq Key] in
/-- A segment of a call changes the data only as its contract guarantees. -/
theorem guar_seg {c : κ} {t : Task ι δ ε α} {before : List κ}
    (hwp : t.wp (D.contract lock c) (D.ends lock before c) d d) :
    D.guar (lock c) d (t.seg d).1 := by
  rcases Task.seg_wp hwp with ⟨r, -, hg, -⟩ | ⟨hg, -⟩
  · exact hg
  · exact hg

theorem Inv.resume_guar (hS : D.Sound lock code result allowed)
    (hI : D.Inv lock code previous result allowed p served active) {i : Nat} {c : κ} {pt : ι}
    {ready : Tab Key δ → Bool} {next : Task ι (Tab Key δ) ε α}
    (hi : p.threads[i]? = some (c, .await pt ready next)) (hready : ready p.state = true)
    (hr : D.resumed c pt p.state.data) :
    D.guar (lock c) p.state.data (p.resume i c next).state.data := by
  obtain ⟨t, hwp, -, hnext⟩ := hI.resumed hS hi hready hr
  have hdata : (p.resume i c next).state.data = (t.seg p.state.data).1 := by
    rcases hnext with ⟨-, rfl⟩ | ⟨k, -, -, rfl⟩
    · rw [Pool.resume, seg_onData]
      rfl
    · exact seg_section_data k _ t p.state
  rw [hdata]
  exact guar_seg hwp

/-- The first segment of a new call: queueing leaves the data as it is. -/
theorem call_guar (previous : ι) (hS : D.Sound lock code result allowed)
    (hrefl : ∀ l d, D.guar l d d) {c : κ}
    (hc : allowed c) (p : Pool κ ι (Tab Key δ) ε α) :
    D.guar (lock c) p.state.data
      (p.call (exclusive lock code previous result) c).state.data := by
  cases hl : lock c with
  | some k => simpa [Pool.call, exclusive, hl, runExclusive, Task.seg, waiting] using hrefl _ _
  | none =>
    have hwp := hS.keeps c hc [] p.state.data (fun k hk => absurd (hl ▸ hk) (by simp))
    simp only [inner, hl] at hwp
    have := guar_seg hwp
    rw [hl] at this
    simpa [Pool.call, exclusive, hl, seg_onData] using this

theorem Inv.of_run (hS : D.Sound lock code result allowed) {d : δ} (hres : ∀ k, D.res k [] d)
    (hrun : Pool.Run (exclusive lock code previous result) (fun c _ => allowed c)
      (fun c pt s => D.resumed c pt s.data) (.init (Tab.fresh d)) p) :
    ∃ served active, D.Inv lock code previous result allowed p served active :=
  hrun.invariant (fun p => ∃ served active, D.Inv lock code previous result allowed p served
    active) (fun _ _ ⟨_, _, hI⟩ hstep => hI.step hS hstep) ⟨_, _, inv_init d hres⟩

/-- A settled call has the outcome that its discipline promises. -/
theorem Inv.post (hI : D.Inv lock code previous result allowed p served active) {i : Nat} {c : κ}
    {r : Except ε α} (hi : p.threads[i]? = some (c, .done r)) :
    D.post (earlier lock p.calls i c) c r p.state.data := by
  generalize ht : (Task.done r : Task ι (Tab Key δ) ε α) = t at hi
  cases hI.thread i c t hi with
  | settled r' past post => exact Task.done.inj ht ▸ post
  | free t hl waits unblocked =>
    obtain ⟨pt, ready, rest, rfl⟩ := waits.exists_await
    cases ht
  | active k t hl turn open_ waits unblocked =>
    obtain ⟨pt, ready, rest, rfl⟩ := waits.exists_await
    cases ht
  | waiting k hl ahead closed => cases ht

/-- While a section is still due, the call whose turn it is can be resumed. -/
theorem Inv.next_resumable (hI : D.Inv lock code previous result allowed p served active) {k : Key}
    (hk : served k < (queued lock k p.calls).length) :
    p.Resumable := by
  obtain ⟨i, c, hi, hl, hlen⟩ := exists_earlier hk
  obtain ⟨t, ht⟩ := Pool.exists_thread hi
  cases hI.thread i c t ht with
  | settled r past post => exact absurd (past k hl) (by omega)
  | free t hl' waits unblocked => exact absurd (hl'.symm.trans hl) (by simp)
  | active k' t hl' turn open_ waits unblocked =>
    obtain ⟨pt, ready, rest, rfl⟩ := waits.exists_await
    exact ⟨i, c, _, _, _, ht, ((Task.neverBlocks_await ..).mp unblocked).1 _⟩
  | waiting k' hl' ahead closed =>
    obtain rfl := Option.some.inj (hl'.symm.trans hl)
    exact ⟨i, c, _, _, _, ht, (hI.resolved k' _).mpr (by omega)⟩

/-- A pool is never stuck: until all its calls have settled, one of them can be resumed. -/
theorem Inv.settled_or_resumable (hI : D.Inv lock code previous result allowed p served active) :
    p.Settled ∨ p.Resumable := by
  by_cases hall : ∃ k, served k < (queued lock k p.calls).length
  · obtain ⟨k, hk⟩ := hall
    exact Or.inr (hI.next_resumable hk)
  · by_cases hfree : ∃ (i : Nat) (c : κ) (t : Task ι δ ε α), p.threads[i]? = some (c, onData t) ∧
        t.NeverBlocks ∧ ∃ pt ready rest, t = .await pt ready rest
    · obtain ⟨i, c, t, hi, hn, pt, ready, rest, rfl⟩ := hfree
      exact Or.inr ⟨i, c, _, _, _, hi, ((Task.neverBlocks_await ..).mp hn).1 _⟩
    · refine Or.inl fun c t hmem => ?_
      obtain ⟨i, hi⟩ := List.mem_iff_getElem?.mp hmem
      have hplace : ∀ k, lock c = some k → (earlier lock p.calls i c).length < served k := by
        intro k hk
        have := earlier_length_lt (Pool.calls_getElem? hi) hk
        exact Nat.lt_of_lt_of_le this (Nat.le_of_not_lt fun h => hall ⟨k, h⟩)
      cases hI.thread i c t hi with
      | settled r past post => exact ⟨r, rfl⟩
      | free t hl waits unblocked =>
        exact absurd ⟨i, c, t, hi, unblocked, waits.exists_await⟩ hfree
      | active k t hl turn open_ waits unblocked => exact absurd (hplace k hl) (by omega)
      | waiting k hl ahead closed => exact absurd (hplace k hl) (by omega)

/-- Once all calls have settled, every key's data is as its sections, in the order of the calls,
have left it. -/
theorem Inv.res_of_settled (hI : D.Inv lock code previous result allowed p served active)
    (hp : p.Settled) (k : Key) : D.res k (queued lock k p.calls) p.state.data := by
  have hall : ∀ k, ¬ served k < (queued lock k p.calls).length := by
    intro k hk
    obtain ⟨i, c, pt, ready, next, hi, -⟩ := hI.next_resumable hk
    obtain ⟨r, hr⟩ := hp c _ (List.mem_of_getElem? hi)
    cases hr
  have hidle : active k = false := by
    by_contra hopen
    exact hall k (hI.active_lt k (by simpa using hopen))
  have := hI.idle k hidle
  rwa [List.take_of_length_le (Nat.le_of_not_lt (hall k))] at this

/-- How many calls have not settled. -/
def pending (l : List (κ × Task ι (Tab Key δ) ε α)) : Nat :=
  l.countP fun x => match x.2 with
    | .done _ => false
    | _ => true

omit [DecidableEq Key] in
theorem pending_set_lt {l : List (κ × Task ι (Tab Key δ) ε α)} {i : Nat} {c : κ} {pt : ι}
    {ready : Tab Key δ → Bool} {next : Task ι (Tab Key δ) ε α} {r : Except ε α}
    (hi : l[i]? = some (c, .await pt ready next)) : pending (l.set i (c, .done r)) < pending l := by
  induction l generalizing i with
  | nil => simp at hi
  | cons x l ih =>
    cases i with
    | zero =>
      obtain rfl : x = _ := by simpa using hi
      simp [pending]
    | succ i =>
      have := ih (by simpa using hi)
      simp only [pending, List.set_cons_succ, List.countP_cons] at this ⊢
      omega

/-- Some call that has not settled can be run to its end. -/
theorem Inv.settle_one (hS : D.Sound lock code result allowed)
    (hresumed : ∀ c pt d, D.resumed c pt d)
    (hI : D.Inv lock code previous result allowed p served active) (hp : p.Resumable) :
    ∃ q, Pool.Run (exclusive lock code previous result) (fun c _ => allowed c)
      (fun c pt s => D.resumed c pt s.data) p q ∧ pending q.threads < pending p.threads ∧
      q.calls = p.calls := by
  obtain ⟨i, c, pt, ready, next, hi, hready⟩ := hp
  obtain ⟨t, -, hn, hnext⟩ := hI.resumed hS hi hready (hresumed _ _ _)
  have hblocks : next.NeverBlocks := by
    rcases hnext with ⟨-, rfl⟩ | ⟨k, -, -, rfl⟩
    · exact hn.zoom _ _
    · exact (hn.zoom _ _).finish _
  have hrun : Pool.Run (exclusive lock code previous result) (fun c _ => allowed c)
      (fun c pt s => D.resumed c pt s.data) p _ :=
    Pool.Run.finish (fun pt s => hresumed c pt s.data) hi hready hblocks
  have hcalls : (p.resume i c (.done (next.run p.state).2)).calls = p.calls := Pool.calls_resume hi
  exact ⟨_, hrun, pending_set_lt hi, hcalls⟩

/-- From every reachable pool the calls can be run until all have settled. -/
theorem Inv.exists_settled (hS : D.Sound lock code result allowed)
    (hresumed : ∀ c pt d, D.resumed c pt d)
    (hI : D.Inv lock code previous result allowed p served active) :
    ∃ q, Pool.Run (exclusive lock code previous result) (fun c _ => allowed c)
      (fun c pt s => D.resumed c pt s.data) p q ∧ q.Settled ∧ q.calls = p.calls := by
  induction hn : pending p.threads using Nat.strongRecOn generalizing p served active with
  | _ n ih =>
    rcases hI.settled_or_resumable with hsettled | hresumable
    · exact ⟨p, .refl, hsettled, rfl⟩
    · obtain ⟨q, hrun, hlt, hcalls⟩ := hI.settle_one hS hresumed hresumable
      obtain ⟨served', active', hI'⟩ := hrun.invariant
        (fun p => ∃ served active, D.Inv lock code previous result allowed p served active)
        (fun _ _ ⟨_, _, h⟩ hs => h.step hS hs) ⟨_, _, hI⟩
      obtain ⟨q', hrun', hsettled, hcalls'⟩ := ih _ (hn ▸ hlt) hI' rfl
      exact ⟨q', hrun.trans hrun', hsettled, hcalls'.trans hcalls⟩

end Discipline

end SovereignJedi.Manifest
