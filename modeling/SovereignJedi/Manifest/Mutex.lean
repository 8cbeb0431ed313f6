import SovereignJedi.Async.Alone
import SovereignJedi.Async.Pool

/-! The in-tab mutex of `internal/mutex.ts`, a chain of promises, and the map of mutexes that the
manifest service keeps by wallet. -/

namespace SovereignJedi.Manifest

open SovereignJedi.Async

/-- The state that `createMutex` closes over. Promises are numbered in creation order: promise 0 is
`Promise.resolve()`, and `tail` is the number of the promise stored last. -/
structure Mutex where
  tail : Nat
  resolved : Nat → Bool

def createMutex : Mutex := { tail := 0, resolved := fun n => n == 0 }

/-- `tail = new Promise(..)`. -/
def Mutex.enqueue (m : Mutex) : Mutex := { m with tail := m.tail + 1 }

/-- `release()` of promise `n`. -/
def Mutex.release (n : Nat) (m : Mutex) : Mutex :=
  { m with resolved := Function.update m.resolved n true }

@[simp] theorem Mutex.enqueue_tail (m : Mutex) : m.enqueue.tail = m.tail + 1 := rfl
@[simp] theorem Mutex.enqueue_resolved (m : Mutex) : m.enqueue.resolved = m.resolved := rfl
@[simp] theorem Mutex.release_tail (n : Nat) (m : Mutex) : (m.release n).tail = m.tail := rfl
@[simp] theorem Mutex.release_resolved (n : Nat) (m : Mutex) :
    (m.release n).resolved = Function.update m.resolved n true := rfl

/-- A tab: the data that calls work on, and `mutexByWallet`. -/
structure Tab (Key δ : Type) where
  data : δ
  mutexes : Key → Option Mutex

namespace Tab

variable {Key δ : Type}

/-- A fresh tab: no mutex has been created. -/
def fresh (d : δ) : Tab Key δ := { data := d, mutexes := fun _ => none }

/-- `getMutex`: the wallet's mutex, created on first use. -/
def getMutex (s : Tab Key δ) (k : Key) : Mutex := (s.mutexes k).getD createMutex

def setData (d : δ) (s : Tab Key δ) : Tab Key δ := { s with data := d }

/-- No mutex is held, and nobody waits for one. -/
def Free (s : Tab Key δ) : Prop := ∀ k, (s.getMutex k).resolved (s.getMutex k).tail = true

theorem free_fresh (d : δ) : (fresh d : Tab Key δ).Free := fun _ => rfl

@[simp] theorem fresh_data (d : δ) : (fresh d : Tab Key δ).data = d := rfl
@[simp] theorem getMutex_fresh (d : δ) (k : Key) : (fresh d : Tab Key δ).getMutex k = createMutex :=
  rfl
@[simp] theorem setData_data (s : Tab Key δ) (d : δ) : (setData d s).data = d := rfl
@[simp] theorem getMutex_setData (s : Tab Key δ) (d : δ) (k : Key) :
    (setData d s).getMutex k = s.getMutex k := rfl

variable [DecidableEq Key]

def setMutex (s : Tab Key δ) (k : Key) (m : Mutex) : Tab Key δ :=
  { s with mutexes := Function.update s.mutexes k (some m) }

@[simp] theorem setMutex_data (s : Tab Key δ) (k : Key) (m : Mutex) : (s.setMutex k m).data = s.data :=
  rfl

@[simp] theorem getMutex_setMutex_same (s : Tab Key δ) (k : Key) (m : Mutex) :
    (s.setMutex k m).getMutex k = m := by
  simp [getMutex, setMutex]

theorem getMutex_setMutex_ne (s : Tab Key δ) {k k' : Key} (m : Mutex) (h : k' ≠ k) :
    (s.setMutex k m).getMutex k' = s.getMutex k' := by
  simp [getMutex, setMutex, h]

end Tab

section RunExclusive

variable {Key ι δ ε α : Type}

/-- A task over the tab's data, as a task over the tab. -/
def onData (t : Task ι δ ε α) : Task ι (Tab Key δ) ε α := t.zoom Tab.data Tab.setData

theorem seg_onData (t : Task ι δ ε α) (s : Tab Key δ) :
    (onData t).seg s = (s.setData (t.seg s.data).1, onData (t.seg s.data).2) :=
  Task.seg_zoom Tab.data Tab.setData (fun _ _ => rfl) (fun _ _ _ => rfl) (fun _ => rfl) t s

theorem run_onData (t : Task ι δ ε α) (s : Tab Key δ) :
    (onData t).run s = (s.setData (t.run s.data).1, (t.run s.data).2) :=
  Task.run_zoom Tab.data Tab.setData (fun _ _ => rfl) (fun _ _ _ => rfl) (fun _ => rfl) t s

variable [DecidableEq Key]

/-- What a call that has queued behind promise `n` does from there: `fn` in a `try`, whose `finally`
releases promise `n + 1`. -/
def section_ (k : Key) (n : Nat) (fn : Task ι δ ε α) : Task ι (Tab Key δ) ε α :=
  (onData fn).finish fun s => s.setMutex k ((s.getMutex k).release (n + 1))

/-- A call that waits for promise `n`. -/
def waiting (k : Key) (previous : ι) (n : Nat) (fn : Task ι δ ε α) : Task ι (Tab Key δ) ε α :=
  .await previous (fun s => (s.getMutex k).resolved n) (section_ k n fn)

/-- `runExclusive(fn)` on the mutex of `k`. The call suspends at `previous` for the promise before
its own, and at `result` for the outcome of `fn`. -/
def runExclusive (k : Key) (previous result : ι) (fn : Task ι δ ε α) : Task ι (Tab Key δ) ε α :=
  .sync (fun s => s.setMutex k (s.getMutex k).enqueue) fun s =>
    waiting k previous (s.getMutex k).tail (fn.awaited result)

theorem seg_section_done {k : Key} {n : Nat} {fn : Task ι δ ε α} {s : Tab Key δ} {d : δ}
    {r : Except ε α} (h : fn.seg s.data = (d, .done r)) :
    (section_ k n fn).seg s =
      ((s.setData d).setMutex k ((s.getMutex k).release (n + 1)), .done r) := by
  rw [section_, Task.seg_finish, seg_onData, h]
  rfl

theorem seg_section_await {k : Key} {n : Nat} {fn rest : Task ι δ ε α} {s : Tab Key δ} {d : δ}
    {p : ι} {ready : δ → Bool} (h : fn.seg s.data = (d, .await p ready rest)) :
    (section_ k n fn).seg s = (s.setData d, section_ k n (.await p ready rest)) := by
  rw [section_, Task.seg_finish, seg_onData, h]
  rfl

theorem seg_section_data (k : Key) (n : Nat) (fn : Task ι δ ε α) (s : Tab Key δ) :
    ((section_ k n fn).seg s).1.data = (fn.seg s.data).1 := by
  rcases Task.seg_cases fn s.data with ⟨d, r, h⟩ | ⟨d, p, ready, rest, h⟩
  · rw [seg_section_done h, h]
    rfl
  · rw [seg_section_await h, h]
    rfl

theorem runExclusive_map {β : Type} (k : Key) (previous result : ι) (f : α → β)
    (fn : Task ι δ ε α) :
    runExclusive k previous result (fn.map f) = (runExclusive k previous result fn).map f := by
  have hsection : ∀ n, section_ k n ((fn.map f).awaited result) =
      (section_ k n (fn.awaited result)).map f := by
    intro n
    rw [Task.awaited_map, section_, onData, Task.zoom_map, Task.finish_map]
    rfl
  exact congrArg (Task.sync _) (funext fun s => congrArg (Task.await previous _) (hsection _))

theorem run_section_data (k : Key) (n : Nat) (fn : Task ι δ ε α) (s : Tab Key δ) :
    ((section_ k n fn).run s).1.data = (fn.run s.data).1 ∧
      ((section_ k n fn).run s).2 = (fn.run s.data).2 := by
  simp [section_, run_onData]

/-- Alone, an exclusive call is its function run on the data, followed by the release. -/
theorem run_runExclusive_data (k : Key) (previous result : ι) (fn : Task ι δ ε α) (s : Tab Key δ) :
    ((runExclusive k previous result fn).run s).1.data = (fn.run s.data).1 ∧
      ((runExclusive k previous result fn).run s).2 = (fn.run s.data).2 := by
  simp [runExclusive, waiting, Task.run, run_section_data]

/-- Alone, an exclusive call leaves every mutex free. -/
theorem free_run_runExclusive {k : Key} {previous result : ι} {fn : Task ι δ ε α} {s : Tab Key δ}
    (hs : s.Free) : ((runExclusive k previous result fn).run s).1.Free := by
  intro k'
  by_cases hk : k' = k
  · subst hk
    simp [runExclusive, waiting, Task.run, section_, run_onData]
  · simpa [runExclusive, waiting, Task.run, section_, run_onData, Tab.getMutex_setMutex_ne, hk]
      using hs k'

/-- An exclusive call runs alone from where the mutex is free. -/
theorem runsAlone_runExclusive (k : Key) (previous result : ι) {fn : Task ι δ ε α} {s : Tab Key δ}
    (hfree : (s.getMutex k).resolved (s.getMutex k).tail = true) (hn : fn.NeverBlocks) :
    (runExclusive k previous result fn).RunsAlone s := by
  refine ⟨?_, Task.NeverBlocks.runsAlone ((hn.awaited.zoom _ _).finish _) _⟩
  simpa using hfree

/-- The data that are seen while an exclusive call runs alone: those that its function shows, and
before them the data that it finds. -/
theorem map_visited_runExclusive (k : Key) (previous result : ι) (fn : Task ι δ ε α)
    (s : Tab Key δ) :
    ((runExclusive k previous result fn).visited s).map Tab.data =
      s.data :: (fn.visited s.data ++ [(fn.run s.data).1]) := by
  have hsection : ∀ n (s : Tab Key δ),
      ((section_ k n (fn.awaited result)).visited s).map Tab.data =
        (fn.awaited result).visited s.data := by
    intro n s
    have hdata : ((onData (fn.awaited result) : Task ι (Tab Key δ) ε α).visited s).map Tab.data =
        (fn.awaited result).visited s.data := Task.map_visited_zoom (fun d s => Tab.setData_data s d) _ s
    rw [← hdata, section_]
    exact Task.map_visited_finish (fun s => s.setMutex_data k _) _ s
  rw [runExclusive, Task.visited, waiting, Task.visited, List.map_cons, hsection,
    Task.visited_awaited, Tab.setMutex_data]

theorem chain_runExclusive {U : δ → δ → Prop} (hrefl : ∀ d, U d d) (k : Key) (previous result : ι)
    {fn : Task ι δ ε α} {s : Tab Key δ} (h : (s.data :: fn.visited s.data).IsChain U) :
    (s.data :: ((runExclusive k previous result fn).visited s).map Tab.data).IsChain U := by
  obtain ⟨before, hend⟩ := fn.visited_eq_concat s.data
  rw [map_visited_runExclusive, hend]
  refine List.isChain_cons_cons.mpr ⟨hrefl _, ?_⟩
  rw [hend] at h
  rw [List.append_assoc, ← List.cons_append]
  exact List.isChain_split.mpr ⟨h, List.isChain_pair.mpr (hrefl _)⟩

end RunExclusive

end SovereignJedi.Manifest
