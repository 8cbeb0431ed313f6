import SovereignJedi.Async.Pool
import SovereignJedi.Js.Symbolic

/-! `getIpfsContext` of the IPFS client, which keeps one Helia context for the page. The module keeps
the promise of the context, not the context, and keeps it when it is rejected: calls share the
creation that is in progress and the context that it gives, and its failure as well. -/

namespace SovereignJedi.Ipfs

open SovereignJedi.Async SovereignJedi.Js

/-! ### The configuration -/

/-- The attributes `data-sj-config-json` and `data-sj-ipfs-bootstrap` of the document. -/
structure Html where
  configJson : Option String
  ipfsBootstrap : Option String

/-- Where a page is configured: `window.__SJ_CONFIG__`, and the document if there is one. -/
structure Runtime where
  config : Value
  document : Option Html

/-- `s.split(',').map((x) => x.trim()).filter(Boolean)`. -/
def parseCsv (s : String) : List String :=
  ((s.toList.splitOn ',').map fun x => trim (.ofList x)).filter fun x => x != ""

/-- `config?.ipfs?.bootstrapMultiaddrsCsv` where it is a string, else the empty string. -/
def bootstrapCsv (config : Value) : String :=
  match optProp (optProp config "ipfs") "bootstrapMultiaddrsCsv" with
  | some (.str s) => s
  | _ => ""

section Configuration

variable (P : Platform)

/-- What the attributes of the document say. -/
def Html.bootstrap (html : Html) : String :=
  let fromJson := match html.configJson with
    | none | some "" => ""
    | some attr => match P.jsonParse attr with
      | .ok parsed => bootstrapCsv (some parsed)
      | .error _ => ""
  if fromJson = "" then html.ipfsBootstrap.getD "" else fromJson

def getBootstrapMultiaddrsFromRuntimeOrThrow (runtime : Runtime) : Result (List String) := do
  let fromGlobal := bootstrapCsv runtime.config
  let raw := trim (match runtime.document with
    | some html => if fromGlobal = "" then html.bootstrap P else fromGlobal
    | none => fromGlobal)
  require (raw != "")
    "IPFS bootstrap not configured: set runtime config (window.__SJ_CONFIG__.ipfs.bootstrapMultiaddrsCsv or <html data-sj-ipfs-bootstrap=\"...\">) e.g. /ip4/127.0.0.1/tcp/15002/ws/p2p/<PEER_ID>"
  let list := parseCsv raw
  require (!list.isEmpty) "IPFS bootstrap not configured: runtime config is empty after parsing"
  return list

def normalizeBootstrapMultiaddrs (input : Json) : List String :=
  match input with
  | .arr xs => (xs.map fun x => trim (P.toJsString x)).filter fun x => x != ""
  | .str s => parseCsv s
  | _ => []

end Configuration

/-! ### The context -/

section Context

variable (Multiaddr Libp2p Helia UnixFS : Type)

/-- The packages that take an address apart and give a node its file system. -/
structure Packages where
  multiaddr : String → Result Multiaddr
  toString : Multiaddr → String
  unixfs : Helia → UnixFS

structure HeliaContext where
  helia : Helia
  fs : UnixFS
  libp2p : Libp2p

/-- What a call of `getIpfsContext` finds in `_ctxPromise`. -/
inductive Found where
  | nothing | pending | fulfilled | rejected
  deriving DecidableEq

/-- A call of `getIpfsContext`: `config?.bootstrapMultiaddrs`, what the page is configured with, what
the creation of nodes gives if this call comes to it, and what it finds. -/
structure ContextCall where
  bootstrapMultiaddrs : Value
  runtime : Runtime
  createLibp2p : List String → Result Libp2p
  createHelia : Libp2p → Result Helia
  found : Found

inductive CtxPromise where
  | pending
  | settled (r : Result (HeliaContext Libp2p Helia UnixFS))

/-- The module: `_ctxPromise`, and how often it has called `createLibp2p`. -/
structure Client where
  ctxPromise : Option (CtxPromise Libp2p Helia UnixFS)
  nodes : Nat

/-- Where a call is suspended. -/
inductive ContextPoint where
  | createLibp2p | createHelia | ctxPromise

end Context

section Calls

variable {Multiaddr Libp2p Helia UnixFS : Type}

def toMultiaddrsOrThrow (K : Packages Multiaddr Helia UnixFS) (addrs : List String) :
    Result (List Multiaddr) := do
  require (!addrs.isEmpty) "IPFS bootstrap multiaddrs missing"
  rethrow (addrs.mapM K.multiaddr) fun e => s!"Invalid bootstrap multiaddr: {e.message}"

def CtxPromise.found : CtxPromise Libp2p Helia UnixFS → Found
  | .pending => .pending
  | .settled (.ok _) => .fulfilled
  | .settled (.error _) => .rejected

def Client.found (s : Client Libp2p Helia UnixFS) : Found :=
  match s.ctxPromise with
  | none => .nothing
  | some promise => promise.found

def Client.settle (r : Result (HeliaContext Libp2p Helia UnixFS)) (s : Client Libp2p Helia UnixFS) :
    Client Libp2p Helia UnixFS := { s with ctxPromise := some (.settled r) }

/-- `return _ctxPromise`: the call goes on when the promise is settled, with its outcome. -/
def awaitContext :
    Task ContextPoint (Client Libp2p Helia UnixFS) JsError (HeliaContext Libp2p Helia UnixFS) :=
  .await .ctxPromise
    (fun s => match s.ctxPromise with
      | some (.settled _) => true
      | _ => false)
    (.sync id fun s => match s.ctxPromise with
      | some (.settled r) => .done r
      | _ => .done (.error (.typeError "")))

/-- The end of `createHeliaContext`, which settles its promise. -/
def settleContext (r : Result (HeliaContext Libp2p Helia UnixFS)) :
    Task ContextPoint (Client Libp2p Helia UnixFS) JsError (HeliaContext Libp2p Helia UnixFS) :=
  .sync (Client.settle r) fun _ => awaitContext

variable (P : Platform) (K : Packages Multiaddr Helia UnixFS)

def ContextCall.bootstrapAddrs (c : ContextCall Libp2p Helia) : Result (List Multiaddr) := do
  let bootstrapStrings ← match c.bootstrapMultiaddrs with
    | none | some .null => getBootstrapMultiaddrsFromRuntimeOrThrow P c.runtime
    | some input => .ok (normalizeBootstrapMultiaddrs P input)
  toMultiaddrsOrThrow K bootstrapStrings

/-- `createHeliaContext` after `createHelia`. -/
def heliaCreated (c : ContextCall Libp2p Helia) (libp2p : Libp2p) :
    Task ContextPoint (Client Libp2p Helia UnixFS) JsError (HeliaContext Libp2p Helia UnixFS) :=
  settleContext ((c.createHelia libp2p).map fun helia => ⟨helia, K.unixfs helia, libp2p⟩)

/-- `createHeliaContext` after `createLibp2p`. -/
def libp2pCreated (c : ContextCall Libp2p Helia) (addrs : List Multiaddr) :
    Task ContextPoint (Client Libp2p Helia UnixFS) JsError (HeliaContext Libp2p Helia UnixFS) :=
  match c.createLibp2p (addrs.map K.toString) with
  | .error e => settleContext (.error e)
  | .ok libp2p => .await .createHelia (fun _ => true) (heliaCreated K c libp2p)

/-- `_ctxPromise = createHeliaContext(config)`, up to the first `await`. -/
def createHeliaContext (c : ContextCall Libp2p Helia) :
    Task ContextPoint (Client Libp2p Helia UnixFS) JsError (HeliaContext Libp2p Helia UnixFS) :=
  match c.bootstrapAddrs P K with
  | .error e => settleContext (.error e)
  | .ok addrs =>
    .sync (fun s => { ctxPromise := some .pending, nodes := s.nodes + 1 }) fun _ =>
      .await .createLibp2p (fun _ => true) (libp2pCreated K c addrs)

def getIpfsContext (c : ContextCall Libp2p Helia) :
    Task ContextPoint (Client Libp2p Helia UnixFS) JsError (HeliaContext Libp2p Helia UnixFS) :=
  .sync id fun s => match s.ctxPromise with
    | some _ => awaitContext
    | none => createHeliaContext P K c

/-- What the creation of a context for this call gives. -/
def ContextCall.attempt (c : ContextCall Libp2p Helia) :
    Result (HeliaContext Libp2p Helia UnixFS) := do
  let addrs ← c.bootstrapAddrs P K
  let libp2p ← c.createLibp2p (addrs.map K.toString)
  let helia ← c.createHelia libp2p
  return ⟨helia, K.unixfs helia, libp2p⟩

/-- The calls of `getIpfsContext` since the page was loaded. -/
abbrev Calls (Libp2p Helia UnixFS : Type) :=
  Pool (ContextCall Libp2p Helia) ContextPoint (Client Libp2p Helia UnixFS) JsError
    (HeliaContext Libp2p Helia UnixFS)

def Calls.start : Calls Libp2p Helia UnixFS := Pool.init ⟨none, 0⟩

/-- The pools that can be reached, with calls made and resumed in any order. -/
def Reachable (p : Calls Libp2p Helia UnixFS) : Prop :=
  Pool.Run (getIpfsContext P K) (fun c s => c.found = s.found) (fun _ _ _ => True) Calls.start p

/-- `r` is the outcome of the creation that was attempted for call `i`: its own one if it found no
promise, and the one that was in progress if it found that. -/
inductive AttemptedFor (p : Calls Libp2p Helia UnixFS) (i : Nat) :
    Result (HeliaContext Libp2p Helia UnixFS) → Prop
  | own {c : ContextCall Libp2p Helia} (hi : p.calls[i]? = some c) (h : c.found = .nothing) :
      AttemptedFor p i (c.attempt P K)
  | shared {c d : ContextCall Libp2p Helia} {j : Nat} (hi : p.calls[i]? = some c)
      (h : c.found = .pending) (hj : p.calls[j]? = some d) (hlt : j < i) (hd : d.found = .nothing)
      (hlast : ∀ k e, j < k → k < i → p.calls[k]? = some e → e.found ≠ .nothing) :
      AttemptedFor p i (d.attempt P K)

/-- The calls can be made again after a failure: one fails only if the creation attempted for it
does, one that comes after a failure succeeds if its configuration and the nodes allow, and all get
the same context, of one node. Once a creation has succeeded a call has this context, or gets it in
its next turn, which it can take, and calls never wait for each other. -/
structure Retryable (p : Calls Libp2p Helia UnixFS) : Prop where
  fails : ∀ (i : Nat) c e, p.threads[i]? = some (c, .done (.error e)) → AttemptedFor P K p i (.error e)
  recovers : ∀ (i : Nat) c r ctx, p.threads[i]? = some (c, .done r) → c.found = .rejected →
    c.attempt P K = .ok ctx → ∃ ctx', r = .ok ctx'
  same : ∀ (i j : Nat) c d ctx ctx', p.threads[i]? = some (c, .done (.ok ctx)) →
    p.threads[j]? = some (d, .done (.ok ctx')) → ctx = ctx'
  oneNode : ∀ (i : Nat) c ctx, p.threads[i]? = some (c, .done (.ok ctx)) → p.state.nodes = 1
  returns : ∀ (ctx : HeliaContext Libp2p Helia UnixFS) (i : Nat) c t,
    p.state.ctxPromise = some (.settled (.ok ctx)) → p.threads[i]? = some (c, t) →
      t = .done (.ok ctx) ∨ ∃ point ready next, t = .await point ready next ∧
        ready p.state = true ∧ next.seg p.state = (p.state, .done (.ok ctx))
  progress : p.Settled ∨ p.Resumable

/-! ### The invariant -/

/-- Where call `i` stands. The first call is the one that creates a context. -/
inductive Stands (s : Client Libp2p Helia UnixFS) (i : Nat) (c : ContextCall Libp2p Helia) :
    Task ContextPoint (Client Libp2p Helia UnixFS) JsError (HeliaContext Libp2p Helia UnixFS) → Prop
  | waits (h : i = 0 → ∃ r, s.ctxPromise = some (.settled r)) : Stands s i c awaitContext
  | libp2p (hi : i = 0) (h : s.ctxPromise = some .pending) {addrs : List Multiaddr}
      (haddrs : c.bootstrapAddrs P K = .ok addrs) :
      Stands s i c (.await .createLibp2p (fun _ => true) (libp2pCreated K c addrs))
  | helia (hi : i = 0) (h : s.ctxPromise = some .pending) {addrs : List Multiaddr} {libp2p : Libp2p}
      (haddrs : c.bootstrapAddrs P K = .ok addrs)
      (hlibp2p : c.createLibp2p (addrs.map K.toString) = .ok libp2p) :
      Stands s i c (.await .createHelia (fun _ => true) (heliaCreated K c libp2p))
  | ended {r : Result (HeliaContext Libp2p Helia UnixFS)} (h : s.ctxPromise = some (.settled r)) :
      Stands s i c (.done r)

/-- Only the first call creates a context, and the promise is settled with what that gives. -/
structure Inv (p : Calls Libp2p Helia UnixFS) : Prop where
  empty : p.state.ctxPromise = none → p.threads = [] ∧ p.state.nodes = 0
  nonempty : p.state.ctxPromise ≠ none → p.calls ≠ []
  first : ∀ c, p.calls[0]? = some c → c.found = .nothing ∧ p.state.ctxPromise ≠ none ∧
    ∀ r, p.state.ctxPromise = some (.settled r) → r = c.attempt P K
  node : (p.state.ctxPromise = some .pending ∨
    ∃ ctx, p.state.ctxPromise = some (.settled (.ok ctx))) → p.state.nodes = 1
  later : ∀ (i : Nat) c, p.calls[i + 1]? = some c → c.found ≠ .nothing
  rejected : ∀ (i : Nat) c, p.calls[i]? = some c → c.found = .rejected →
    ∃ e, p.state.ctxPromise = some (.settled (.error e))
  fulfilled : ∀ (i : Nat) c, p.calls[i]? = some c → c.found = .fulfilled →
    ∃ ctx, p.state.ctxPromise = some (.settled (.ok ctx))
  thread : ∀ i c t, p.threads[i]? = some (c, t) → Stands P K p.state i c t

variable {P K} {p q : Calls Libp2p Helia UnixFS} {s : Client Libp2p Helia UnixFS}
  {c : ContextCall Libp2p Helia}

theorem seg_getIpfsContext_found {promise : CtxPromise Libp2p Helia UnixFS}
    (h : s.ctxPromise = some promise) : (getIpfsContext P K c).seg s = (s, awaitContext) := by
  simp only [getIpfsContext, Task.seg, h]
  rfl

theorem seg_getIpfsContext_error {e : JsError} (h : s.ctxPromise = none)
    (haddrs : c.bootstrapAddrs P K = .error e) :
    (getIpfsContext P K c).seg s = (s.settle (.error e), awaitContext) := by
  simp only [getIpfsContext, Task.seg, h, createHeliaContext, haddrs]
  rfl

theorem seg_getIpfsContext_ok {addrs : List Multiaddr} (h : s.ctxPromise = none)
    (haddrs : c.bootstrapAddrs P K = .ok addrs) :
    (getIpfsContext P K c).seg s = (⟨some .pending, s.nodes + 1⟩,
      .await .createLibp2p (fun _ => true) (libp2pCreated K c addrs)) := by
  simp only [getIpfsContext, Task.seg, h, createHeliaContext, haddrs]
  rfl

theorem attempt_of_addrs {e : JsError} (h : c.bootstrapAddrs P K = .error e) :
    c.attempt P K = .error e := by
  rw [ContextCall.attempt, h, error_bind]

theorem attempt_of_libp2p {addrs : List Multiaddr} {e : JsError}
    (h : c.bootstrapAddrs P K = .ok addrs)
    (hlibp2p : c.createLibp2p (addrs.map K.toString) = .error e) : c.attempt P K = .error e := by
  rw [ContextCall.attempt, h, ok_bind, hlibp2p, error_bind]

theorem attempt_of_helia {addrs : List Multiaddr} {libp2p : Libp2p}
    (h : c.bootstrapAddrs P K = .ok addrs)
    (hlibp2p : c.createLibp2p (addrs.map K.toString) = .ok libp2p) :
    (c.createHelia libp2p).map (fun helia => ⟨helia, K.unixfs helia, libp2p⟩) =
      c.attempt P K := by
  rw [ContextCall.attempt, h, ok_bind, hlibp2p, ok_bind]
  cases c.createHelia libp2p <;> rfl

theorem Inv.start : Inv P K (Calls.start : Calls Libp2p Helia UnixFS) where
  empty _ := ⟨rfl, rfl⟩
  nonempty h := absurd rfl h
  first c h := by simp [Calls.start] at h
  node h := by rcases h with h | ⟨ctx, h⟩ <;> cases h
  later i c h := by simp [Calls.start] at h
  rejected i c h := by simp [Calls.start] at h
  fulfilled i c h := by simp [Calls.start] at h
  thread i c t h := by simp [Calls.start, Pool.init] at h

theorem getElem?_calls_call {body : ContextCall Libp2p Helia → Task ContextPoint
    (Client Libp2p Helia UnixFS) JsError (HeliaContext Libp2p Helia UnixFS)} {i : Nat}
    {d : ContextCall Libp2p Helia} (h : (p.call body c).calls[i]? = some d) :
    p.calls[i]? = some d ∨ i = p.calls.length ∧ d = c := by
  rw [Pool.calls_call] at h
  rcases Nat.lt_or_ge i p.calls.length with hi | hi
  · rw [List.getElem?_append_left hi] at h
    exact .inl h
  · rw [List.getElem?_append_right hi] at h
    obtain ⟨hlast, rfl⟩ : i - p.calls.length = 0 ∧ c = d := by
      simpa [List.getElem?_singleton] using h
    exact .inr ⟨by omega, rfl⟩

/-- A call that finds a promise changes nothing. -/
theorem Inv.call_found (hI : Inv P K p) {promise : CtxPromise Libp2p Helia UnixFS}
    (h : p.state.ctxPromise = some promise) (hmade : c.found = p.state.found) :
    Inv P K (p.call (getIpfsContext P K) c) := by
  have hseg := seg_getIpfsContext_found (P := P) (K := K) (c := c) h
  have hstate : (p.call (getIpfsContext P K) c).state = p.state := by rw [Pool.call, hseg]
  have hfound : c.found = promise.found := by rw [hmade, Client.found, h]
  have hsome : p.state.ctxPromise ≠ none := by rw [h]; exact Option.some_ne_none _
  have hpos : 0 < p.calls.length := List.length_pos_iff.mpr (hI.nonempty hsome)
  have hlength : p.calls.length = p.threads.length := List.length_map ..
  refine ⟨?_, ?_, fun d hd => ?_, ?_, fun i d hd => ?_, fun i d hd hr => ?_, fun i d hd hf => ?_,
    fun i d t hd => ?_⟩
  · rw [hstate]
    exact fun hnone => absurd hnone hsome
  · rw [Pool.calls_call]
    exact fun _ => List.append_ne_nil_of_right_ne_nil _ (List.cons_ne_nil _ _)
  · rw [hstate]
    rcases getElem?_calls_call hd with hd | ⟨hlen, -⟩
    · exact hI.first d hd
    · omega
  · rw [hstate]
    exact hI.node
  · rcases getElem?_calls_call hd with hd | ⟨-, rfl⟩
    · exact hI.later i d hd
    · rw [hfound]
      rcases promise with _ | (_ | _) <;> simp [CtxPromise.found]
  · rw [hstate]
    rcases getElem?_calls_call hd with hd | ⟨-, rfl⟩
    · exact hI.rejected i d hd hr
    · rw [hfound] at hr
      rcases promise with _ | (e | _)
      · cases hr
      · exact ⟨e, h⟩
      · cases hr
  · rw [hstate]
    rcases getElem?_calls_call hd with hd | ⟨-, rfl⟩
    · exact hI.fulfilled i d hd hf
    · rw [hfound] at hf
      rcases promise with _ | (_ | ctx)
      · cases hf
      · cases hf
      · exact ⟨ctx, h⟩
  · rw [hstate]
    rcases Pool.getElem?_call hd with hd | ⟨rfl, rfl, rfl⟩
    · exact hI.thread i d t hd
    · rw [hseg]
      exact .waits fun hzero => absurd hzero (by omega)

/-- The first call, which leaves `s` and stands at `t`. -/
theorem Inv.call_first_of (hI : Inv P K p) (h : p.state.ctxPromise = none)
    (hmade : c.found = p.state.found)
    {t : Task ContextPoint (Client Libp2p Helia UnixFS) JsError (HeliaContext Libp2p Helia UnixFS)}
    (hseg : (getIpfsContext P K c).seg p.state = (s, t)) (hsome : s.ctxPromise ≠ none)
    (hsettled : ∀ r, s.ctxPromise = some (.settled r) → r = c.attempt P K)
    (hnode : (s.ctxPromise = some .pending ∨ ∃ ctx, s.ctxPromise = some (.settled (.ok ctx))) →
      s.nodes = 1)
    (hstands : Stands P K s 0 c t) : Inv P K (p.call (getIpfsContext P K) c) := by
  have hfound : c.found = .nothing := by rw [hmade, Client.found, h]
  have hthreads := (hI.empty h).1
  have hstate : (p.call (getIpfsContext P K) c).state = s := by rw [Pool.call, hseg]
  have hcalls : (p.call (getIpfsContext P K) c).calls = [c] := by
    rw [Pool.calls_call, Pool.calls, hthreads]
    rfl
  have hone : ∀ {i : Nat} {d : ContextCall Libp2p Helia},
      (p.call (getIpfsContext P K) c).calls[i]? = some d → i = 0 ∧ d = c := by
    intro i d hd
    rw [hcalls, List.getElem?_singleton] at hd
    split at hd
    · next hi => exact ⟨hi, (Option.some.inj hd).symm⟩
    · cases hd
  have hothers : ∀ {i : Nat} {d : ContextCall Libp2p Helia} {f : Found}, f ≠ .nothing →
      (p.call (getIpfsContext P K) c).calls[i]? = some d → d.found = f → False := by
    intro i d f hf hd hdf
    obtain ⟨-, rfl⟩ := hone hd
    exact hf (hdf.symm.trans hfound)
  refine ⟨?_, ?_, fun d hd => ?_, ?_, fun i d hd => absurd (hone hd).1 (by omega),
    fun i d hd hr => (hothers (by simp) hd hr).elim, fun i d hd hf => (hothers (by simp) hd hf).elim,
    fun i d t' hd => ?_⟩
  · rw [hstate]
    exact fun hnone => absurd hnone hsome
  · rw [hcalls]
    exact fun _ => List.cons_ne_nil _ _
  · obtain ⟨-, rfl⟩ := hone hd
    rw [hstate]
    exact ⟨hfound, hsome, hsettled⟩
  · rw [hstate]
    exact hnode
  · rw [hstate]
    rcases Pool.getElem?_call hd with hd | ⟨rfl, rfl, rfl⟩
    · rw [hthreads] at hd
      cases hd
    · rw [hthreads, hseg]
      exact hstands

/-- The first call settles the promise at once, or creates a node. -/
theorem Inv.call_first (hI : Inv P K p) (h : p.state.ctxPromise = none)
    (hmade : c.found = p.state.found) : Inv P K (p.call (getIpfsContext P K) c) := by
  cases haddrs : c.bootstrapAddrs P K with
  | error e =>
    refine hI.call_first_of h hmade (seg_getIpfsContext_error h haddrs) (Option.some_ne_none _)
      (fun r hr => ?_) ?_ (.waits fun _ => ⟨_, rfl⟩)
    · cases hr
      exact (attempt_of_addrs haddrs).symm
    · rintro (hpending | ⟨ctx, hok⟩)
      · cases hpending
      · cases hok
  | ok addrs =>
    refine hI.call_first_of h hmade (seg_getIpfsContext_ok h haddrs) (Option.some_ne_none _)
      (fun r hr => ?_) (fun _ => ?_) (.libp2p rfl rfl haddrs)
    · cases hr
    · rw [(hI.empty h).2]

section Resume

variable {i : Nat} {t₀ next t' : Task ContextPoint (Client Libp2p Helia UnixFS) JsError
  (HeliaContext Libp2p Helia UnixFS)}

/-- A turn that leaves the module as it is. -/
theorem Inv.resume_same (hI : Inv P K p) (hi : p.threads[i]? = some (c, t₀))
    (hseg : next.seg p.state = (p.state, t')) (ht' : Stands P K p.state i c t') :
    Inv P K (p.resume i c next) := by
  have hcalls : (p.resume i c next).calls = p.calls := Pool.calls_resume hi
  have hstate : (p.resume i c next).state = p.state := by rw [Pool.resume, hseg]
  have hsome : p.state.ctxPromise ≠ none := by
    intro hnone
    rw [(hI.empty hnone).1] at hi
    cases hi
  refine ⟨?_, ?_, ?_, ?_, ?_, ?_, ?_, fun j d t hd => ?_⟩
  · rw [hstate]
    exact fun hnone => absurd hnone hsome
  · rw [hcalls]
    exact fun _ => hI.nonempty hsome
  · rw [hcalls, hstate]
    exact hI.first
  · rw [hstate]
    exact hI.node
  · rw [hcalls]
    exact hI.later
  · rw [hcalls, hstate]
    exact hI.rejected
  · rw [hcalls, hstate]
    exact hI.fulfilled
  · rw [hstate]
    rcases Pool.getElem?_resume hi hd with ⟨-, hd⟩ | ⟨rfl, rfl, rfl⟩
    · exact hI.thread j d t hd
    · rw [hseg]
      exact ht'

/-- The turn in which the first call settles the promise. -/
theorem Inv.resume_settle (hI : Inv P K p) (hi : p.threads[0]? = some (c, t₀))
    (h : p.state.ctxPromise = some .pending) {r : Result (HeliaContext Libp2p Helia UnixFS)}
    (hr : r = c.attempt P K) (hseg : next.seg p.state = (p.state.settle r, awaitContext)) :
    Inv P K (p.resume 0 c next) := by
  have hcalls : (p.resume 0 c next).calls = p.calls := Pool.calls_resume hi
  have hstate : (p.resume 0 c next).state = p.state.settle r := by rw [Pool.resume, hseg]
  have hsettled : (p.state.settle r).ctxPromise = some (.settled r) := rfl
  have hfirst := Pool.calls_getElem? hi
  refine ⟨?_, ?_, fun d hd => ?_, fun _ => ?_, ?_, fun j d hd hrej => ?_, fun j d hd hful => ?_,
    fun j d t hd => ?_⟩
  · rw [hstate, hsettled]
    intro hnone
    cases hnone
  · rw [hcalls]
    exact fun _ hnil => by simp [hnil] at hfirst
  · rw [hcalls] at hd
    obtain rfl := Option.some.inj (hfirst.symm.trans hd)
    rw [hstate, hsettled]
    refine ⟨(hI.first c hfirst).1, Option.some_ne_none _, fun r' hr' => ?_⟩
    cases hr'
    exact hr
  · rw [hstate]
    exact hI.node (.inl h)
  · rw [hcalls]
    exact hI.later
  · obtain ⟨e, he⟩ := hI.rejected j d (hcalls ▸ hd) hrej
    rw [h] at he
    cases he
  · obtain ⟨ctx, hctx⟩ := hI.fulfilled j d (hcalls ▸ hd) hful
    rw [h] at hctx
    cases hctx
  · rw [hstate]
    rcases Pool.getElem?_resume hi hd with ⟨hj, hd⟩ | ⟨rfl, rfl, rfl⟩
    · cases hI.thread j d t hd with
      | waits hw => exact .waits fun _ => ⟨r, hsettled⟩
      | libp2p hj' _ _ => exact absurd hj' hj
      | helia hj' _ _ _ => exact absurd hj' hj
      | ended hended =>
        rw [h] at hended
        cases hended
    · rw [hseg]
      exact .waits fun _ => ⟨r, hsettled⟩

end Resume

theorem Inv.resume (hI : Inv P K p) {i : Nat} {point : ContextPoint}
    {ready : Client Libp2p Helia UnixFS → Bool} {next : Task ContextPoint
      (Client Libp2p Helia UnixFS) JsError (HeliaContext Libp2p Helia UnixFS)}
    (hi : p.threads[i]? = some (c, .await point ready next)) (hready : ready p.state = true) :
    Inv P K (p.resume i c next) := by
  have hstands := hI.thread i c _ hi
  generalize ht : Task.await point ready next = t at hstands
  cases hstands with
  | waits hw =>
    obtain ⟨rfl, rfl, rfl⟩ := Task.await.inj ht
    obtain ⟨r, hr⟩ : ∃ r, p.state.ctxPromise = some (.settled r) := by
      rcases hpromise : p.state.ctxPromise with _ | (_ | r)
      · simp [hpromise] at hready
      · simp [hpromise] at hready
      · exact ⟨r, rfl⟩
    refine hI.resume_same hi ?_ (.ended hr)
    simp only [Task.seg, id_eq, hr]
  | libp2p hzero hpending haddrs =>
    obtain ⟨rfl, rfl, rfl⟩ := Task.await.inj ht
    subst hzero
    rename_i addrs
    cases hlibp2p : c.createLibp2p (addrs.map K.toString) with
    | error e =>
      refine hI.resume_settle hi hpending (attempt_of_libp2p haddrs hlibp2p).symm ?_
      rw [libp2pCreated, hlibp2p]
      rfl
    | ok libp2p =>
      refine hI.resume_same hi ?_ (.helia rfl hpending haddrs hlibp2p)
      rw [libp2pCreated, hlibp2p]
      rfl
  | helia hzero hpending haddrs hlibp2p =>
    obtain ⟨rfl, rfl, rfl⟩ := Task.await.inj ht
    subst hzero
    exact hI.resume_settle hi hpending (attempt_of_helia haddrs hlibp2p) rfl
  | ended h => cases ht

theorem Reachable.inv (h : Reachable P K p) : Inv P K p := by
  refine Pool.Run.invariant (Inv P K) (fun p q hp hstep => ?_) h Inv.start
  cases hstep with
  | call c hc =>
    cases hpromise : p.state.ctxPromise with
    | none => exact hp.call_first hpromise hc
    | some promise => exact hp.call_found hpromise hc
  | resume i c point ready next hi hready => exact hp.resume hi hready

/-! ### Retrying -/

/-- Every call ends with the outcome of the first creation. -/
theorem Inv.outcome (hI : Inv P K p) {i : Nat} {r : Result (HeliaContext Libp2p Helia UnixFS)}
    (hi : p.threads[i]? = some (c, .done r)) :
    p.state.ctxPromise = some (.settled r) ∧
      ∃ d, p.calls[0]? = some d ∧ d.found = .nothing ∧ r = d.attempt P K := by
  have hstands := hI.thread i c _ hi
  generalize ht : (Task.done r : Task ContextPoint (Client Libp2p Helia UnixFS) JsError
    (HeliaContext Libp2p Helia UnixFS)) = t at hstands
  cases hstands with
  | waits hw => cases ht
  | libp2p hzero hpending haddrs => cases ht
  | helia hzero hpending haddrs hlibp2p => cases ht
  | ended h =>
    cases ht
    have hpos := List.length_pos_iff.mpr (hI.nonempty (by rw [h]; exact Option.some_ne_none _))
    have hd : p.calls[0]? = some p.calls[0] := List.getElem?_eq_getElem hpos
    obtain ⟨hfound, -, hsettled⟩ := hI.first _ hd
    exact ⟨h, _, hd, hfound, hsettled r h⟩

/-- A creation is attempted for each call that does not find a rejected promise, or there was one
that succeeded. -/
theorem Inv.attemptedFor (hI : Inv P K p) {i : Nat} {e : JsError}
    (hi : p.threads[i]? = some (c, .done (.error e))) (hc : c.found ≠ .rejected) :
    AttemptedFor P K p i (.error e) := by
  obtain ⟨hsettled, d, hd, hfound, hattempt⟩ := hI.outcome hi
  have hcall := Pool.calls_getElem? hi
  rw [hattempt]
  cases hcase : c.found with
  | nothing =>
    have hzero : i = 0 := by
      rcases i with _ | i
      · rfl
      · exact absurd hcase (hI.later i c hcall)
    subst hzero
    obtain rfl := Option.some.inj (hd.symm.trans hcall)
    exact .own hcall hcase
  | pending =>
    have hpos : 0 < i := by
      rcases i with _ | i
      · obtain rfl := Option.some.inj (hd.symm.trans hcall)
        rw [hfound] at hcase
        cases hcase
      · exact Nat.succ_pos i
    refine .shared hcall hcase hd hpos hfound fun k f hk _ hf => ?_
    obtain ⟨k, rfl⟩ : ∃ m, k = m + 1 := ⟨k - 1, by omega⟩
    exact hI.later k f hf
  | fulfilled =>
    obtain ⟨ctx, hctx⟩ := hI.fulfilled i c hcall hcase
    rw [hsettled] at hctx
    cases hctx
  | rejected => exact absurd hcase hc

/-- Once the promise is settled every call has its outcome, or gets it in its next turn. -/
theorem Inv.returns (hI : Inv P K p) {r : Result (HeliaContext Libp2p Helia UnixFS)}
    (h : p.state.ctxPromise = some (.settled r)) {i : Nat}
    {t : Task ContextPoint (Client Libp2p Helia UnixFS) JsError (HeliaContext Libp2p Helia UnixFS)}
    (hi : p.threads[i]? = some (c, t)) :
    t = .done r ∨ ∃ point ready next, t = .await point ready next ∧ ready p.state = true ∧
      next.seg p.state = (p.state, .done r) := by
  cases hI.thread i c t hi with
  | waits hw =>
    refine .inr ⟨_, _, _, rfl, ?_, ?_⟩
    · simp only [h]
    · simp only [Task.seg, id_eq, h]
  | libp2p _ hpending _ =>
    rw [h] at hpending
    cases hpending
  | helia _ hpending _ _ =>
    rw [h] at hpending
    cases hpending
  | ended hended =>
    rw [h] at hended
    cases hended
    exact .inl rfl

/-- No calls wait for each other: some suspended call can go on until all have settled. -/
theorem Reachable.progress (h : Reachable P K p) : p.Settled ∨ p.Resumable := by
  have hI := h.inv
  rcases hpromise : p.state.ctxPromise with _ | (_ | r)
  · left
    intro c t hc
    rw [(hI.empty hpromise).1] at hc
    cases hc
  · right
    have hpos := List.length_pos_iff.mpr (hI.nonempty (by rw [hpromise]; exact Option.some_ne_none _))
    obtain ⟨t, ht⟩ := Pool.exists_thread (List.getElem?_eq_getElem hpos)
    cases hI.thread 0 _ t ht with
    | waits hw =>
      obtain ⟨r, hr⟩ := hw rfl
      rw [hpromise] at hr
      cases hr
    | libp2p _ _ _ => exact ⟨0, _, _, _, _, ht, rfl⟩
    | helia _ _ _ _ => exact ⟨0, _, _, _, _, ht, rfl⟩
    | ended hended =>
      rw [hpromise] at hended
      cases hended
  · by_cases hall : p.Settled
    · exact .inl hall
    · right
      simp only [Pool.Settled, not_forall] at hall
      obtain ⟨c, t, hc, hnot⟩ := hall
      obtain ⟨i, hi⟩ := List.getElem?_of_mem hc
      rcases hI.returns hpromise hi with rfl | ⟨point, ready, next, rfl, hready, -⟩
      · exact absurd ⟨r, rfl⟩ hnot
      · exact ⟨i, c, point, ready, next, hi, hready⟩

theorem AttemptedFor.found {i : Nat} {r : Result (HeliaContext Libp2p Helia UnixFS)}
    (h : AttemptedFor P K p i r) (hi : p.calls[i]? = some c) : c.found ≠ .rejected := by
  cases h with
  | own hi' hfound =>
    obtain rfl := Option.some.inj (hi.symm.trans hi')
    simp [hfound]
  | shared hi' hfound =>
    obtain rfl := Option.some.inj (hi.symm.trans hi')
    simp [hfound]

/-- In every run, the calls can be made again after a failure exactly if none that has ended was
made after a creation had failed. All calls that succeed get one context, of one node, whatever
happens. -/
theorem retryable_iff (h : Reachable P K p) :
    Retryable P K p ↔
      ∀ (i : Nat) c r, p.threads[i]? = some (c, .done r) → c.found ≠ .rejected := by
  have hI := h.inv
  constructor
  · intro hretry i c r hi hrejected
    have hcall := Pool.calls_getElem? hi
    obtain ⟨e, he⟩ := hI.rejected i c hcall hrejected
    obtain ⟨hsettled, -⟩ := hI.outcome hi
    rw [he] at hsettled
    cases hsettled
    exact (hretry.fails i c e hi).found hcall hrejected
  · intro hnone
    refine ⟨fun i c e hi => hI.attemptedFor hi (hnone i c _ hi), fun i c r ctx hi hc => ?_,
      fun i j c d ctx ctx' hi hj => ?_, fun i c ctx hi => ?_,
      fun ctx i c t hctx hi => hI.returns hctx hi, h.progress⟩
    · exact absurd hc (hnone i c r hi)
    · have hctx := (hI.outcome hi).1
      rw [(hI.outcome hj).1] at hctx
      cases hctx
      rfl
    · exact hI.node (.inr ⟨ctx, (hI.outcome hi).1⟩)

end Calls

/-! ### Two calls on a page that is not configured -/

section Sample

def samplePackages : Packages String Unit Unit := ⟨.ok, id, fun _ => ()⟩

/-- A call with this `bootstrapMultiaddrs`, on a page that is not configured. -/
def sampleCall (bootstrapMultiaddrs : Value) (found : Found) : ContextCall Unit Unit :=
  ⟨bootstrapMultiaddrs, ⟨none, some ⟨none, none⟩⟩, fun _ => .ok (), fun _ => .ok (), found⟩

def sampleAddr : Value := some (.str "/ip4/127.0.0.1/tcp/15002/ws")

def sampleContext : HeliaContext Unit Unit Unit := ⟨(), (), ()⟩

/-- A call fails because nothing says which nodes to use. The next call says it and fails as well,
where a creation for it would succeed. -/
theorem kept_rejection : ∃ p : Calls Unit Unit Unit, Reachable symbolic samplePackages p ∧
    (∃ e, p.threads[1]? = some (sampleCall sampleAddr .rejected, .done (.error e))) ∧
    (sampleCall sampleAddr .rejected).attempt symbolic samplePackages = .ok sampleContext ∧
    ¬ Retryable symbolic samplePackages p := by
  have hrun : Reachable symbolic samplePackages _ :=
    ((((Relation.ReflTransGen.refl.tail
      (.call (sampleCall none .nothing) rfl)).tail
      (.resume 0 _ _ _ _ rfl rfl trivial)).tail
      (.call (sampleCall sampleAddr .rejected) rfl)).tail
      (.resume 1 _ _ _ _ rfl rfl trivial))
  refine ⟨_, hrun, ⟨_, rfl⟩, rfl, fun hretry => ?_⟩
  obtain ⟨ctx, hctx⟩ := hretry.recovers 1 _ _ sampleContext rfl rfl rfl
  cases hctx

/-- The first call creates the context, and the second shares it. -/
theorem retryable_iff_sample : ∃ p : Calls Unit Unit Unit, Reachable symbolic samplePackages p ∧
    (∀ i, i < 2 → ∃ c, p.threads[i]? = some (c, .done (.ok sampleContext))) ∧
    Retryable symbolic samplePackages p := by
  have hrun : Reachable symbolic samplePackages _ :=
    (((((Relation.ReflTransGen.refl.tail
      (.call (sampleCall sampleAddr .nothing) rfl)).tail
      (.call (sampleCall none .pending) rfl)).tail
      (.resume 0 _ _ _ _ rfl rfl trivial)).tail
      (.resume 0 _ _ _ _ rfl rfl trivial)).tail
      (.resume 0 _ _ _ _ rfl rfl trivial)).tail
      (.resume 1 _ _ _ _ rfl rfl trivial)
  refine ⟨_, hrun, fun i hi => ?_, (retryable_iff hrun).mpr fun i c r hi => ?_⟩
  · rcases i with _ | _ | i
    · exact ⟨_, rfl⟩
    · exact ⟨_, rfl⟩
    · omega
  · rcases i with _ | _ | i
    · cases hi
      decide
    · cases hi
      decide
    · cases hi

end Sample

end SovereignJedi.Ipfs
