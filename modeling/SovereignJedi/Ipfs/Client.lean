import SovereignJedi.Crypto.Hkdf
import SovereignJedi.Files.Package
import SovereignJedi.Ipfs.Context
import SovereignJedi.Js.Uri
import SovereignJedi.Registry.Retry

/-! The IPFS client. It talks to a Kubo node over HTTP where one is configured, and else to a Helia
node in the browser. Either way it is a content-addressed store as long as the nodes behave as they
are documented to: what it returns is the CID of the bytes that it was given, or the bytes of the
CID, whole. -/

namespace SovereignJedi.Ipfs

open SovereignJedi.Js SovereignJedi.Crypto
open SovereignJedi.Files (coalesce)

/-! ### Configuration -/

/-- The attributes `data-sj-config-json` and `data-sj-ipfs-kubo` of the document. -/
structure KuboHtml where
  configJson : Option String
  ipfsKubo : Option String

/-- Where the Kubo API is configured: `window.__SJ_CONFIG__`, the document if there is one, and
`NEXT_PUBLIC_IPFS_KUBO_API`. -/
structure KuboRuntime where
  config : Value
  document : Option KuboHtml
  env : Option String

/-- `config?.ipfs?.kuboApiBaseUrl` where it is a string. -/
def kuboApiBaseUrl (config : Value) : Option String :=
  match optProp (optProp config "ipfs") "kuboApiBaseUrl" with
  | some (.str s) => some s
  | _ => none

section Configuration

variable (P : Platform)

def KuboHtml.kuboApi (html : KuboHtml) : Option String :=
  let fromJson := match html.configJson with
    | none | some "" => none
    | some attr => match P.jsonParse attr with
      | .ok parsed => kuboApiBaseUrl (some parsed)
      | .error _ => none
  fromJson.or html.ipfsKubo

def getKuboApiUrl (runtime : KuboRuntime) : String :=
  let raw := ((kuboApiBaseUrl runtime.config).or
    (runtime.document.bind fun html => html.kuboApi P)).getD
      (runtime.env.getD "http://127.0.0.1:5001")
  .ofList ((trim raw).toList.rdropWhile (· = '/'))

end Configuration

/-! ### Kubo -/

/-- A part of a form. -/
structure Part where
  name : String
  filename : String
  type : String
  bytes : Bytes

structure Request where
  method : String
  url : String
  body : List Part

/-- A response, with what reading its body gives. -/
structure Response where
  status : Nat
  text : Result String
  arrayBuffer : Result Bytes

def Response.ok (res : Response) : Bool := decide (200 ≤ res.status ∧ res.status < 300)

structure AddBytesResult where
  cid : String
  size : Nat

/-- `text.trim().split('\n').filter(Boolean)`, the last of them or the empty string. -/
def lastLine (text : String) : String :=
  .ofList ((((trim text).toList.splitOn '\n').filter fun l => !l.isEmpty).getLastD [])

/-- `parsed?.Hash ?? parsed?.Cid?.['/'] ?? parsed?.cid`. -/
def addedCid (parsed : Json) : Value :=
  coalesce (optProp (some parsed) "Hash") (coalesce (optProp (optProp (some parsed) "Cid") "/")
    (optProp (some parsed) "cid"))

section Kubo

variable (P : Platform) (baseUrl : String) (fetch : Request → Result Response)

def addRequest (bytes : Bytes) : Request where
  method := "POST"
  url := baseUrl ++ "/api/v0/add?pin=false&cid-version=1"
  body := [⟨"file", "payload.bin", "application/octet-stream", bytes⟩]

def catRequest (cid : String) : Request where
  method := "POST"
  url := baseUrl ++ "/api/v0/cat?arg=" ++ encodeURIComponent cid
  body := []

def addBytesViaKubo (bytes : Bytes) : Result AddBytesResult := do
  let res ← fetch (addRequest baseUrl bytes)
  let text ← res.text
  require res.ok s!"Kubo add failed ({res.status}): {text}"
  let parsed ← rethrow (P.jsonParse (lastLine text)) fun _ =>
    s!"Kubo add response parse error: {text}"
  let cid := addedCid parsed
  require (truthy cid) s!"Kubo add response missing CID: {text}"
  return { cid := P.toJsString (cid.getD .null), size := bytes.length }

def catBytesViaKubo (cid : String) : Result Bytes := do
  let res ← fetch (catRequest baseUrl cid)
  let text := res.text.toOption.getD ""
  require res.ok s!"Kubo cat failed ({res.status}): {text}"
  let bytes ← res.arrayBuffer
  require (bytes.length != 0) "Kubo cat returned empty response"
  return bytes

end Kubo

/-! ### Helia -/

/-- A chunk of the iterator, and whether the time is over when it comes. -/
structure Chunk where
  bytes : Bytes
  aborted : Bool

/-- A file system: what is added, or `none` where that takes too long, and the chunks of a CID with
how their iterator ends. -/
structure FileSystem (Cid : Type) where
  addBytes : Bytes → Option (Result Cid)
  cat : Cid → List Chunk × Result Unit

/-- What a call of the client has to do with: the answers over HTTP, the context that it gets, and
the package for CIDs. -/
structure Nodes (Cid : Type) where
  fetch : Request → Result Response
  getIpfsContext : Result (FileSystem Cid)
  parse : String → Result Cid
  toString : Cid → String

def withTimeout {α : Type} (outcome : Option (Result α)) (ms : Nat) (label : String) : Result α :=
  match outcome with
  | some r => r
  | none => .error (.error s!"{label} timed out after {ms}ms")

/-- `for await (const chunk of iter)`, with the chunks so far and their total length. -/
def readChunks (timeoutMs : String) :
    List Chunk × Result Unit → (chunks : List Bytes) → (total : Nat) → Result (List Bytes × Nat)
  | ([], ending), chunks, total => ending.map fun _ => (chunks, total)
  | (chunk :: rest, ending), chunks, total =>
    if chunk.aborted then .error (.error s!"IPFS catBytes timed out after {timeoutMs}ms")
    else readChunks timeoutMs (rest, ending) (chunks ++ [chunk.bytes]) (total + chunk.bytes.length)

/-! ### The client -/

section Client

variable (P : Platform) {Cid : Type} (nodes : Nodes Cid) (runtime : KuboRuntime)

/-- `typeof max === 'number' && max > 0 && bytes.byteLength > max`. -/
def tooLarge (config : Value) (size : Nat) : Bool :=
  match optProp config "maxBytes" with
  | some (.num max) => decide (0 < max ∧ max < size)
  | _ => false

def addBytes (bytes : Bytes) (config : Value) : Result AddBytesResult := do
  let max := P.toJsString ((optProp config "maxBytes").getD .null)
  require (!tooLarge config bytes.length)
    s!"addBytes: object too large ({bytes.length} bytes > {max} bytes)"
  let kuboApi := getKuboApiUrl P runtime
  if kuboApi ≠ "" then addBytesViaKubo P kuboApi nodes.fetch bytes
  else
    let fs ← nodes.getIpfsContext
    let cid ← withTimeout (fs.addBytes bytes) 30000 "IPFS addBytes"
    return { cid := nodes.toString cid, size := bytes.length }

def catBytes (cid : String) (config : Value) : Result Bytes := do
  require (!isBlank cid) "catBytes: cid must be a non-empty string"
  let kuboApi := getKuboApiUrl P runtime
  if kuboApi ≠ "" then catBytesViaKubo kuboApi nodes.fetch (trim cid)
  else
    let fs ← nodes.getIpfsContext
    let parsed ← rethrow (nodes.parse (trim cid)) fun e => s!"catBytes: invalid CID: {e.message}"
    let timeoutMs := P.toJsString (orElse (optProp config "timeoutMs") (.num 30000))
    let (chunks, total) ← readChunks timeoutMs (fs.cat parsed) [] 0
    require (total != 0) "catBytes: empty response"
    Hkdf.concatParts (newUint8Array total) 0 chunks

/-- The CID of the whole package, as its JSON is uploaded. -/
def addEncryptedPackage (pkg : Json) (config : Value) : Result String := do
  let bytes ← Files.addEncryptedPackage P pkg
  let res ← addBytes P nodes runtime bytes config
  return res.cid

end Client

/-- `getManifestFromIpfs`, which calls `catBytes` until it succeeds, with the nodes as they are at
each of the calls, ends with `r`. -/
def GetsManifest (P : Platform) (pow : Nat → Nat → Number) {Cid : Type} (nodes : Nat → Nodes Cid)
    (runtime : KuboRuntime) (env : Registry.Retry.Environment) (manifestCid : String)
    (r : Registry.Retry.Outcome JsError Bytes) : Prop :=
  ∃ l, Registry.Retry.Returns pow env.ipfs
    (fun k => catBytes P (nodes k) runtime manifestCid none) l r

/-- An object was added by `addBytes` or by `addEncryptedPackage`, with this CID. -/
def Added (P : Platform) {Cid : Type} (nodes : Nodes Cid) (runtime : KuboRuntime) (object : Json)
    (cid : String) : Prop :=
  ∃ config, (∃ r, addBytes P nodes runtime (P.encodeJsonToBytes object) config = .ok r ∧
    r.cid = cid) ∨ addEncryptedPackage P nodes runtime object config = .ok cid

/-! ### What the nodes are documented to do -/

/-- The text is lines, of which the last that is not empty is the object of what was added, with its
CID as `Hash`. -/
def Announces (P : Platform) (text cid : String) : Prop :=
  ∃ before line j, text.toList = before ++ line ++ ['\n'] ∧
    (before = [] ∨ ∃ earlier, before = earlier ++ ['\n']) ∧ '\n' ∉ line ∧
      trim (.ofList line) = .ofList line ∧
      line ≠ [] ∧ P.jsonParse (.ofList line) = .ok j ∧ j.get "Hash" = some (.str cid)

/-- The answers of the Kubo node at `baseUrl`: a request fails or is refused, or the node adds the one
file of a form, or it reads the one argument of a query. What a body holds may fail to arrive. -/
inductive KuboAnswers (P : Platform) (baseUrl : String) (req : Request) : Result Response → Prop
  | failed (e : JsError) : KuboAnswers P baseUrl req (.error e)
  | refused {res : Response} (h : res.ok = false) : KuboAnswers P baseUrl req (.ok res)
  | added {part : Part} {res : Response}
      (hpath : urlPath req.url.toList = (baseUrl ++ "/api/v0/add").toList) (hbody : req.body = [part])
      (htext : ∀ text, res.text = .ok text → Announces P text (P.cidOf part.bytes)) :
      KuboAnswers P baseUrl req (.ok res)
  | content {cid : String} {res : Response}
      (hpath : urlPath req.url.toList = (baseUrl ++ "/api/v0/cat").toList)
      (harg : formParse (urlQuery req.url.toList) = [(utf8 "arg", utf8 cid)])
      (hbytes : ∀ bytes, res.arrayBuffer = .ok bytes → bytes = P.content cid) :
      KuboAnswers P baseUrl req (.ok res)

/-- The nodes are content-addressed stores: Kubo where it is configured, at an address without query
and fragment, and else the file system of Helia, whose chunks make up the content of a CID. -/
structure Nodes.Store {Cid : Type} (P : Platform) (runtime : KuboRuntime) (nodes : Nodes Cid) :
    Prop where
  kubo : getKuboApiUrl P runtime ≠ "" →
    '?' ∉ (getKuboApiUrl P runtime).toList ∧ '#' ∉ (getKuboApiUrl P runtime).toList ∧
      ∀ req, KuboAnswers P (getKuboApiUrl P runtime) req (nodes.fetch req)
  added : getKuboApiUrl P runtime = "" → ∀ fs, nodes.getIpfsContext = .ok fs → ∀ bytes cid,
    fs.addBytes bytes = some (.ok cid) → nodes.toString cid = P.cidOf bytes
  content : getKuboApiUrl P runtime = "" → ∀ fs, nodes.getIpfsContext = .ok fs → ∀ s cid,
    nodes.parse s = .ok cid → (fs.cat cid).2 = .ok () →
      ((fs.cat cid).1.map Chunk.bytes).flatten = P.content s

/-- What is read from the nodes is the content of its CID. -/
structure Nodes.Readable {Cid : Type} (P : Platform) (runtime : KuboRuntime) (nodes : Nodes Cid) :
    Prop where
  kubo : getKuboApiUrl P runtime ≠ "" →
    '?' ∉ (getKuboApiUrl P runtime).toList ∧ '#' ∉ (getKuboApiUrl P runtime).toList ∧
      ∀ cid, KuboAnswers P (getKuboApiUrl P runtime) (catRequest (getKuboApiUrl P runtime) cid)
        (nodes.fetch (catRequest (getKuboApiUrl P runtime) cid))
  content : getKuboApiUrl P runtime = "" → ∀ fs, nodes.getIpfsContext = .ok fs → ∀ s cid,
    nodes.parse s = .ok cid → (fs.cat cid).2 = .ok () →
      ((fs.cat cid).1.map Chunk.bytes).flatten = P.content s

theorem Nodes.Store.readable {Cid : Type} {P : Platform} {runtime : KuboRuntime} {nodes : Nodes Cid}
    (h : nodes.Store P runtime) : nodes.Readable P runtime where
  kubo hkubo := by
    obtain ⟨hquery, hfragment, hfetch⟩ := h.kubo hkubo
    exact ⟨hquery, hfragment, fun cid => hfetch _⟩
  content := h.content

/-- The node that is configured takes the bytes, in time. -/
structure Nodes.Takes {Cid : Type} (P : Platform) (runtime : KuboRuntime) (nodes : Nodes Cid)
    (bytes : Bytes) : Prop where
  kubo : getKuboApiUrl P runtime ≠ "" → ∃ res text,
    nodes.fetch (addRequest (getKuboApiUrl P runtime) bytes) = .ok res ∧ res.ok = true ∧
      res.text = .ok text
  helia : getKuboApiUrl P runtime = "" → ∃ fs cid,
    nodes.getIpfsContext = .ok fs ∧ fs.addBytes bytes = some (.ok cid)

/-- The node that is configured gives the bytes for their CID, in time. -/
structure Nodes.Gives {Cid : Type} (P : Platform) (runtime : KuboRuntime) (nodes : Nodes Cid)
    (bytes : Bytes) : Prop where
  kubo : getKuboApiUrl P runtime ≠ "" → ∃ res content,
    nodes.fetch (catRequest (getKuboApiUrl P runtime) (P.cidOf bytes)) = .ok res ∧ res.ok = true ∧
      res.arrayBuffer = .ok content
  helia : getKuboApiUrl P runtime = "" → ∃ fs cid,
    nodes.getIpfsContext = .ok fs ∧ nodes.parse (P.cidOf bytes) = .ok cid ∧
      (fs.cat cid).2 = .ok () ∧ ∀ chunk ∈ (fs.cat cid).1, chunk.aborted = false

/-! ### The last line -/

/-- A trimmed text neither begins nor ends with white space. -/
theorem ends_of_trim {line : List Char} (h : trim (.ofList line) = .ofList line) :
    line.dropWhile isSpace = line ∧ line.rdropWhile isSpace = line := by
  rw [trim_eq_rdropWhile, String.toList_ofList] at h
  have hlist : (line.dropWhile isSpace).rdropWhile isSpace = line := String.ofList_injective h
  have hprefix := List.rdropWhile_prefix isSpace (l := line.dropWhile isSpace)
  have hsuffix := List.dropWhile_suffix isSpace (l := line)
  rw [hlist] at hprefix
  have hdrop : line.dropWhile isSpace = line :=
    hsuffix.eq_of_length (Nat.le_antisymm hsuffix.length_le hprefix.length_le)
  exact ⟨hdrop, by rwa [hdrop] at hlist⟩

/-- White space in front of the lines is dropped, and with it whole lines only. -/
theorem dropWhile_lines {before line : List Char} (hline : line.dropWhile isSpace = line)
    (hbefore : before = [] ∨ ∃ earlier, before = earlier ++ ['\n']) :
    ∃ kept, (before ++ line).dropWhile isSpace = kept ++ line ∧
      (kept = [] ∨ ∃ earlier, kept = earlier ++ ['\n']) := by
  induction before with
  | nil => exact ⟨[], hline, Or.inl rfl⟩
  | cons c before ih =>
    cases hc : isSpace c with
    | false => exact ⟨c :: before, by simp [hc], hbefore⟩
    | true =>
      have hrest : before = [] ∨ ∃ earlier, before = earlier ++ ['\n'] := by
        rcases hbefore with h | ⟨earlier, h⟩
        · cases h
        · cases earlier with
          | nil => exact Or.inl (List.cons.inj h).2
          | cons d earlier => exact Or.inr ⟨earlier, (List.cons.inj h).2⟩
      obtain ⟨kept, hkept, hends⟩ := ih hrest
      exact ⟨kept, by simp [hc, hkept], hends⟩

theorem rdropWhile_append_self {kept line : List Char} (hne : line ≠ [])
    (h : line.rdropWhile isSpace = line) : (kept ++ line).rdropWhile isSpace = kept ++ line := by
  rw [List.rdropWhile_eq_self_iff]
  intro hl
  rw [List.getLast_append_of_ne_nil _ hne]
  exact List.rdropWhile_eq_self_iff.mp h hne

theorem getLastD_splitOn {kept line : List Char} (hne : line ≠ []) (hnewline : '\n' ∉ line)
    (hkept : kept = [] ∨ ∃ earlier, kept = earlier ++ ['\n']) :
    (((kept ++ line).splitOn '\n').filter fun l => !l.isEmpty).getLastD [] = line := by
  have hself : line.splitOn '\n' = [line] := List.splitOn_eq_singleton hnewline
  have hnonempty : line.isEmpty = false := by simpa using hne
  rcases hkept with rfl | ⟨earlier, rfl⟩
  · rw [List.nil_append, hself]
    simp [hnonempty]
  · rw [List.append_assoc, List.singleton_append, List.splitOn_append_cons_self, hself,
      List.filter_append]
    simp [hnonempty]

/-- The client finds the line that was announced. -/
theorem lastLine_of_lines {text : String} {before line : List Char}
    (htext : text.toList = before ++ line ++ ['\n'])
    (hbefore : before = [] ∨ ∃ earlier, before = earlier ++ ['\n']) (hnewline : '\n' ∉ line)
    (htrim : trim (.ofList line) = .ofList line) (hne : line ≠ []) :
    lastLine text = .ofList line := by
  obtain ⟨hfirst, hlast⟩ := ends_of_trim htrim
  have hline : (line ++ ['\n']).dropWhile isSpace = line ++ ['\n'] := by
    cases line with
    | nil => exact absurd rfl hne
    | cons c line =>
      have hc : isSpace c = false := by
        by_contra hc
        rw [List.dropWhile_cons_of_pos (by simpa using hc)] at hfirst
        have hle := (List.dropWhile_suffix isSpace (l := line)).length_le
        rw [hfirst, List.length_cons] at hle
        omega
      simp [hc]
  obtain ⟨kept, hkept, hends⟩ := dropWhile_lines hline hbefore
  have htrimmed : trim text = .ofList (kept ++ line) := by
    rw [trim_eq_rdropWhile, htext, List.append_assoc, hkept, ← List.append_assoc,
      List.rdropWhile_concat_pos _ _ _ (by decide), rdropWhile_append_self hne hlast]
  rw [lastLine, htrimmed, String.toList_ofList, getLastD_splitOn hne hnewline hends]

/-! ### Kubo as a store -/

section Kubo

variable {P : Platform} {baseUrl : String} {fetch : Request → Result Response}
  (hquery : '?' ∉ baseUrl.toList) (hfragment : '#' ∉ baseUrl.toList)

include hquery hfragment

theorem urlPath_addRequest (bytes : Bytes) :
    urlPath (addRequest baseUrl bytes).url.toList = (baseUrl ++ "/api/v0/add").toList := by
  have hurl : (addRequest baseUrl bytes).url.toList = (baseUrl ++ "/api/v0/add").toList ++
      '?' :: "pin=false&cid-version=1".toList := by
    simp [addRequest]
  rw [hurl]
  exact (urlPath_append (by simpa using hquery) (by simpa using hfragment) (by decide)).1

/-- The query is the CID and nothing else, whatever is in it. -/
theorem url_catRequest (cid : String) :
    urlPath (catRequest baseUrl cid).url.toList = (baseUrl ++ "/api/v0/cat").toList ∧
      formParse (urlQuery (catRequest baseUrl cid).url.toList) = [(utf8 "arg", utf8 cid)] := by
  have hurl : (catRequest baseUrl cid).url.toList = (baseUrl ++ "/api/v0/cat").toList ++
      '?' :: ("arg".toList ++ '=' :: (encodeURIComponent cid).toList) := by
    simp [catRequest]
  have hcid : '#' ∉ (encodeURIComponent cid).toList :=
    not_mem_encodeURIComponent (by decide) (by decide) cid
  have hargument : '#' ∉ "arg".toList ++ '=' :: (encodeURIComponent cid).toList := by
    simpa using hcid
  have hpathQuery : '?' ∉ (baseUrl ++ "/api/v0/cat").toList := by simpa using hquery
  have hpathFragment : '#' ∉ (baseUrl ++ "/api/v0/cat").toList := by simpa using hfragment
  obtain ⟨hpath, hargs⟩ := urlPath_append hpathQuery hpathFragment hargument
  have hname : ("arg".toList.all isUnreserved) = true := by decide
  rw [hurl, hpath, hargs, formParse_component (List.all_eq_true.mp hname)]
  exact ⟨rfl, rfl⟩

omit hquery hfragment in
theorem paths_apart : (baseUrl ++ "/api/v0/add").toList ≠ (baseUrl ++ "/api/v0/cat").toList := by
  rw [String.toList_append, String.toList_append]
  exact fun h => absurd (List.append_cancel_left h) (by decide)

omit hquery hfragment in
theorem addedCid_of_hash (hP : P.Lawful) {j : Json} {cid : String} (hcid : cid ≠ "")
    (h : j.get "Hash" = some (.str cid)) :
    truthy (addedCid j) = true ∧ P.toJsString ((addedCid j).getD .null) = cid := by
  have hadded : addedCid j = some (.str cid) := by simp [addedCid, optProp, h, coalesce]
  rw [hadded]
  exact ⟨by simpa [truthy] using hcid, hP.toJsString_str cid⟩

/-- What is added is found in the answer. -/
theorem addBytesViaKubo_eq (hP : P.Lawful) (hfetch : ∀ req, KuboAnswers P baseUrl req (fetch req))
    {bytes : Bytes} {res : Response} {text : String} (h : fetch (addRequest baseUrl bytes) = .ok res)
    (hok : res.ok = true) (htext : res.text = .ok text) :
    addBytesViaKubo P baseUrl fetch bytes = .ok ⟨P.cidOf bytes, bytes.length⟩ := by
  have hpath := urlPath_addRequest hquery hfragment bytes
  have hanswer := hfetch (addRequest baseUrl bytes)
  rw [h] at hanswer
  cases hanswer with
  | refused hrefused =>
    rw [hok] at hrefused
    cases hrefused
  | content hpath' => exact absurd (hpath.symm.trans hpath') paths_apart
  | @added part res hpath' hbody hannounced =>
    obtain rfl : _ = part := List.head_eq_of_cons_eq hbody
    obtain ⟨before, line, j, hlines, hbefore, hnewline, htrim, hne, hparse, hhash⟩ :=
      hannounced text htext
    obtain ⟨htruthy, hcid⟩ := addedCid_of_hash hP (hP.cidOf_ne _) hhash
    rw [addBytesViaKubo, h, ok_bind, htext, ok_bind, hok, require_true, ok_bind,
      lastLine_of_lines hlines hbefore hnewline htrim hne, hparse, rethrow_ok, ok_bind]
    simp only [htruthy, require_true, ok_bind, hcid]
    rfl

/-- What is read is the content of the CID. -/
theorem catBytesViaKubo_eq
    (hfetch : ∀ cid, KuboAnswers P baseUrl (catRequest baseUrl cid) (fetch (catRequest baseUrl cid)))
    {cid : String} {res : Response} {bytes : Bytes} (h : fetch (catRequest baseUrl cid) = .ok res)
    (hok : res.ok = true) (hbytes : res.arrayBuffer = .ok bytes) :
    bytes = P.content cid ∧ catBytesViaKubo baseUrl fetch cid =
      (require (bytes.length != 0) "Kubo cat returned empty response").map fun _ => bytes := by
  obtain ⟨hpath, hargs⟩ := url_catRequest hquery hfragment cid
  have hanswer := hfetch cid
  rw [h] at hanswer
  refine ⟨?_, ?_⟩
  · cases hanswer with
    | refused hrefused =>
      rw [hok] at hrefused
      cases hrefused
    | added hpath' => exact absurd (hpath'.symm.trans hpath) paths_apart
    | @content cid' res hpath' hargs' hcontent =>
      have hsame : utf8 cid' = utf8 cid := by
        have := hargs'.symm.trans hargs
        simpa using this
      rw [← utf8_injective hsame]
      exact hcontent bytes hbytes
  · rw [catBytesViaKubo, h, ok_bind]
    simp only [hok, hbytes, require_true, ok_bind]
    cases require (bytes.length != 0) "Kubo cat returned empty response" <;> rfl

end Kubo

/-! ### Helia as a store -/

theorem readChunks_eq_ok {timeoutMs : String} {cs : List Chunk} {ending : Result Unit}
    {chunks : List Bytes} {total : Nat} {r : List Bytes × Nat} :
    readChunks timeoutMs (cs, ending) chunks total = .ok r ↔
      (ending = .ok () ∧ ∀ c ∈ cs, c.aborted = false) ∧
        r = (chunks ++ cs.map Chunk.bytes, total + (cs.map Chunk.bytes).flatten.length) := by
  induction cs generalizing chunks total with
  | nil =>
    cases ending with
    | error e => simp [readChunks, Except.map]
    | ok u =>
      have hread : readChunks timeoutMs ([], .ok u) chunks total = .ok (chunks, total) := by
        rw [readChunks]
        rfl
      rw [hread, Except.ok.injEq]
      simp only [List.map_nil, List.append_nil, List.flatten_nil, List.length_nil, Nat.add_zero,
        List.not_mem_nil, false_implies, implies_true, and_true, true_and]
      exact eq_comm
  | cons c cs ih =>
    rw [readChunks]
    cases hc : c.aborted with
    | true => simp [hc]
    | false =>
      simp only [Bool.false_eq_true, if_false, ih, List.forall_mem_cons, hc, true_and,
        List.map_cons, List.flatten_cons, List.length_append, List.append_assoc,
        List.singleton_append, Nat.add_assoc]

theorem readChunks_of_whole {timeoutMs : String} {iter : List Chunk × Result Unit}
    (hending : iter.2 = .ok ()) (haborted : ∀ c ∈ iter.1, c.aborted = false) :
    readChunks timeoutMs iter [] 0 =
      .ok (iter.1.map Chunk.bytes, (iter.1.map Chunk.bytes).flatten.length) := by
  obtain ⟨cs, ending⟩ := iter
  refine readChunks_eq_ok.mpr ⟨⟨hending, haborted⟩, ?_⟩
  rw [List.nil_append, Nat.zero_add]

/-- The chunks are put together in their order. -/
theorem concatParts_flatten (chunks : List Bytes) :
    Hkdf.concatParts (newUint8Array chunks.flatten.length) 0 chunks = .ok chunks.flatten := by
  have h := Hkdf.concatParts_eq [] chunks chunks.flatten.length (Nat.le_refl _)
  simpa [newUint8Array] using h

/-! ### The client as a store -/

section Store

variable {P : Platform} {Cid : Type} {nodes : Nodes Cid} {runtime : KuboRuntime}

theorem addBytes_eq (hP : P.Lawful) (hstore : nodes.Store P runtime) {bytes : Bytes} {config : Value}
    {r : AddBytesResult} (h : addBytes P nodes runtime bytes config = .ok r) :
    r = ⟨P.cidOf bytes, bytes.length⟩ ∧ tooLarge config bytes.length = false := by
  simp only [addBytes, bind_eq_ok, require_eq_ok, exists_const, Bool.not_eq_true'] at h
  obtain ⟨hlarge, h⟩ := h
  refine ⟨?_, hlarge⟩
  by_cases hkubo : getKuboApiUrl P runtime = ""
  · simp only [hkubo, ne_eq, not_true_eq_false, if_false, bind_eq_ok, result_pure,
      Except.ok.injEq] at h
    obtain ⟨fs, hfs, cid, hcid, rfl⟩ := h
    have hadded : fs.addBytes bytes = some (.ok cid) := by
      cases hout : fs.addBytes bytes with
      | none => simp [hout, withTimeout] at hcid
      | some out =>
        rw [hout, withTimeout] at hcid
        rw [hcid]
    rw [hstore.added hkubo fs hfs bytes cid hadded]
  · obtain ⟨hquery, hfragment, hfetch⟩ := hstore.kubo hkubo
    rw [if_pos hkubo] at h
    have hanswered := h
    simp only [addBytesViaKubo, bind_eq_ok, require_eq_ok, exists_const] at hanswered
    obtain ⟨res, hres, text, htext, hok, -⟩ := hanswered
    rw [addBytesViaKubo_eq hquery hfragment hP hfetch hres hok htext] at h
    exact (Except.ok.inj h).symm

theorem catBytes_eq (hstore : nodes.Readable P runtime) {cid : String} {config : Value} {bytes : Bytes}
    (h : catBytes P nodes runtime cid config = .ok bytes) :
    isBlank cid = false ∧ bytes = P.content (trim cid) ∧ bytes ≠ [] := by
  simp only [catBytes, bind_eq_ok, require_eq_ok, exists_const, Bool.not_eq_true'] at h
  obtain ⟨hblank, h⟩ := h
  refine ⟨hblank, ?_⟩
  by_cases hkubo : getKuboApiUrl P runtime = ""
  · simp only [hkubo, ne_eq, not_true_eq_false, if_false, bind_eq_ok, rethrow_eq_ok, require_eq_ok,
      exists_const, bne_iff_ne] at h
    obtain ⟨fs, hfs, parsed, hparsed, ⟨chunks, total⟩, hchunks, hne, hconcat⟩ := h
    obtain ⟨⟨hending, -⟩, heq⟩ := readChunks_eq_ok.mp hchunks
    simp only [List.nil_append, Nat.zero_add, Prod.mk.injEq] at heq
    obtain ⟨rfl, rfl⟩ := heq
    rw [concatParts_flatten, Except.ok.injEq] at hconcat
    rw [hstore.content hkubo fs hfs _ parsed hparsed hending] at hconcat hne
    exact ⟨hconcat.symm, hconcat ▸ List.ne_nil_of_length_pos (Nat.pos_of_ne_zero hne)⟩
  · obtain ⟨hquery, hfragment, hfetch⟩ := hstore.kubo hkubo
    rw [if_pos hkubo] at h
    have hanswered := h
    simp only [catBytesViaKubo, bind_eq_ok, require_eq_ok, exists_const, result_pure,
      Except.ok.injEq, bne_iff_ne] at hanswered
    obtain ⟨res, hres, hok, bytes', hbytes, hne, rfl⟩ := hanswered
    exact ⟨(catBytesViaKubo_eq hquery hfragment hfetch hres hok hbytes).1,
      List.ne_nil_of_length_pos (Nat.pos_of_ne_zero hne)⟩

/-- Bytes that are taken and are not too large are added. -/
theorem addBytes_of_takes (hP : P.Lawful) (hstore : nodes.Store P runtime) {bytes : Bytes}
    (htakes : nodes.Takes P runtime bytes) {config : Value}
    (hlarge : tooLarge config bytes.length = false) :
    addBytes P nodes runtime bytes config = .ok ⟨P.cidOf bytes, bytes.length⟩ := by
  simp only [addBytes, hlarge, Bool.not_false, require_true, ok_bind]
  by_cases hkubo : getKuboApiUrl P runtime = ""
  · obtain ⟨fs, cid, hfs, hcid⟩ := htakes.helia hkubo
    simp only [hkubo, ne_eq, not_true_eq_false, if_false, hfs, ok_bind, hcid, withTimeout,
      hstore.added hkubo fs hfs bytes cid hcid]
    rfl
  · obtain ⟨hquery, hfragment, hfetch⟩ := hstore.kubo hkubo
    obtain ⟨res, text, hres, hok, htext⟩ := htakes.kubo hkubo
    rw [if_pos hkubo]
    exact addBytesViaKubo_eq hquery hfragment hP hfetch hres hok htext

theorem isBlank_of_cid (hP : P.Lawful) {cid : String} {bytes : Bytes}
    (hcid : trim cid = P.cidOf bytes) : isBlank cid = false := by
  simp [isBlank, hcid, hP.cidOf_ne]

/-- Bytes that are given and are not empty are read under their CID. -/
theorem catBytes_of_gives (hP : P.Lawful) (hstore : nodes.Readable P runtime) {bytes : Bytes}
    (hgives : nodes.Gives P runtime bytes) (hne : bytes ≠ []) {cid : String}
    (hcid : trim cid = P.cidOf bytes) (config : Value) :
    catBytes P nodes runtime cid config = .ok bytes := by
  have hlength : (bytes.length != 0) = true := by simpa using hne
  simp only [catBytes, isBlank_of_cid hP hcid, Bool.not_false, require_true, ok_bind, hcid]
  by_cases hkubo : getKuboApiUrl P runtime = ""
  · obtain ⟨fs, parsed, hfs, hparsed, hending, haborted⟩ := hgives.helia hkubo
    have hcontent := hstore.content hkubo fs hfs _ parsed hparsed hending
    rw [hP.content_cidOf] at hcontent
    have hlength' : (((fs.cat parsed).1.map Chunk.bytes).flatten.length != 0) = true := by
      rw [hcontent, hlength]
    simp only [hkubo, ne_eq, not_true_eq_false, if_false, hfs, ok_bind, hparsed, rethrow_ok,
      readChunks_of_whole hending haborted, hlength', require_true, concatParts_flatten]
    rw [hcontent]
  · obtain ⟨hquery, hfragment, hfetch⟩ := hstore.kubo hkubo
    obtain ⟨res, content, hres, hok, hbytes⟩ := hgives.kubo hkubo
    obtain ⟨rfl, hcat⟩ := catBytesViaKubo_eq hquery hfragment hfetch hres hok hbytes
    rw [if_pos hkubo, hcat]
    rw [hP.content_cidOf, hlength, require_true]
    rfl

/-- The client is a content-addressed store. What it returns for bytes is their CID and their
length, and what it returns for a CID is its content, whole; and it does return these as soon as the
configured node serves it, unless the object is larger than the configuration allows, or empty. -/
structure ContentStore (P : Platform) (nodes : Nodes Cid) (runtime : KuboRuntime) : Prop where
  added : ∀ bytes config r, addBytes P nodes runtime bytes config = .ok r →
    r = ⟨P.cidOf bytes, bytes.length⟩ ∧ tooLarge config bytes.length = false
  content : ∀ cid config bytes, catBytes P nodes runtime cid config = .ok bytes →
    isBlank cid = false ∧ bytes = P.content (trim cid) ∧ bytes ≠ []
  takes : ∀ bytes config, nodes.Takes P runtime bytes → tooLarge config bytes.length = false →
    addBytes P nodes runtime bytes config = .ok ⟨P.cidOf bytes, bytes.length⟩
  gives : ∀ bytes config cid, nodes.Gives P runtime bytes → bytes ≠ [] → trim cid = P.cidOf bytes →
    catBytes P nodes runtime cid config = .ok bytes

theorem client_contentStore (hP : P.Lawful) (hstore : nodes.Store P runtime) :
    ContentStore P nodes runtime where
  added _ _ _ h := addBytes_eq hP hstore h
  content _ _ _ h := catBytes_eq hstore.readable h
  takes _ _ htakes hlarge := addBytes_of_takes hP hstore htakes hlarge
  gives _ config _ hgives hne hcid := catBytes_of_gives hP hstore.readable hgives hne hcid config

end Store

/-! ### Objects that are added and retrieved -/

section Retrieval

variable {P : Platform} {Cid Cid' : Type} {writer : Nodes Cid} {readers : Nat → Nodes Cid'}
  {runtime runtime' : KuboRuntime} {object : Json} {cid : String}

theorem Added.cid_eq (hP : P.Lawful) (hstore : writer.Store P runtime)
    (h : Added P writer runtime object cid) : cid = P.cidOf (P.encodeJsonToBytes object) := by
  obtain ⟨config, ⟨r, hadd, rfl⟩ | hpackage⟩ := h
  · rw [(addBytes_eq hP hstore hadd).1]
  · simp only [addEncryptedPackage, Files.addEncryptedPackage, bind_eq_ok, require_eq_ok,
      exists_const, result_pure, Except.ok.injEq] at hpackage
    obtain ⟨bytes, ⟨-, rfl⟩, r, hadd, rfl⟩ := hpackage
    rw [(addBytes_eq hP hstore hadd).1]

theorem encodeJsonToBytes_ne (hP : P.Lawful) (hutf8 : P.utf8Encode "" = []) (object : Json) :
    P.encodeJsonToBytes object ≠ [] := by
  intro h
  have hsame : P.utf8Encode (P.jsonStringify object) = P.utf8Encode "" := h.trans hutf8.symm
  have htext := congrArg P.utf8Decode hsame
  rw [hP.utf8, hP.utf8] at htext
  exact hP.stringify_ne object htext

/-- What was added through any nodes is retrieved through any others: what `getManifestFromIpfs`
returns for the CID parses to the object, and it does return it if one of the calls that there are
turns for finds nodes that give it. -/
theorem object_retrieved (hP : P.Lawful) (hutf8 : P.utf8Encode "" = [])
    (hwriter : writer.Store P runtime) (hreaders : ∀ k, (readers k).Readable P runtime')
    (pow : Nat → Nat → Number) (env : Registry.Retry.Environment) (hobject : object.WF)
    (hadded : Added P writer runtime object cid) :
    (∀ bytes, GetsManifest P pow readers runtime' env cid (.ok bytes) →
      P.decodeBytesToJson bytes = .ok object) ∧
    ((∃ k ≤ 2 ^ 53, env.ipfs.retries.AtLeast k ∧
        (readers k).Gives P runtime' (P.encodeJsonToBytes object)) →
      ∃ bytes, GetsManifest P pow readers runtime' env cid (.ok bytes)) := by
  have hcid : trim cid = P.cidOf (P.encodeJsonToBytes object) := by
    rw [hadded.cid_eq hP hwriter, hP.cidOf_trim]
  refine ⟨fun bytes hgets => ?_, fun ⟨k, hk, hturns, hgives⟩ => ?_⟩
  · obtain ⟨l, hreturns⟩ := hgets
    obtain ⟨k, hcat⟩ := hreturns.exists_value
    obtain ⟨-, rfl, -⟩ := catBytes_eq (hreaders k) hcat
    rw [hcid, hP.content_cidOf, hP.decode_encode hobject]
  · have hcat : catBytes P (readers k) runtime' cid none = .ok (P.encodeJsonToBytes object) :=
      catBytes_of_gives hP (hreaders k) hgives (encodeJsonToBytes_ne hP hutf8 object) hcid none
    have hreturns : ∃ l bytes, Registry.Retry.Returns pow env.ipfs
        (fun k => catBytes P (readers k) runtime' cid none) l (.ok bytes) :=
      Registry.Retry.returns_of_value hk hturns hcat
    obtain ⟨l, bytes, hbytes⟩ := hreturns
    exact ⟨bytes, l, hbytes⟩

end Retrieval

/-! ### Sample nodes -/

section Samples

/-- What Kubo says that it added. -/
noncomputable def sampleAdded (bytes : Bytes) : Json := .obj [("Hash", .str (symbolic.cidOf bytes))]

open Classical in
/-- A Kubo node that has everything. -/
noncomputable def sampleFetch (baseUrl : String) (req : Request) : Result Response :=
  if urlPath req.url.toList = (baseUrl ++ "/api/v0/add").toList then
    match req.body with
    | [part] => .ok {
        status := 200
        text := .ok (.ofList ((symbolic.jsonStringify (sampleAdded part.bytes)).toList ++ ['\n']))
        arrayBuffer := .ok [] }
    | _ => .error (.error "refused")
  else if h : urlPath req.url.toList = (baseUrl ++ "/api/v0/cat").toList ∧
      ∃ cid, formParse (urlQuery req.url.toList) = [(utf8 "arg", utf8 cid)] then
    .ok { status := 200, text := .ok "", arrayBuffer := .ok (symbolic.content h.2.choose) }
  else .error (.error "refused")

/-- Nodes that have everything, with the bytes themselves as CIDs and one chunk each. -/
noncomputable def sampleNodes (baseUrl : String) : Nodes Bytes where
  fetch := sampleFetch baseUrl
  getIpfsContext := .ok { addBytes := fun bytes => some (.ok bytes)
                          cat := fun cid => ([⟨cid, false⟩], .ok ()) }
  parse s := .ok (symbolic.content s)
  toString := symbolic.cidOf

theorem isSpace_stringText {t : String} (ht : ∀ c ∈ t.toList, isSpace c = false) :
    ∀ c ∈ Symbolic.stringText t, isSpace c = false := by
  intro c hc
  rw [Symbolic.stringText, Symbolic.natText, List.mem_append, List.mem_append,
    List.mem_singleton] at hc
  obtain (hc | rfl) | hc := hc
  · obtain rfl := List.eq_of_mem_replicate hc
    decide
  · decide
  · exact ht c hc

/-- The text of the object has no white space in it. -/
theorem sampleAdded_text (bytes : Bytes) :
    ∀ c ∈ (symbolic.jsonStringify (sampleAdded bytes)).toList, isSpace c = false := by
  have hname : ("Hash".toList.all fun c => !isSpace c) = true := by decide
  have hhash : ∀ c ∈ Symbolic.stringText "Hash", isSpace c = false :=
    isSpace_stringText fun c hc => by simpa using List.all_eq_true.mp hname c hc
  have hcid : ∀ c ∈ Symbolic.stringText (symbolic.cidOf bytes), isSpace c = false := by
    refine isSpace_stringText fun c hc => ?_
    rw [show symbolic.cidOf bytes = .ofList ('b' :: bytes.map Symbolic.byteChar) from rfl,
      String.toList_ofList, List.mem_cons, List.mem_map] at hc
    obtain rfl | ⟨b, -, rfl⟩ := hc
    · decide
    · exact Symbolic.isSpace_byteChar b
  have htext : (symbolic.jsonStringify (sampleAdded bytes)).toList = '{' :: ',' ::
      (Symbolic.stringText "Hash" ++ ('"' :: Symbolic.stringText (symbolic.cidOf bytes) ++ ['}'])) :=
    String.toList_ofList
  rw [htext]
  intro c hc
  simp only [List.mem_cons, List.mem_append, List.not_mem_nil, or_false] at hc
  obtain rfl | rfl | hc | (rfl | hc) | rfl := hc
  · decide
  · decide
  · exact hhash c hc
  · decide
  · exact hcid c hc
  · decide

theorem sampleAdded_wf (bytes : Bytes) : (sampleAdded bytes).WF := by
  have hkeys : Json.OwnKeys ["Hash"] := by decide
  refine .obj hkeys fun f hf => ?_
  obtain rfl := List.mem_singleton.mp hf
  exact .str _

theorem sampleAdded_announces (bytes : Bytes) : Announces symbolic
    (.ofList ((symbolic.jsonStringify (sampleAdded bytes)).toList ++ ['\n']))
    (symbolic.cidOf bytes) := by
  have htext := sampleAdded_text bytes
  refine ⟨[], _, sampleAdded bytes, by rw [String.toList_ofList, List.nil_append], Or.inl rfl,
    fun hnewline => ?_, ?_, ?_, ?_, rfl⟩
  · exact absurd (htext _ hnewline) (by decide)
  · rw [String.ofList_toList]
    exact trim_of_no_space htext
  · exact fun h => symbolic_lawful.stringify_ne _ (String.toList_eq_nil_iff.mp h)
  · rw [String.ofList_toList]
    exact symbolic_lawful.parse_stringify (sampleAdded_wf bytes)

theorem sample_kubo (baseUrl : String) (req : Request) :
    KuboAnswers symbolic baseUrl req (sampleFetch baseUrl req) := by
  unfold sampleFetch
  split
  · rename_i hpath
    split
    · rename_i part hbody
      refine .added hpath hbody fun text htext => ?_
      rw [← Except.ok.inj htext]
      exact sampleAdded_announces part.bytes
    · exact .failed _
  · split
    · rename_i h
      refine .content h.1 h.2.choose_spec fun bytes hbytes => ?_
      exact (Except.ok.inj hbytes).symm
    · exact .failed _

/-- A page with the default configuration. -/
def defaultRuntime : KuboRuntime := { config := none, document := none, env := none }

/-- A page without a Kubo node. -/
def heliaRuntime : KuboRuntime := { config := none, document := none, env := some "" }

theorem defaultRuntime_url : getKuboApiUrl symbolic defaultRuntime = "http://127.0.0.1:5001" := by
  decide +kernel

theorem heliaRuntime_url : getKuboApiUrl symbolic heliaRuntime = "" := by
  decide +kernel

/-- The sample nodes at an address without query and fragment are stores. -/
theorem sampleNodes_store {runtime : KuboRuntime}
    (hquery : '?' ∉ (getKuboApiUrl symbolic runtime).toList)
    (hfragment : '#' ∉ (getKuboApiUrl symbolic runtime).toList) :
    (sampleNodes (getKuboApiUrl symbolic runtime)).Store symbolic runtime where
  kubo _ := ⟨hquery, hfragment, sample_kubo _⟩
  added _ fs hfs bytes cid hcid := by
    obtain rfl := Except.ok.inj hfs
    obtain rfl := Except.ok.inj (Option.some.inj hcid)
    rfl
  content _ fs hfs s cid hcid _ := by
    obtain rfl := Except.ok.inj hfs
    obtain rfl := Except.ok.inj hcid
    exact List.append_nil _

theorem sampleNodes_gives {runtime : KuboRuntime} (h : getKuboApiUrl symbolic runtime = "")
    (bytes : Bytes) : (sampleNodes "").Gives symbolic runtime bytes where
  kubo hkubo := absurd h hkubo
  helia _ := ⟨_, _, rfl, rfl, rfl, fun chunk hchunk => by
    obtain rfl := List.mem_singleton.mp hchunk
    rfl⟩

theorem sampleFetch_add {baseUrl : String} (hquery : '?' ∉ baseUrl.toList)
    (hfragment : '#' ∉ baseUrl.toList) (bytes : Bytes) :
    ∃ res text, sampleFetch baseUrl (addRequest baseUrl bytes) = .ok res ∧ res.ok = true ∧
      res.text = .ok text := by
  rw [sampleFetch, if_pos (urlPath_addRequest hquery hfragment bytes)]
  exact ⟨_, _, rfl, rfl, rfl⟩

theorem client_contentStore_sample : ContentStore symbolic
    (sampleNodes (getKuboApiUrl symbolic defaultRuntime)) defaultRuntime :=
  client_contentStore symbolic_lawful (sampleNodes_store (by rw [defaultRuntime_url]; decide)
    (by rw [defaultRuntime_url]; decide))

/-- The nodes of the reader are offline at first. -/
noncomputable def sampleReaders (k : Nat) : Nodes Bytes :=
  if k = 0 then { sampleNodes "" with getIpfsContext := .error (.error "offline") }
  else sampleNodes ""

theorem sampleReaders_readable (k : Nat) : (sampleReaders k).Readable symbolic heliaRuntime := by
  have hstore : (sampleNodes "").Readable symbolic heliaRuntime := by
    have hquery : '?' ∉ (getKuboApiUrl symbolic heliaRuntime).toList := by
      rw [heliaRuntime_url]
      decide
    have hfragment : '#' ∉ (getKuboApiUrl symbolic heliaRuntime).toList := by
      rw [heliaRuntime_url]
      decide
    have h := (sampleNodes_store hquery hfragment).readable
    rwa [heliaRuntime_url] at h
  unfold sampleReaders
  split
  · refine ⟨hstore.kubo, fun _ _ hfs => ?_⟩
    cases hfs
  · exact hstore

/-- The default number of retries. -/
theorem default_retries :
    (Registry.Retry.Environment.ipfs ⟨none, none, none⟩).retries = .ofInt 3 := by
  have hspace : (CodeUnits.ofAscii ['3']).dropWhile CodeUnits.isSpace = CodeUnits.ofAscii ['3'] := by
    decide
  have hsign : CodeUnits.stripSign (CodeUnits.ofAscii ['3']) = (false, CodeUnits.ofAscii ['3']) := by
    decide
  have hdigits : CodeUnits.leadingDigits 10 (CodeUnits.ofAscii ['3']) = [3] := by decide
  have hvalue : Radix.value 10 [3] = 3 := by simp [Radix.value]
  simp [Registry.Retry.Environment.ipfs, Registry.Retry.setting, CodeUnits.parseInt, hspace, hsign,
    hdigits, hvalue]

/-- By default there is a second call. -/
theorem exists_retrying : ∃ env : Registry.Retry.Environment, env.ipfs.retries.AtLeast 1 := by
  refine ⟨⟨none, none, none⟩, ?_⟩
  have h3 : Number.ofInt 3 = .whole ⟨3, _⟩ := Number.ofInt_of_lt (by decide) (by decide)
  rw [default_retries, h3, Number.AtLeast]
  decide

theorem object_retrieved_sample : ∃ env cid bytes,
    Added symbolic (sampleNodes (getKuboApiUrl symbolic defaultRuntime)) defaultRuntime
      (sampleAdded []) cid ∧
    GetsManifest symbolic Registry.Retry.roundedPow sampleReaders heliaRuntime env cid (.ok bytes) ∧
    symbolic.decodeBytesToJson bytes = .ok (sampleAdded []) := by
  have hurl := defaultRuntime_url
  have hquery : '?' ∉ (getKuboApiUrl symbolic defaultRuntime).toList := by rw [hurl]; decide
  have hfragment : '#' ∉ (getKuboApiUrl symbolic defaultRuntime).toList := by rw [hurl]; decide
  have hwriter := sampleNodes_store hquery hfragment
  have hne : getKuboApiUrl symbolic defaultRuntime ≠ "" := by rw [hurl]; decide
  have htakes : (sampleNodes (getKuboApiUrl symbolic defaultRuntime)).Takes symbolic defaultRuntime
      (symbolic.encodeJsonToBytes (sampleAdded [])) :=
    ⟨fun _ => sampleFetch_add hquery hfragment (symbolic.encodeJsonToBytes (sampleAdded [])),
      fun h => absurd h hne⟩
  have hlarge : tooLarge none (symbolic.encodeJsonToBytes (sampleAdded [])).length = false := rfl
  have hadded : Added symbolic (sampleNodes (getKuboApiUrl symbolic defaultRuntime)) defaultRuntime
      (sampleAdded []) _ :=
    ⟨none, .inl ⟨_, addBytes_of_takes symbolic_lawful hwriter htakes hlarge, rfl⟩⟩
  obtain ⟨env, hturns⟩ := exists_retrying
  obtain ⟨hparses, hgets⟩ := object_retrieved symbolic_lawful rfl hwriter sampleReaders_readable
    Registry.Retry.roundedPow env (sampleAdded_wf []) hadded
  have hready : (sampleReaders 1).Gives symbolic heliaRuntime
      (symbolic.encodeJsonToBytes (sampleAdded [])) := by
    rw [sampleReaders, if_neg (by decide)]
    exact sampleNodes_gives heliaRuntime_url _
  obtain ⟨bytes, hbytes⟩ := hgets ⟨1, by decide, hturns, hready⟩
  exact ⟨env, _, bytes, hadded, hbytes, hparses bytes hbytes⟩

end Samples

end SovereignJedi.Ipfs
