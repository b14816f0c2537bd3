import Mathlib.Data.List.Basic
import Frcmob.Text

/-!
The caching headers of every GET: `edge_cache.py`. The header class, the reading of a query
string and the digest behind an ETag are inputs, as are the settings and the events known to
be over. Header names and values stand as the text their bytes are in latin-1.
-/

namespace Frcmob.EdgeCache

abbrev Bytes := List UInt8
abbrev Raw := List (String × String)

/-- The header class the middleware edits the raw pairs through; a name is looked up in
whatever case it is written. -/
structure MutableHeaders where
  get : Raw → String → Option String
  set : Raw → String → String → Raw
  del : Raw → String → Raw
  get_set : ∀ raw name value key,
    get (set raw name value) key = if lower key = lower name then some value else get raw key
  get_del : ∀ raw name key,
    get (del raw name) key = if lower key = lower name then none else get raw key

structure Settings where
  edgeCacheEnabled : Bool
  edgeCacheHeader : String
  adminApiHeader : String
deriving DecidableEq

/-! ### Which paths are public -/

structure Policy where
  maxAge : Nat
  staleWhileRevalidate : Nat
deriving DecidableEq

inductive PolicyName
  | live
  | event
  | catalog
  | static
deriving DecidableEq

def policies : PolicyName → Policy
  | .live => ⟨15, 15⟩
  | .event => ⟨60, 600⟩
  | .catalog => ⟨600, 86400⟩
  | .static => ⟨86400, 604800⟩

def settledPolicy : Policy := ⟨3600, 604800⟩

/-- Where the event key of a rule is. -/
inductive EventSource
  | path
  | query
deriving DecidableEq

/-- What stands between two slashes of a path pattern. -/
inductive Segment
  | oneOf (names : List String)
  | any
  | event
  | seasonEvent
deriving DecidableEq

/-- `(?P<ev>[0-9]{4}[a-z0-9]+)_[^/]+`; no underscore can be part of the event. -/
def seasonEvent? (part : List Char) : Option (List Char) :=
  let event := part.takeWhile (· ≠ '_')
  let season := event.take 4
  let code := event.drop 4
  if season.length = 4 ∧ season.all Char.isDigit ∧ code ≠ [] ∧
      (code.all fun c => c.isDigit || c.isLower) ∧ 2 ≤ (part.drop event.length).length then
    some event
  else
    none

/-- The event a part of the path names, empty where the segment names none; `none` where the
part does not match. -/
def Segment.reads (segment : Segment) (part : List Char) : Option String :=
  match segment with
  | .oneOf names => if String.ofList part ∈ names then some "" else none
  | .any => if part ≠ [] then some "" else none
  | .event => if part ≠ [] then some (String.ofList part) else none
  | .seasonEvent => (seasonEvent? part).map String.ofList

def readParts : List Segment → List (List Char) → Option String
  | [], [] => some ""
  | segment :: segments, part :: parts => do
    let event ← segment.reads part
    let rest ← readParts segments parts
    some (if event = "" then rest else event)
  | _, _ => none

/-- `pattern.match(path)`; `$` also stands before a line break that ends the path. -/
def matchPath (segments : List Segment) (path : List Char) : Option String :=
  let whole := readParts (.oneOf [""] :: segments) (path.splitOn '/')
  if path.getLast? = some '\n' then
    (readParts (.oneOf [""] :: segments) (path.dropLast.splitOn '/')).or whole
  else
    whole

structure Rule where
  pattern : List Segment
  name : PolicyName
  event : Option EventSource
deriving DecidableEq

def rules : List Rule :=
  [⟨[.oneOf ["events"], .oneOf ["suggested"]], .catalog, none⟩,
   ⟨[.oneOf ["events"], .oneOf ["search"]], .catalog, none⟩,
   ⟨[.oneOf ["teams"], .oneOf ["search"]], .catalog, none⟩,
   ⟨[.oneOf ["events"], .event, .oneOf ["schedule-with-synergy", "rankings", "predictions",
      "pick-values", "forecast", "alliance-outlook", "selection-model", "matchup", "what-if"]],
     .live, some .path⟩,
   ⟨[.oneOf ["events"], .event, .oneOf ["awards"]], .event, some .path⟩,
   ⟨[.oneOf ["matches"], .oneOf ["event"], .event,
      .oneOf ["schedule", "team-live-form", "live-stream", "alliances"]], .live, some .path⟩,
   ⟨[.oneOf ["matches"], .oneOf ["event"], .event, .oneOf ["team"], .any,
      .oneOf ["calendar.ics"]], .live, some .path⟩,
   ⟨[.oneOf ["matches"], .oneOf ["schedules"]], .live, none⟩,
   ⟨[.oneOf ["matches"], .seasonEvent, .oneOf ["phases", "practice"]], .event, some .path⟩,
   ⟨[.oneOf ["scouting"], .oneOf ["event"], .event, .oneOf ["ratings"]], .event, some .path⟩,
   ⟨[.oneOf ["scouting"], .oneOf ["event"], .event, .oneOf ["teams"], .oneOf ["history"]],
     .event, some .path⟩,
   ⟨[.oneOf ["scouting"], .oneOf ["team"], .any, .oneOf ["breakdown"]], .event, some .query⟩,
   ⟨[.oneOf ["teams"], .oneOf ["event"], .event, .oneOf ["intel"]], .event, some .path⟩,
   ⟨[.oneOf ["teams"], .any, .oneOf ["intel"]], .event, some .query⟩,
   ⟨[.oneOf ["teams"], .any, .oneOf ["logo", "robot-image"]], .static, none⟩,
   ⟨[.oneOf ["teams"], .any, .oneOf ["rating-history", "head-to-head", "season-story"]],
     .event, none⟩,
   ⟨[.oneOf ["tracks"], .oneOf ["heatmap", "shift-play"], .any], .event, some .query⟩]

/-- `path[4:] if path.startswith("/api/") else path` -/
def normalized (path : String) : List Char :=
  if "/api/".toList.isPrefixOf path.toList then path.toList.drop 4 else path.toList

/-- Some rule lists the path as public. -/
def listed (path : String) : Bool :=
  rules.any fun rule => (matchPath rule.pattern (normalized path)).isSome

/-- What the middleware reads from outside. -/
structure Env where
  settings : Settings
  headers : MutableHeaders
  /-- `parse_qs(query_string, keep_blank_values=True).get(name)` -/
  parseQs : String → String → Option (List String)
  hexdigest : Bytes → String
  settled : List String

def changesWithMatches : PolicyName → Bool
  | .live | .event => true
  | .catalog | .static => false

/-- The policy of the first rule that matches. -/
def rulePolicy (env : Env) (query : String → Option (List String)) (path : List Char)
    (rule : Rule) : Option Policy :=
  (matchPath rule.pattern path).map fun ev =>
    let eventKey := match rule.event with
      | some .path => ev
      | some .query => ((query "event_key").getD []).headD ""
      | none => ""
    if eventKey ≠ "" ∧ changesWithMatches rule.name ∧ lower (strip eventKey) ∈ env.settled then
      settledPolicy
    else
      policies rule.name

def policyFor (env : Env) (path queryString : String) : Option Policy :=
  let query := env.parseQs queryString
  if lower (((query "refresh").getD ["false"]).headD "") = "true" then none
  else if (query "include_workspace").isSome then none
  else rules.findSome? (rulePolicy env query (normalized path))

theorem policyFor_eq_none {path : String} (h : listed path = false) (env : Env)
    (queryString : String) : policyFor env path queryString = none := by
  have hrules : rules.findSome? (rulePolicy env (env.parseQs queryString) (normalized path)) =
      none := by
    rw [List.findSome?_eq_none_iff]
    intro rule hrule
    have hnone := List.any_eq_false.mp h rule hrule
    simp only [Option.isSome_iff_ne_none, ne_eq, not_not] at hnone
    rw [rulePolicy, hnone, Option.map_none]
  simp only [policyFor, hrules, ite_self]

/-! ### The request -/

structure Scope where
  type : String
  method : String
  path : String
  queryString : String
  headers : Raw
deriving DecidableEq

/-- What `strip` takes off the ends of bytes. -/
def isBlankByte (c : Char) : Bool :=
  c = ' ' || (9 ≤ c.toNat && c.toNat ≤ 13)

/-- What `strip` takes off the ends of text decoded from latin-1. -/
def isBlank (c : Char) : Bool :=
  isBlankByte c || (28 ≤ c.toNat && c.toNat ≤ 31) || c.toNat = 0x85 || c.toNat = 0xa0

def stripped (tag : List Char) : String :=
  String.ofList (((tag.dropWhile isBlank).reverse.dropWhile isBlank).reverse)

def credentialNames (settings : Settings) : List String :=
  [lower (if settings.adminApiHeader = "" then "X-Admin-Key" else settings.adminApiHeader),
   "x-admin-key", "x-admin-session", "authorization", "x-workspace-access",
   "x-room-access-token"]

def hasAdminCredentials (settings : Settings) (headers : Raw) : Bool :=
  headers.any fun (name, value) =>
    decide (name ∈ credentialNames settings) && !value.toList.all isBlankByte

/-- The tags of the first `if-none-match` header. -/
def ifNoneMatch (headers : Raw) : List String :=
  match headers.find? fun (name, _) => name = "if-none-match" with
  | some (_, value) => ((value.toList.splitOn ',').map stripped).filter (· ≠ "")
  | none => []

/-! ### The messages of a response -/

structure Start where
  status : Nat
  headers : Raw
deriving DecidableEq

inductive Message
  | start (start : Start)
  | body (body : Bytes) (moreBody : Bool)
  | other (type : String)
deriving DecidableEq

def privateNoStore : String := "private, no-store"
def maxBufferBytes : Nat := 8 * 1024 * 1024

/-- `sub in text` -/
def occursIn (sub text : String) : Bool :=
  text.toList.tails.any fun rest => sub.toList.isPrefixOf rest

def Start.isJson (headers : MutableHeaders) (start : Start) : Bool :=
  decide (start.status = 200) &&
    occursIn "application/json" ((headers.get start.headers "content-type").getD "")

def edgeHeader (settings : Settings) : String :=
  if settings.edgeCacheHeader = "" then "CDN-Cache-Control" else settings.edgeCacheHeader

def etag (env : Env) (body : Bytes) : String :=
  "W/\"" ++ env.hexdigest body ++ "\""

def cacheControl (policy : Policy) : String :=
  "max-age=" ++ toString policy.maxAge ++ ", stale-while-revalidate=" ++
    toString policy.staleWhileRevalidate

/-- `if name in headers: del headers[name]` -/
def MutableHeaders.discard (headers : MutableHeaders) (raw : Raw) (name : String) : Raw :=
  if (headers.get raw name).isSome then headers.del raw name else raw

def requestPolicy (env : Env) (scope : Scope) : Option Policy :=
  if hasAdminCredentials env.settings scope.headers then none
  else policyFor env scope.path scope.queryString

/-- The caching headers of an answer. -/
def cachingHeaders (env : Env) (scope : Scope) (raw : Raw) : Raw :=
  match requestPolicy env scope with
  | none =>
    let kept := env.headers.set raw "Cache-Control" privateNoStore
    if (env.headers.get kept (lower (edgeHeader env.settings))).isSome then
      env.headers.del kept (edgeHeader env.settings)
    else
      kept
  | some policy =>
    env.headers.set (env.headers.set raw "Cache-Control" "no-cache") (edgeHeader env.settings)
      (cacheControl policy)

/-- The request says that it holds what the tag names. -/
def Named (scope : Scope) (tag : String) : Prop :=
  tag ∈ ifNoneMatch scope.headers ∨ "*" ∈ ifNoneMatch scope.headers

instance (scope : Scope) (tag : String) : Decidable (Named scope tag) :=
  inferInstanceAs (Decidable (_ ∨ _))

/-- The messages `_finish` sends. -/
def finish (env : Env) (scope : Scope) (start : Start) (body : Bytes) : List Message :=
  let raw := env.headers.set (cachingHeaders env scope start.headers) "ETag" (etag env body)
  if Named scope (etag env body) then
    let bare := ["content-length", "content-type", "content-encoding"].foldl
      env.headers.discard raw
    [.start ⟨304, bare⟩, .body [] false]
  else
    [.start { start with headers := raw }, .body body false]

/-- What the middleware keeps while the wrapped application answers. -/
structure Buffer where
  start : Option Start
  chunks : List Bytes
  size : Nat
  passthrough : Bool
  sent : List Message
deriving DecidableEq

def Buffer.empty : Buffer := ⟨none, [], 0, false, []⟩

def Buffer.send (buffer : Buffer) (messages : List Message) : Buffer :=
  { buffer with sent := buffer.sent ++ messages }

def Buffer.push (buffer : Buffer) (chunk : Bytes) : Buffer :=
  { buffer with chunks := buffer.chunks ++ [chunk], size := buffer.size + chunk.length }

def Buffer.flush (buffer : Buffer) : Buffer :=
  { buffer.send ((buffer.start.map Message.start).toList ++
      buffer.chunks.map (Message.body · true)) with passthrough := true, chunks := [] }

def onStart (env : Env) (buffer : Buffer) (start : Start) : Buffer :=
  if start.isJson env.headers then
    { buffer with start := some start }
  else
    let raw := if start.status = 200 ∧ env.headers.get start.headers "cache-control" = none then
        env.headers.set start.headers "Cache-Control" privateNoStore
      else
        start.headers
    { buffer.send [.start { start with headers := raw }] with passthrough := true }

/-- `none` is the failed `assert start is not None`. -/
def onBody (env : Env) (scope : Scope) (buffer : Buffer) (body : Bytes) (moreBody : Bool) :
    Option Buffer :=
  let next := buffer.push body
  if maxBufferBytes < next.size then some next.flush
  else if moreBody then some next
  else next.start.map fun start => next.send (finish env scope start next.chunks.flatten)

def wrappedSend (env : Env) (scope : Scope) (buffer : Buffer) (message : Message) :
    Option Buffer :=
  if buffer.passthrough then
    some (buffer.send [message])
  else
    match message with
    | .start start => some (onStart env buffer start)
    | .body body moreBody => onBody env scope buffer body moreBody
    | .other type => some (buffer.send [.other type])

/-- The messages the client gets for those of the wrapped application. -/
def call (env : Env) (scope : Scope) (messages : List Message) : Option (List Message) :=
  if scope.type ≠ "http" ∨ scope.method ≠ "GET" ∨ env.settings.edgeCacheEnabled = false then
    some messages
  else
    (messages.foldlM (wrappedSend env scope) Buffer.empty).map Buffer.sent

/-! ### The response and what arrives of it -/

/-- A response of the wrapped application, its body in chunks of any sizes. -/
structure Response where
  start : Start
  leading : List Bytes
  last : Bytes
deriving DecidableEq

def Response.body (response : Response) : Bytes :=
  response.leading.flatten ++ response.last

def Response.messages (response : Response) : List Message :=
  .start response.start :: (response.leading.map (Message.body · true) ++
    [.body response.last false])

structure Received where
  start : Start
  body : Bytes
deriving DecidableEq

/-- A body is whole with the one message that says no more follows, and that is the last. -/
def receivedBody : List Message → Option Bytes
  | [.body body false] => some body
  | .body body true :: rest => (receivedBody rest).map (body ++ ·)
  | _ => none

def received : List Message → Option Received
  | .start start :: rest => (receivedBody rest).map fun body => ⟨start, body⟩
  | _ => none

theorem receivedBody_whole (leading : List Bytes) (last : Bytes) :
    receivedBody (leading.map (Message.body · true) ++ [.body last false]) =
      some (leading.flatten ++ last) := by
  induction leading with
  | nil => rfl
  | cons chunk leading ih =>
      rw [List.map_cons, List.cons_append, receivedBody, ih, Option.map_some,
        List.flatten_cons, List.append_assoc]

theorem receivedBody_open (chunks : List Bytes) :
    receivedBody (chunks.map (Message.body · true)) = none := by
  induction chunks with
  | nil => rfl
  | cons chunk chunks ih => rw [List.map_cons, receivedBody, ih, Option.map_none]

theorem received_messages (response : Response) :
    received response.messages = some ⟨response.start, response.body⟩ := by
  rw [Response.messages, received, receivedBody_whole]
  rfl

/-! ### Runs of the buffer -/

section Runs

variable (env : Env) (scope : Scope)

theorem wrappedSend_passthrough {buffer : Buffer} (h : buffer.passthrough = true)
    (message : Message) :
    wrappedSend env scope buffer message = some (buffer.send [message]) := by
  simp only [wrappedSend, if_pos h]

theorem wrappedSend_keeps {buffer : Buffer} (hopen : buffer.passthrough = false) {chunk : Bytes}
    (hfits : buffer.size + chunk.length ≤ maxBufferBytes) :
    wrappedSend env scope buffer (.body chunk true) = some (buffer.push chunk) := by
  have hsize : ¬ maxBufferBytes < (buffer.push chunk).size := by
    simp only [Buffer.push]; omega
  simp [wrappedSend, hopen, onBody, hsize]

theorem wrappedSend_flushes {buffer : Buffer} (hopen : buffer.passthrough = false)
    {chunk : Bytes} (hfull : maxBufferBytes < buffer.size + chunk.length) (more : Bool) :
    wrappedSend env scope buffer (.body chunk more) = some (buffer.push chunk).flush := by
  have hsize : maxBufferBytes < (buffer.push chunk).size := hfull
  simp [wrappedSend, hopen, onBody, hsize]

theorem wrappedSend_finishes {buffer : Buffer} {start : Start}
    (hopen : buffer.passthrough = false) (hstart : buffer.start = some start) {chunk : Bytes}
    (hfits : buffer.size + chunk.length ≤ maxBufferBytes) :
    wrappedSend env scope buffer (.body chunk false) = some ((buffer.push chunk).send
      (finish env scope start (buffer.chunks.flatten ++ chunk))) := by
  have hsize : ¬ maxBufferBytes < (buffer.push chunk).size := by
    simp only [Buffer.push]; omega
  have hkept : (buffer.push chunk).start = some start := hstart
  have hbody : (buffer.push chunk).chunks.flatten = buffer.chunks.flatten ++ chunk := by
    simp [Buffer.push]
  simp [wrappedSend, hopen, onBody, hsize, hkept, hbody]

theorem foldlM_passthrough (messages : List Message) {buffer : Buffer}
    (h : buffer.passthrough = true) :
    messages.foldlM (wrappedSend env scope) buffer = some (buffer.send messages) := by
  induction messages generalizing buffer with
  | nil => simp only [List.foldlM_nil, Buffer.send, List.append_nil]; rfl
  | cons message messages ih =>
      have hrest := @ih (buffer.send [message]) h
      rw [List.foldlM_cons, wrappedSend_passthrough env scope h, Option.bind_eq_bind,
        Option.bind_some, hrest]
      simp only [Buffer.send, List.append_assoc, List.cons_append, List.nil_append]

/-- While the body fits, every chunk is kept back. -/
theorem foldlM_buffered (leading : List Bytes) {buffer : Buffer}
    (hopen : buffer.passthrough = false)
    (hsize : buffer.size + leading.flatten.length ≤ maxBufferBytes) :
    (leading.map (Message.body · true)).foldlM (wrappedSend env scope) buffer =
      some { buffer with
        chunks := buffer.chunks ++ leading
        size := buffer.size + leading.flatten.length } := by
  induction leading generalizing buffer with
  | nil => simp
  | cons chunk leading ih =>
      rw [List.flatten_cons, List.length_append] at hsize
      have hrest := @ih (buffer.push chunk) hopen
        (by simp only [Buffer.push]; omega)
      rw [List.map_cons, List.foldlM_cons, wrappedSend_keeps env scope hopen (by omega),
        Option.bind_eq_bind, Option.bind_some, hrest]
      simp [Buffer.push, Nat.add_assoc]

/-- Once the chunks outgrow the buffer, all of them are on their way, and so is the start as
the application wrote it. -/
theorem foldlM_outgrown (leading : List Bytes) {buffer : Buffer} {start : Start}
    (hopen : buffer.passthrough = false) (hstart : buffer.start = some start)
    (hsize : maxBufferBytes < buffer.size + leading.flatten.length)
    (hbefore : buffer.size ≤ maxBufferBytes) :
    ∃ after, (leading.map (Message.body · true)).foldlM (wrappedSend env scope) buffer =
        some after ∧ after.passthrough = true ∧
      after.sent = buffer.sent ++ .start start ::
        (buffer.chunks ++ leading).map (Message.body · true) := by
  induction leading generalizing buffer with
  | nil => simp only [List.flatten_nil, List.length_nil] at hsize; omega
  | cons chunk leading ih =>
      rw [List.flatten_cons, List.length_append] at hsize
      rw [List.map_cons, List.foldlM_cons]
      by_cases hfull : maxBufferBytes < buffer.size + chunk.length
      · rw [wrappedSend_flushes env scope hopen hfull, Option.bind_eq_bind, Option.bind_some]
        refine ⟨_, foldlM_passthrough env scope _ rfl, rfl, ?_⟩
        simp [Buffer.flush, Buffer.push, Buffer.send, hstart]
      · have hrest := @ih (buffer.push chunk) hopen hstart
          (by simp only [Buffer.push]; omega) (by simp only [Buffer.push]; omega)
        rw [wrappedSend_keeps env scope hopen (by omega), Option.bind_eq_bind,
          Option.bind_some]
        simpa [Buffer.push] using hrest

end Runs

/-! ### The four ways of an answer -/

def Scope.IsGet (scope : Scope) : Prop :=
  scope.type = "http" ∧ scope.method = "GET"

instance (scope : Scope) : Decidable scope.IsGet :=
  inferInstanceAs (Decidable (_ ∧ _))

section Calls

variable {env : Env} {scope : Scope} {response : Response}

theorem call_disabled (h : env.settings.edgeCacheEnabled = false) (messages : List Message) :
    call env scope messages = some messages := by
  simp [call, h]

theorem call_enabled (hget : scope.IsGet) (h : env.settings.edgeCacheEnabled = true)
    (messages : List Message) :
    call env scope messages =
      (messages.foldlM (wrappedSend env scope) Buffer.empty).map Buffer.sent := by
  simp [call, h, hget.1, hget.2]

/-- What is kept of a JSON answer while its chunks fit. -/
def Buffer.held (start : Start) (chunks : List Bytes) : Buffer :=
  ⟨some start, chunks, chunks.flatten.length, false, []⟩

theorem foldlM_held (start : Start) {leading : List Bytes}
    (hsize : leading.flatten.length ≤ maxBufferBytes) :
    (leading.map (Message.body · true)).foldlM (wrappedSend env scope) (Buffer.held start []) =
      some (Buffer.held start leading) := by
  have hrun := @foldlM_buffered env scope leading (Buffer.held start []) rfl
    (by rwa [Buffer.held, List.flatten_nil, List.length_nil, Nat.zero_add])
  rw [hrun, Buffer.held, List.nil_append, List.flatten_nil, List.length_nil, Nat.zero_add]
  rfl

theorem call_json (hget : scope.IsGet) (h : env.settings.edgeCacheEnabled = true)
    (hjson : response.start.isJson env.headers = true) :
    call env scope response.messages =
      (((response.leading.map (Message.body · true)).foldlM (wrappedSend env scope)
        (Buffer.held response.start [])).bind fun buffer =>
          wrappedSend env scope buffer (.body response.last false)).map Buffer.sent := by
  have hstart : wrappedSend env scope Buffer.empty (.start response.start) =
      some (Buffer.held response.start []) := by
    simp [wrappedSend, Buffer.empty, onStart, hjson, Buffer.held]
  rw [call_enabled hget h, Response.messages, List.foldlM_cons, hstart, Option.bind_eq_bind,
    Option.bind_some, List.foldlM_append]
  simp

/-- Not a 200 with JSON: the body goes through as it is. -/
theorem call_other (hget : scope.IsGet) (h : env.settings.edgeCacheEnabled = true)
    (hjson : response.start.isJson env.headers = false) :
    ∃ raw, call env scope response.messages =
      some { response with start := { response.start with headers := raw } }.messages := by
  have hstart : wrappedSend env scope Buffer.empty (.start response.start) =
      some (onStart env Buffer.empty response.start) := by
    simp [wrappedSend, Buffer.empty]
  have hpass : (onStart env Buffer.empty response.start).passthrough = true := by
    simp [onStart, hjson]
  rw [call_enabled hget h, Response.messages, List.foldlM_cons, hstart, Option.bind_eq_bind,
    Option.bind_some, foldlM_passthrough env scope _ hpass, Option.map_some]
  simp only [onStart, hjson, Bool.false_eq_true, if_false]
  exact ⟨_, rfl⟩

theorem call_small (hget : scope.IsGet) (h : env.settings.edgeCacheEnabled = true)
    (hjson : response.start.isJson env.headers = true)
    (hsize : response.body.length ≤ maxBufferBytes) :
    call env scope response.messages =
      some (finish env scope response.start response.body) := by
  rw [Response.body, List.length_append] at hsize
  rw [call_json hget h hjson, foldlM_held _ (by omega), Option.bind_some,
    wrappedSend_finishes env scope rfl rfl (by simpa only [Buffer.held] using hsize)]
  simp [Buffer.send, Buffer.push, Buffer.held, Response.body]

/-- The last chunk outgrows the buffer: it is announced as one that others follow. -/
theorem call_late (hget : scope.IsGet) (h : env.settings.edgeCacheEnabled = true)
    (hjson : response.start.isJson env.headers = true)
    (hlead : response.leading.flatten.length ≤ maxBufferBytes)
    (hsize : maxBufferBytes < response.body.length) :
    call env scope response.messages = some (.start response.start ::
      (response.leading ++ [response.last]).map (Message.body · true)) := by
  rw [Response.body, List.length_append] at hsize
  rw [call_json hget h hjson, foldlM_held _ hlead, Option.bind_some,
    wrappedSend_flushes env scope rfl (by simpa only [Buffer.held] using hsize)]
  simp [Buffer.flush, Buffer.send, Buffer.push, Buffer.held]

theorem call_early (hget : scope.IsGet) (h : env.settings.edgeCacheEnabled = true)
    (hjson : response.start.isJson env.headers = true)
    (hlead : maxBufferBytes < response.leading.flatten.length) :
    call env scope response.messages = some response.messages := by
  obtain ⟨after, hrun, hpass, hsent⟩ := @foldlM_outgrown env scope response.leading
    (Buffer.held response.start []) response.start rfl rfl
    (by rwa [Buffer.held, List.flatten_nil, List.length_nil, Nat.zero_add]) (Nat.zero_le _)
  rw [call_json hget h hjson, hrun, Option.bind_some, wrappedSend_passthrough env scope hpass,
    Option.map_some, Buffer.send, hsent]
  simp [Buffer.held, Response.messages]

end Calls

/-! ### What the client gets -/

/-- Credentials with the request, or a path that no rule lists. -/
def Private (env : Env) (scope : Scope) : Prop :=
  hasAdminCredentials env.settings scope.headers = true ∨ listed scope.path = false

def Start.IsPrivate (headers : MutableHeaders) (start : Start) : Prop :=
  headers.get start.headers "cache-control" = some privateNoStore

/-- The answer itself, or a 304 without a body for a request that names its tag. -/
def Transparent (env : Env) (scope : Scope) (response : Response) (r : Received) : Prop :=
  (r.start.status = response.start.status ∧ r.body = response.body) ∨
    (r.start.status = 304 ∧ r.body = [] ∧ Named scope (etag env response.body))

def Served (env : Env) (scope : Scope) (response : Response) (out : Option (List Message)) :
    Prop :=
  ∃ r, out.bind received = some r ∧ Transparent env scope response r ∧
    (response.start.isJson env.headers = true → Private env scope →
      r.start.IsPrivate env.headers)

/-- When the middleware does what it is for. -/
def Kept (env : Env) (scope : Scope) (response : Response) : Prop :=
  response.start.isJson env.headers = true →
    if env.settings.edgeCacheEnabled = false then
      Private env scope → response.start.IsPrivate env.headers
    else if response.body.length ≤ maxBufferBytes then
      Private env scope → lower (edgeHeader env.settings) ≠ "cache-control"
    else
      maxBufferBytes < response.leading.flatten.length ∧
        (Private env scope → response.start.IsPrivate env.headers)

theorem served_unchanged_iff (env : Env) (scope : Scope) (response : Response) :
    Served env scope response (some response.messages) ↔
      (response.start.isJson env.headers = true → Private env scope →
        response.start.IsPrivate env.headers) := by
  constructor
  · rintro ⟨r, hr, -, hprivate⟩
    rw [Option.bind_some, received_messages, Option.some_inj] at hr
    subst hr
    exact hprivate
  · intro h
    exact ⟨_, received_messages response, .inl ⟨rfl, rfl⟩, h⟩

theorem requestPolicy_eq_none {env : Env} {scope : Scope} (h : Private env scope) :
    requestPolicy env scope = none := by
  unfold requestPolicy
  split
  · rfl
  · cases h with
    | inl hcredentials => contradiction
    | inr hpath => exact policyFor_eq_none hpath env scope.queryString

/-- A private answer keeps its rule unless the rule for the CDN goes in the same header. -/
theorem get_cachingHeaders {env : Env} {scope : Scope} (h : Private env scope) (raw : Raw) :
    env.headers.get (cachingHeaders env scope raw) "cache-control" =
      if lower (edgeHeader env.settings) = "cache-control" then none
      else some privateNoStore := by
  have hname : lower "cache-control" = "cache-control" := by decide +kernel
  have hwritten : lower "Cache-Control" = "cache-control" := by decide +kernel
  have hset : env.headers.get (env.headers.set raw "Cache-Control" privateNoStore)
      "cache-control" = some privateNoStore := by
    rw [env.headers.get_set, if_pos (by rw [hname, hwritten])]
  simp only [cachingHeaders, requestPolicy_eq_none h]
  by_cases hedge : lower (edgeHeader env.settings) = "cache-control"
  · rw [if_pos hedge, hedge, hset, Option.isSome_some, if_pos rfl, env.headers.get_del,
      if_pos (by rw [hname, hedge])]
  · rw [if_neg hedge]
    split
    · rw [env.headers.get_del, if_neg (by rw [hname]; exact Ne.symm hedge), hset]
    · exact hset

theorem get_discard {headers : MutableHeaders} {name key : String} (h : lower key ≠ lower name)
    (raw : Raw) : headers.get (headers.discard raw name) key = headers.get raw key := by
  unfold MutableHeaders.discard
  split
  · rw [headers.get_del, if_neg h]
  · rfl

theorem get_bare {headers : MutableHeaders} {key : String} {names : List String}
    (h : ∀ name ∈ names, lower key ≠ lower name) (raw : Raw) :
    headers.get (names.foldl headers.discard raw) key = headers.get raw key := by
  induction names generalizing raw with
  | nil => rfl
  | cons name names ih =>
      rw [List.foldl_cons, ih (fun other hother => h other (List.mem_cons_of_mem _ hother)),
        get_discard (h name List.mem_cons_self)]

/-- What arrives of a body that fits. -/
def finished (env : Env) (scope : Scope) (start : Start) (body : Bytes) : Received :=
  let raw := env.headers.set (cachingHeaders env scope start.headers) "ETag" (etag env body)
  if Named scope (etag env body) then
    ⟨⟨304, ["content-length", "content-type", "content-encoding"].foldl
      env.headers.discard raw⟩, []⟩
  else
    ⟨{ start with headers := raw }, body⟩

theorem received_finish (env : Env) (scope : Scope) (start : Start) (body : Bytes) :
    received (finish env scope start body) = some (finished env scope start body) := by
  simp only [finish, finished]
  split <;> rfl

theorem transparent_finished (env : Env) (scope : Scope) (response : Response) :
    Transparent env scope response (finished env scope response.start response.body) := by
  unfold finished
  by_cases hnamed : Named scope (etag env response.body)
  · rw [if_pos hnamed]
    exact .inr ⟨rfl, rfl, hnamed⟩
  · rw [if_neg hnamed]
    exact .inl ⟨rfl, rfl⟩

theorem get_finished {env : Env} {scope : Scope} (h : Private env scope) (start : Start)
    (body : Bytes) :
    env.headers.get (finished env scope start body).start.headers "cache-control" =
      if lower (edgeHeader env.settings) = "cache-control" then none
      else some privateNoStore := by
  have htag : lower "cache-control" ≠ lower "ETag" := by decide +kernel
  have hbare : ∀ name ∈ ["content-length", "content-type", "content-encoding"],
      lower "cache-control" ≠ lower name := by decide +kernel
  rw [← get_cachingHeaders h start.headers]
  simp only [finished]
  split
  · rw [get_bare hbare, env.headers.get_set, if_neg htag]
  · rw [env.headers.get_set, if_neg htag]

theorem served_finish_iff (env : Env) (scope : Scope) (response : Response) :
    Served env scope response (some (finish env scope response.start response.body)) ↔
      (response.start.isJson env.headers = true → Private env scope →
        lower (edgeHeader env.settings) ≠ "cache-control") := by
  constructor
  · rintro ⟨r, hr, -, hprivate⟩ hjson h hedge
    rw [Option.bind_some, received_finish, Option.some_inj] at hr
    subst hr
    have hget := hprivate hjson h
    rw [Start.IsPrivate, get_finished h, if_pos hedge] at hget
    cases hget
  · intro h
    refine ⟨_, received_finish .., transparent_finished .., fun hjson hp => ?_⟩
    rw [Start.IsPrivate, get_finished hp, if_neg (h hjson hp)]

theorem not_served_open (env : Env) (scope : Scope) (response : Response) (start : Start)
    (chunks : List Bytes) :
    ¬ Served env scope response
      (some (.start start :: chunks.map (Message.body · true))) := by
  rintro ⟨r, hr, -⟩
  rw [Option.bind_some, received, receivedBody_open] at hr
  cases hr

/-- A GET is served as it should be unless a JSON body outgrows the buffer with its last
chunk, or outgrows it sooner without being private by itself. -/
theorem served_iff_kept {env : Env} {scope : Scope} (hget : scope.IsGet) (response : Response) :
    Served env scope response (call env scope response.messages) ↔
      Kept env scope response := by
  cases henabled : env.settings.edgeCacheEnabled with
  | false =>
      rw [call_disabled henabled, served_unchanged_iff, Kept, if_pos henabled]
  | true =>
      cases hjson : response.start.isJson env.headers with
      | false =>
          have hnot : ¬ response.start.isJson env.headers = true := by simp [hjson]
          obtain ⟨raw, hcall⟩ := call_other hget henabled hjson
          refine iff_of_true ?_ fun h => absurd h hnot
          exact ⟨_, by rw [hcall, Option.bind_some, received_messages], .inl ⟨rfl, rfl⟩,
            fun h => absurd h hnot⟩
      | true =>
          rw [Kept, if_neg (by rw [henabled]; decide)]
          by_cases hsmall : response.body.length ≤ maxBufferBytes
          · rw [if_pos hsmall, call_small hget henabled hjson hsmall, served_finish_iff]
          · rw [if_neg hsmall]
            by_cases hlead : response.leading.flatten.length ≤ maxBufferBytes
            · rw [call_late hget henabled hjson hlead (by omega)]
              refine iff_of_false (not_served_open env scope response _ _) fun h => ?_
              have hearly := (h hjson).1
              omega
            · rw [call_early hget henabled hjson (by omega), served_unchanged_iff]
              have hearly : maxBufferBytes < response.leading.flatten.length := by omega
              exact forall_congr' fun _ => (and_iff_right hearly).symm

/-! ### A body of one chunk -/

/-- Headers in the order they were set, the last one of a name counting. -/
def plainHeaders : MutableHeaders where
  get raw name := (raw.find? fun header => lower header.1 = lower name).map Prod.snd
  set raw name value := (name, value) :: raw.filter fun header => lower header.1 ≠ lower name
  del raw name := raw.filter fun header => lower header.1 ≠ lower name
  get_set raw name value key := by
    by_cases h : lower key = lower name
    · simp [h]
    · have hfirst : ¬ lower name = lower key := fun heq => h heq.symm
      rw [if_neg h, List.find?_cons_of_neg (by simpa using hfirst), List.find?_filter]
      congr 2
      funext header
      by_cases hheader : lower header.1 = lower key <;> simp [hheader, h]
  get_del raw name key := by
    by_cases h : lower key = lower name
    · rw [if_pos h, List.find?_filter, Option.map_eq_none_iff, List.find?_eq_none]
      intro header _
      simp [h]
    · rw [if_neg h, List.find?_filter]
      congr 2
      funext header
      by_cases hheader : lower header.1 = lower key <;> simp [hheader, h]

def plainEnv : Env where
  settings := ⟨true, "CDN-Cache-Control", "X-Admin-Key"⟩
  headers := plainHeaders
  parseQs _ _ := none
  hexdigest _ := "000000000000000000000000"
  settled := []

def plainGet : Scope := ⟨"http", "GET", "/api/events/search", "", []⟩

/-- JSON sent in one piece. -/
def onePiece (body : Bytes) : Response :=
  ⟨⟨200, [("content-type", "application/json")]⟩, [], body⟩

theorem served_iff_kept_plain :
    Served plainEnv plainGet (onePiece [123, 125])
        (call plainEnv plainGet (onePiece [123, 125]).messages) ↔
      Kept plainEnv plainGet (onePiece [123, 125]) :=
  served_iff_kept ⟨rfl, rfl⟩ (onePiece [123, 125])

/-- One byte more than the buffer holds. -/
def largeBody : Bytes :=
  List.replicate (maxBufferBytes + 1) 0

theorem length_largeBody : largeBody.length = maxBufferBytes + 1 :=
  List.length_replicate

theorem largeBody_never_ends :
    ¬ Served plainEnv plainGet (onePiece largeBody)
      (call plainEnv plainGet (onePiece largeBody).messages) := by
  have hjson : (onePiece largeBody).start.isJson plainEnv.headers = true := by
    change (onePiece []).start.isJson plainEnv.headers = true
    decide +kernel
  have hsize : maxBufferBytes < (onePiece largeBody).body.length := by
    change maxBufferBytes < ([] ++ largeBody).length
    rw [List.nil_append, length_largeBody]
    exact Nat.lt_succ_self _
  rw [call_late ⟨rfl, rfl⟩ rfl hjson (Nat.zero_le _) hsize]
  exact not_served_open plainEnv plainGet _ _ _

end Frcmob.EdgeCache
