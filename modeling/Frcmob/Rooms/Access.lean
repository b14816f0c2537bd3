import Mathlib.Logic.Function.Basic
import Frcmob.Lib.Transition
import Frcmob.Reports.Entries

/-!
The room tokens of the scouting page, cut at its awaits. A call works with the room and the
token of the render that made its functions, which may be an old one, and with the storage and
the refs as they are. Tokens are as `trim` leaves them. The socket's snapshots and the HTTP
polling are left out, and of a room all but its key.
-/

namespace Frcmob.RoomAccess
open Transition Reports

structure ScoutingRoomMeta where
  roomKey : String
deriving DecidableEq

structure ScoutingRoomAccess where
  roomAccessToken : String
  expiresAtUnix : Nat := 0
deriving DecidableEq

structure ScoutingRoomStateResponse where
  room : ScoutingRoomMeta
  entries : List RoomEntryRecord := []
  access : Option ScoutingRoomAccess := none
deriving DecidableEq

def ScoutingRoomAccess.over (access : ScoutingRoomAccess) (nowMs : Nat) : Bool :=
  0 < access.expiresAtUnix && access.expiresAtUnix * 1000 ≤ nowMs

def roomAccessExpired (access : ScoutingRoomAccess) (nowMs : Nat) : Bool :=
  access.roomAccessToken = "" || access.over nowMs

/-! ### Stored tokens -/

/-- The two items of a room in sessionStorage; an item that is not there reads as one that is
empty. -/
abbrev TokenStore := String → ScoutingRoomAccess

def noToken : ScoutingRoomAccess where
  roomAccessToken := ""

def clearExpiredRoomAccessToken (store : TokenStore) (roomKey : String) (nowMs : Nat) :
    TokenStore :=
  let normalized := normalizeKey roomKey
  if normalized ≠ "" ∧ (store normalized).roomAccessToken ≠ "" ∧ (store normalized).over nowMs then
    Function.update store normalized noToken
  else store

def getStoredRoomAccessToken (store : TokenStore) (roomKey : String) (nowMs : Nat) :
    TokenStore × String :=
  let normalized := normalizeKey roomKey
  if normalized = "" then (store, "")
  else
    let cleared := clearExpiredRoomAccessToken store normalized nowMs
    (cleared, (cleared normalized).roomAccessToken)

def setStoredRoomAccessToken (store : TokenStore) (roomKey : String)
    (access : ScoutingRoomAccess) : TokenStore :=
  let normalized := normalizeKey roomKey
  if normalized = "" then store else Function.update store normalized access

def clearStoredRoomAccessToken (store : TokenStore) (roomKey : String) : TokenStore :=
  let normalized := normalizeKey roomKey
  if normalized = "" then store else Function.update store normalized noToken

/-! ### The page -/

/-- What the functions of a render have of the page. -/
structure Render where
  activeRoom : Option ScoutingRoomMeta := none
  activeRoomAccess : Option ScoutingRoomAccess := none
  roomKeyInput : String := ""
  hasScoutProfile : Bool := true
deriving DecidableEq

/-- A join has the key of the room that was active in its render, a refresh its render. -/
inductive Kind
  | join (activeRoomKey : String)
  | refresh (closure : Render)
deriving DecidableEq

/-- A request on its way: the key of its room, empty for a new one, the token it carries, and
whether the scout has been in the room since it was sent. -/
structure Request where
  id : Nat
  kind : Kind
  roomKey : String
  token : String
  generation : Nat
  wasIn : Bool
deriving DecidableEq

/-- A call for a room that waits for a refresh. -/
structure Caller where
  roomKey : String
  refresh : Nat
deriving DecidableEq

structure Returned where
  roomKey : String
  token : String
deriving DecidableEq

/-- `joinGen` and `refreshing` are `roomJoinGenRef` and `roomAccessRefreshPromiseRef`. `issued`
are the tokens the server has given out, each with its room, and `returned` what calls have
come to. -/
structure Page where
  nowMs : Nat := 0
  activeRoom : Option ScoutingRoomMeta := none
  activeRoomAccess : Option ScoutingRoomAccess := none
  roomKeyInput : String := ""
  hasScoutProfile : Bool := true
  entries : List Entry := []
  stored : TokenStore := fun _ => noToken
  joinGen : Nat := 0
  refreshing : Option Nat := none
  nextId : Nat := 0
  requests : Table Request.id := .empty
  callers : List Caller := []
  renders : List Render := []
  issued : List (String × String) := []
  returned : List Returned := []

/-- `normalizeRoomKey(activeRoom?.room_key || '')` -/
def activeKey (activeRoom : Option ScoutingRoomMeta) : String :=
  normalizeRoomKey ((activeRoom.map (·.roomKey)).getD "")

def Page.render (page : Page) : Page :=
  { page with renders := {
      activeRoom := page.activeRoom
      activeRoomAccess := page.activeRoomAccess
      roomKeyInput := page.roomKeyInput
      hasScoutProfile := page.hasScoutProfile } :: page.renders }

def Page.applyRoomAccess (page : Page) (roomKey : String) (access : Option ScoutingRoomAccess) :
    Page :=
  let normalizedRoomKey := normalizeRoomKey roomKey
  if normalizedRoomKey = "" then { page with activeRoomAccess := none }
  else
    match access.filter fun access => access.roomAccessToken ≠ "" with
    | none => { page with
        stored := clearStoredRoomAccessToken page.stored normalizedRoomKey
        activeRoomAccess := none }
    | some access => { page with
        stored := setStoredRoomAccessToken page.stored normalizedRoomKey access
        activeRoomAccess := some access }

def resolveRoomAccessToken (closure : Render) (store : TokenStore) (nowMs : Nat)
    (roomKey : String) : TokenStore × String :=
  let normalizedRoomKey := normalizeRoomKey roomKey
  if normalizedRoomKey = "" then (store, "")
  else
    match closure.activeRoomAccess.filter fun access =>
        access.roomAccessToken ≠ "" && activeKey closure.activeRoom = normalizedRoomKey &&
          !roomAccessExpired access nowMs with
    | some access => (store, access.roomAccessToken)
    | none => getStoredRoomAccessToken store normalizedRoomKey nowMs

/-- A request goes out, with the token that is found for its room. -/
def Page.send (page : Page) (kind : Kind) (roomKey : String) (found : TokenStore × String) :
    Page :=
  { page with
    stored := found.1
    nextId := page.nextId + 1
    requests := page.requests.put {
      id := page.nextId
      kind := kind
      roomKey := roomKey
      token := found.2
      generation := page.joinGen
      wasIn := roomKey ≠ "" && activeKey page.activeRoom = roomKey } }

def Page.return (page : Page) (roomKey token : String) : Page :=
  { page with returned := { roomKey := roomKey, token := token } :: page.returned }

def Page.refreshRoomAccessSession (page : Page) (closure : Render) (roomKey : String) : Page :=
  let normalizedRoomKey := normalizeRoomKey roomKey
  if normalizedRoomKey = "" || !closure.hasScoutProfile then page.return normalizedRoomKey ""
  else
    match page.refreshing with
    | some refresh => { page with
        callers := { roomKey := normalizedRoomKey, refresh := refresh } :: page.callers }
    | none => { page.send (.refresh closure) normalizedRoomKey
          (resolveRoomAccessToken closure page.stored page.nowMs normalizedRoomKey) with
        refreshing := some page.nextId
        callers := { roomKey := normalizedRoomKey, refresh := page.nextId } :: page.callers }

def Page.ensureRoomAccessToken (page : Page) (closure : Render) (roomKey : String) : Page :=
  let resolved := resolveRoomAccessToken closure page.stored page.nowMs roomKey
  if resolved.2 ≠ "" then
    { page with stored := resolved.1 }.return (normalizeRoomKey roomKey) resolved.2
  else { page with stored := resolved.1 }.refreshRoomAccessSession closure roomKey

/-- `createOrJoinRoom` up to its request. -/
def Page.createOrJoinRoom (page : Page) (closure : Render) (overrideRoomKey : Option String) :
    Page :=
  if closure.hasScoutProfile then
    let requestedRoomKey := normalizeRoomKey (overrideRoomKey.getD closure.roomKeyInput)
    let activeRoomKey := activeKey closure.activeRoom
    let resolvedRoomKey := if requestedRoomKey = "" then activeRoomKey else requestedRoomKey
    let found := if resolvedRoomKey = "" then (page.stored, "")
      else resolveRoomAccessToken closure page.stored page.nowMs resolvedRoomKey
    { page with joinGen := page.joinGen + 1 }.send (.join activeRoomKey) resolvedRoomKey found
  else page

/-- The room of the tab's last visit is joined again when the page opens. -/
def Page.restore (page : Page) (storedRoomKey : String) : Page :=
  let roomKey := normalizeRoomKey storedRoomKey
  if roomKey = "" then page
  else { page with joinGen := page.joinGen + 1, roomKeyInput := roomKey }.send (.join "") roomKey
    (getStoredRoomAccessToken page.stored roomKey page.nowMs)

def Page.leaveRoom (page : Page) (closure : Render) : Page :=
  let raw := (closure.activeRoom.map (·.roomKey)).getD ""
  let leavingRoomKey := normalizeRoomKey (if raw = "" then closure.roomKeyInput else raw)
  { page with
    joinGen := page.joinGen + 1
    entries := stripEntriesForRoom page.entries leavingRoomKey
    stored := if leavingRoomKey = "" then page.stored
      else clearStoredRoomAccessToken page.stored leavingRoomKey
    roomKeyInput := ""
    activeRoom := none
    activeRoomAccess := none }

/-! ### Responses -/

/-- The scout is in the room of this key while the request is on its way. -/
def Request.seenIn (request : Request) (key : String) : Request :=
  { request with wasIn := request.wasIn || (request.roomKey ≠ "" && key = request.roomKey) }

/-- `setActiveRoom(room)` -/
def Page.setActiveRoom (page : Page) (room : ScoutingRoomMeta) : Page :=
  { page with
    activeRoom := some room
    requests := page.requests.mapRows (·.seenIn (normalizeRoomKey room.roomKey)) fun _ => rfl }

/-- `String(response.access?.room_access_token || '')` -/
def ScoutingRoomStateResponse.token (response : ScoutingRoomStateResponse) : String :=
  (response.access.map (·.roomAccessToken)).getD ""

/-- The refresh has come to a token for all who wait for it. -/
def Page.settle (page : Page) (refresh : Nat) (token : String) : Page :=
  { page with
    refreshing := none
    returned := (page.callers.filter (·.refresh = refresh)).map
      (fun caller => { roomKey := caller.roomKey, token := token }) ++ page.returned
    callers := page.callers.filter (·.refresh ≠ refresh) }

/-- What both kinds of requests do with a response that comes under its own generation, from
entries that may have lost those of the room that was left. -/
def Page.enter (page : Page) (joinedRoomKey : String) (entries : List Entry)
    (response : ScoutingRoomStateResponse) : Page :=
  { (page.setActiveRoom response.room).applyRoomAccess joinedRoomKey response.access with
    entries := replaceRoomEntries entries joinedRoomKey
      (entriesFromRoomRecords response.entries joinedRoomKey) }

def Page.joined (page : Page) (request : Request) (activeRoomKey : String)
    (response : ScoutingRoomStateResponse) : Page :=
  if request.generation ≠ page.joinGen then page
  else
    let joinedRoomKey := normalizeRoomKey response.room.roomKey
    let switchedRooms := activeRoomKey ≠ "" && joinedRoomKey ≠ "" && activeRoomKey ≠ joinedRoomKey
    let withoutPrevious :=
      if switchedRooms then stripEntriesForRoom page.entries activeRoomKey else page.entries
    { page.enter joinedRoomKey withoutPrevious response with
      roomKeyInput := if joinedRoomKey = "" then response.room.roomKey else joinedRoomKey }

def Page.refreshed (page : Page) (request : Request) (closure : Render)
    (response : ScoutingRoomStateResponse) : Page :=
  let normalized := normalizeRoomKey response.room.roomKey
  let joinedRoomKey := if normalized = "" then request.roomKey else normalized
  if request.generation ≠ page.joinGen then page.settle request.id response.token
  else
    let entered := page.enter joinedRoomKey page.entries response
    if response.token ≠ "" then entered.settle request.id response.token
    else
      let resolved := resolveRoomAccessToken closure entered.stored entered.nowMs joinedRoomKey
      { entered with stored := resolved.1 }.settle request.id resolved.2

def Page.issue (page : Page) (roomKey token : String) : Page :=
  { page with issued := (token, normalizeRoomKey roomKey) :: page.issued }

/-- The response is in. -/
def Page.respond (page : Page) (request : Request) (response : ScoutingRoomStateResponse) : Page :=
  let page := { page.issue response.room.roomKey response.token with
    requests := page.requests.erase request.id }
  match request.kind with
  | .join activeRoomKey => page.joined request activeRoomKey response
  | .refresh closure => page.refreshed request closure response

/-- The request failed, or a restore was cancelled. -/
def Page.fail (page : Page) (request : Request) : Page :=
  let page := { page with requests := page.requests.erase request.id }
  match request.kind with
  | .join _ => page
  | .refresh _ => page.settle request.id ""

/-- `ensureTeamRoom` stores the token it is answered with. -/
def Page.ensureTeamRoom (page : Page) (roomKey : String) (access : ScoutingRoomAccess) : Page :=
  if access.roomAccessToken ≠ "" ∧ roomKey ≠ "" then
    { page.issue roomKey access.roomAccessToken with
      stored := setStoredRoomAccessToken page.stored roomKey access }
  else page

inductive PageAction
  | tick (ms : Nat)
  | setScoutProfile (given : Bool)
  | setRoomKeyInput (input : String)
  | render
  | refreshRoomAccessSession (closure : Render) (roomKey : String)
  | ensureRoomAccessToken (closure : Render) (roomKey : String)
  | createOrJoinRoom (closure : Render) (overrideRoomKey : Option String)
  | restore (storedRoomKey : String)
  | leaveRoom (closure : Render)
  | changeScope
  | respond (id : Nat) (response : ScoutingRoomStateResponse)
  | fail (id : Nat)
  | ensureTeamRoom (roomKey : String) (access : ScoutingRoomAccess)
deriving DecidableEq

/-- The server answers for the room it was asked for. -/
def Request.answeredBy (request : Request) (response : ScoutingRoomStateResponse) : Bool :=
  request.roomKey = "" || normalizeRoomKey response.room.roomKey = request.roomKey

def pageStep (page : Page) : PageAction → Option Page
  | .tick ms => some { page with nowMs := page.nowMs + ms }
  | .setScoutProfile given => some { page with hasScoutProfile := given }
  | .setRoomKeyInput input => some { page with roomKeyInput := input }
  | .render => some page.render
  | .refreshRoomAccessSession closure roomKey =>
      if closure ∈ page.renders then some (page.refreshRoomAccessSession closure roomKey) else none
  | .ensureRoomAccessToken closure roomKey =>
      if closure ∈ page.renders then some (page.ensureRoomAccessToken closure roomKey) else none
  | .createOrJoinRoom closure overrideRoomKey =>
      if closure ∈ page.renders then some (page.createOrJoinRoom closure overrideRoomKey) else none
  | .restore storedRoomKey => some (page.restore storedRoomKey)
  | .leaveRoom closure =>
      if closure ∈ page.renders then some (page.leaveRoom closure) else none
  | .changeScope => some { page with joinGen := page.joinGen + 1 }
  | .respond id response =>
      ((page.requests.get? id).filter (·.answeredBy response)).map (page.respond · response)
  | .fail id => (page.requests.get? id).map page.fail
  | .ensureTeamRoom roomKey access => some (page.ensureTeamRoom roomKey access)

/-- The server gave out this token for this room. -/
def Page.Issued (page : Page) (token roomKey : String) : Prop :=
  (token, roomKey) ∈ page.issued

instance (page : Page) (token roomKey : String) : Decidable (page.Issued token roomKey) :=
  inferInstanceAs (Decidable (_ ∈ _))

/-- The tab may have tokens from before, each under the room it is for. -/
def pageSystem : System Page PageAction where
  start page := page = { entries := page.entries, stored := page.stored, issued := page.issued } ∧
    ∀ key, normalizeRoomKey key = key → (page.stored key).roomAccessToken ≠ "" →
      page.Issued (page.stored key).roomAccessToken key
  step := pageStep

end Frcmob.RoomAccess
