import Frcmob.Rooms.Access

/-!
A room token belongs to its room. Two calls share one refresh whatever rooms they are for, and a
response moves the page to another room without a new generation, so that a request for the
room that is left may still come under the current one.
-/

namespace Frcmob.RoomAccess
open Transition Reports

/-- The scout was in the request's room since it was sent and is no longer. -/
def Request.Left (request : Request) (page : Page) : Prop :=
  request.wasIn = true ∧ activeKey page.activeRoom ≠ request.roomKey

/-- What a call comes to was issued for its room, and a response for a room that the scout has
left changes nothing that is seen of rooms. -/
structure OwnRoom (page : Page) : Prop where
  returned : ∀ returned ∈ page.returned, returned.token ≠ "" →
    page.Issued returned.token returned.roomKey
  left : ∀ request ∈ page.requests, request.Left page → ∀ response t,
    pageStep page (.respond request.id response) = some t →
      t.activeRoom = page.activeRoom ∧ t.entries = page.entries

/-- A refresh that is on its way is for the room of the call. -/
def Page.SharesOwn (page : Page) (closure : Render) (roomKey : String) : Prop :=
  let normalizedRoomKey := normalizeRoomKey roomKey
  normalizedRoomKey ≠ "" ∧ closure.hasScoutProfile = true →
    ∀ refresh ∈ page.refreshing, ∀ request ∈ page.requests.rows, request.id = refresh →
      request.roomKey = normalizedRoomKey

instance (page : Page) (closure : Render) (roomKey : String) :
    Decidable (page.SharesOwn closure roomKey) :=
  inferInstanceAs (Decidable (_ ∧ _ → _))

/-- A call that finds a refresh on its way finds one for its own room, and when a response moves
the page to another room no other request of its generation is for the room that is left. -/
def Kept (page : Page) : PageAction → Prop
  | .refreshRoomAccessSession closure roomKey => page.SharesOwn closure roomKey
  | .ensureRoomAccessToken closure roomKey =>
      (resolveRoomAccessToken closure page.stored page.nowMs roomKey).2 = "" →
        page.SharesOwn closure roomKey
  | .respond id response => ∀ request ∈ page.requests.rows, request.id = id →
      request.generation = page.joinGen →
      normalizeRoomKey response.room.roomKey ≠ activeKey page.activeRoom →
      activeKey page.activeRoom ≠ "" → ∀ other ∈ page.requests.rows, other.id ≠ id →
        other.generation = page.joinGen → other.roomKey ≠ activeKey page.activeRoom
  | _ => True

instance (page : Page) : ∀ a, Decidable (Kept page a)
  | .refreshRoomAccessSession closure roomKey =>
      inferInstanceAs (Decidable (page.SharesOwn closure roomKey))
  | .ensureRoomAccessToken _ _ => inferInstanceAs (Decidable (_ → _))
  | .respond _ _ => inferInstanceAs (Decidable (∀ request ∈ page.requests.rows, _))
  | .tick _ | .setScoutProfile _ | .setRoomKeyInput _ | .render | .createOrJoinRoom _ _
  | .restore _ | .leaveRoom _ | .changeScope | .fail _ | .ensureTeamRoom _ _ => isTrue True.intro

/-! ### Tokens that are right for a room -/

section Tokens
variable (P : String → String → Prop)

/-- What is stored under a room's key is right for it. -/
def StoreRight (store : TokenStore) : Prop :=
  ∀ key, normalizeRoomKey key = key → (store key).roomAccessToken ≠ "" →
    P (store key).roomAccessToken key

def PairRight (room : Option ScoutingRoomMeta) (access : Option ScoutingRoomAccess) : Prop :=
  ∀ found, access = some found → found.roomAccessToken ≠ "" →
    P found.roomAccessToken (activeKey room)

end Tokens

theorem normalizeKey_of_roomKey {key : String} (h : normalizeRoomKey key = key) :
    normalizeKey key = key := by
  have hchars : ∀ c ∈ key.toList, isRoomKeyChar c := by
    intro c hc
    rw [← h] at hc
    exact normalizeRoomKey_chars hc
  exact normalizeKey_of_plain (fun c hc => isWhitespace_of_roomKeyChar (hchars c hc))
    fun c hc => toLower_of_roomKeyChar (hchars c hc)

theorem normalizeRoomKey_of_stored {key roomKey : String} (hkey : normalizeRoomKey key = key)
    (h : normalizeKey roomKey = key) : normalizeRoomKey roomKey = key := by
  have hsame : normalizeRoomKey roomKey = normalizeRoomKey key := by
    rw [normalizeRoomKey, normalizeRoomKey, h, normalizeKey_of_roomKey hkey]
  exact hsame.trans hkey

section Store
variable {P : String → String → Prop} {store : TokenStore}

theorem StoreRight.update (h : StoreRight P store) {roomKey : String}
    {access : ScoutingRoomAccess}
    (hright : ∀ key, normalizeRoomKey key = key → roomKey = key → access.roomAccessToken ≠ "" →
      P access.roomAccessToken key) : StoreRight P (Function.update store roomKey access) := by
  intro key hkey
  by_cases heq : key = roomKey
  · subst heq
    rw [Function.update_self]
    exact hright key hkey rfl
  · rw [Function.update_of_ne heq]
    exact h key hkey

theorem StoreRight.drop (h : StoreRight P store) (roomKey : String) :
    StoreRight P (Function.update store roomKey noToken) :=
  h.update fun _ _ _ hne => absurd rfl hne

theorem StoreRight.clearExpired (h : StoreRight P store) (roomKey : String) (nowMs : Nat) :
    StoreRight P (clearExpiredRoomAccessToken store roomKey nowMs) := by
  rw [clearExpiredRoomAccessToken]
  split
  · exact h.drop _
  · exact h

theorem StoreRight.clear (h : StoreRight P store) (roomKey : String) :
    StoreRight P (clearStoredRoomAccessToken store roomKey) := by
  rw [clearStoredRoomAccessToken]
  split
  · exact h
  · exact h.drop _

theorem StoreRight.set (h : StoreRight P store) {roomKey : String} {access : ScoutingRoomAccess}
    (hright : P access.roomAccessToken (normalizeRoomKey roomKey)) :
    StoreRight P (setStoredRoomAccessToken store roomKey access) := by
  rw [setStoredRoomAccessToken]
  split
  · exact h
  · refine h.update fun key hkey heq _ => ?_
    rwa [normalizeRoomKey_of_stored hkey heq] at hright

/-- What is found for a room, and the storage that is left. -/
def FoundRight (P : String → String → Prop) (found : TokenStore × String) (key : String) : Prop :=
  StoreRight P found.1 ∧ (found.2 ≠ "" → P found.2 key)

theorem foundRight_of {token key : String} (h : StoreRight P store)
    (htoken : token ≠ "" → P token key) : FoundRight P (store, token) key :=
  ⟨h, htoken⟩

theorem foundRight_none {key : String} (h : StoreRight P store) : FoundRight P (store, "") key :=
  foundRight_of h fun hne => absurd rfl hne

theorem StoreRight.getStored (h : StoreRight P store) {key : String}
    (hkey : normalizeRoomKey key = key) (nowMs : Nat) :
    FoundRight P (getStoredRoomAccessToken store key nowMs) key := by
  by_cases hempty : key = ""
  · simp only [getStoredRoomAccessToken, normalizeKey_of_roomKey hkey, if_pos hempty]
    exact foundRight_none h
  · simp only [getStoredRoomAccessToken, normalizeKey_of_roomKey hkey, if_neg hempty]
    have hcleared := h.clearExpired key nowMs
    exact foundRight_of hcleared (hcleared key hkey)

theorem StoreRight.resolve (h : StoreRight P store) {closure : Render}
    (hclosure : PairRight P closure.activeRoom closure.activeRoomAccess) (nowMs : Nat)
    (roomKey : String) :
    FoundRight P (resolveRoomAccessToken closure store nowMs roomKey)
      (normalizeRoomKey roomKey) := by
  rw [resolveRoomAccessToken]
  split
  · exact foundRight_none h
  · split
    · rename_i access hfound
      obtain ⟨haccess, hfilter⟩ := Option.filter_eq_some_iff.mp hfound
      simp only [Bool.and_eq_true, decide_eq_true_eq] at hfilter
      refine foundRight_of h fun hne => ?_
      rw [← hfilter.1.2]
      exact hclosure access haccess hne
    · exact h.getStored (normalizeRoomKey_idem roomKey) nowMs

end Store

/-! ### Every token the page holds is right for its room -/

structure Own (P : String → String → Prop) (page : Page) : Prop where
  stored : StoreRight P page.stored
  active : PairRight P page.activeRoom page.activeRoomAccess
  renders : ∀ render ∈ page.renders, PairRight P render.activeRoom render.activeRoomAccess
  closures : ∀ request ∈ page.requests, ∀ closure, request.kind = .refresh closure →
    PairRight P closure.activeRoom closure.activeRoomAccess
  sent : ∀ request ∈ page.requests, request.token ≠ "" → P request.token request.roomKey
  returned : ∀ returned ∈ page.returned, returned.token ≠ "" → P returned.token returned.roomKey

section Own
variable {P Q : String → String → Prop} {page : Page}

theorem PairRight.none (room : Option ScoutingRoomMeta) : PairRight P room none :=
  fun _ heq => absurd heq nofun

theorem Own.mono (h : Own P page) (himp : ∀ token roomKey, P token roomKey → Q token roomKey) :
    Own Q page :=
  ⟨fun key hkey hne => himp _ _ (h.stored key hkey hne),
    fun found heq hne => himp _ _ (h.active found heq hne),
    fun render hrender found heq hne => himp _ _ (h.renders render hrender found heq hne),
    fun request hrequest closure hkind found heq hne =>
      himp _ _ (h.closures request hrequest closure hkind found heq hne),
    fun request hrequest hne => himp _ _ (h.sent request hrequest hne),
    fun returned hreturned hne => himp _ _ (h.returned returned hreturned hne)⟩

theorem Own.withStored (h : Own P page) {stored : TokenStore} (hstored : StoreRight P stored) :
    Own P { page with stored := stored } :=
  ⟨hstored, h.active, h.renders, h.closures, h.sent, h.returned⟩

theorem Own.render (h : Own P page) : Own P page.render := by
  refine ⟨h.stored, h.active, fun render hrender => ?_, h.closures, h.sent, h.returned⟩
  cases List.mem_cons.mp hrender with
  | inl heq => exact heq ▸ h.active
  | inr hold => exact h.renders render hold

theorem Own.return (h : Own P page) {roomKey token : String}
    (htoken : token ≠ "" → P token roomKey) : Own P (page.return roomKey token) := by
  refine ⟨h.stored, h.active, h.renders, h.closures, h.sent, fun returned hreturned => ?_⟩
  cases List.mem_cons.mp hreturned with
  | inl heq => exact heq ▸ htoken
  | inr hold => exact h.returned returned hold

theorem Own.send (h : Own P page) {kind : Kind} {roomKey : String} {found : TokenStore × String}
    (hfound : FoundRight P found roomKey)
    (hkind : ∀ closure, kind = .refresh closure →
      PairRight P closure.activeRoom closure.activeRoomAccess) :
    Own P (page.send kind roomKey found) := by
  refine ⟨hfound.1, h.active, h.renders, fun request hrequest => ?_, fun request hrequest => ?_,
    h.returned⟩
  · cases Table.mem_put.mp hrequest with
    | inl heq => exact heq ▸ hkind
    | inr hold => exact h.closures request hold.1
  · cases Table.mem_put.mp hrequest with
    | inl heq => exact heq ▸ hfound.2
    | inr hold => exact h.sent request hold.1

theorem Own.erase (h : Own P page) (id : Nat) :
    Own P { page with requests := page.requests.erase id } :=
  ⟨h.stored, h.active, h.renders,
    fun request hrequest => h.closures request (Table.mem_erase.mp hrequest).1,
    fun request hrequest => h.sent request (Table.mem_erase.mp hrequest).1, h.returned⟩

theorem Own.settle (h : Own P page) {refresh : Nat} {token : String}
    (htoken : ∀ caller ∈ page.callers, caller.refresh = refresh → token ≠ "" →
      P token caller.roomKey) : Own P (page.settle refresh token) := by
  refine ⟨h.stored, h.active, h.renders, h.closures, h.sent, fun returned hreturned => ?_⟩
  cases List.mem_append.mp hreturned with
  | inl hnew =>
      obtain ⟨caller, hcaller, rfl⟩ := List.mem_map.mp hnew
      obtain ⟨hmem, hrefresh⟩ := List.mem_filter.mp hcaller
      exact htoken caller hmem (of_decide_eq_true hrefresh)
  | inr hold => exact h.returned returned hold

theorem Own.without (h : Own P page) : Own P { page with activeRoomAccess := none } :=
  ⟨h.stored, PairRight.none _, h.renders, h.closures, h.sent, h.returned⟩

theorem mem_setActiveRoom {room : ScoutingRoomMeta} {request : Request} :
    request ∈ (page.setActiveRoom room).requests ↔
      ∃ old ∈ page.requests, old.seenIn (normalizeRoomKey room.roomKey) = request :=
  List.mem_map

theorem Own.setActiveRoom (h : Own P page) (room : ScoutingRoomMeta) :
    Own P { page.setActiveRoom room with activeRoomAccess := none } := by
  refine ⟨h.stored, PairRight.none _, h.renders, fun request hrequest => ?_,
    fun request hrequest => ?_, h.returned⟩
  · obtain ⟨old, hold, rfl⟩ := mem_setActiveRoom.mp hrequest
    exact h.closures old hold
  · obtain ⟨old, hold, rfl⟩ := mem_setActiveRoom.mp hrequest
    exact h.sent old hold

/-- The token is for the room that the page is in now. -/
theorem Own.applyRoomAccess (h : Own P { page with activeRoomAccess := none })
    {joinedRoomKey : String} {access : Option ScoutingRoomAccess}
    (hjoined : normalizeRoomKey joinedRoomKey = activeKey page.activeRoom)
    (haccess : PairRight P page.activeRoom access) :
    Own P (page.applyRoomAccess joinedRoomKey access) := by
  rw [Page.applyRoomAccess]
  split
  · exact h
  · split
    · exact h.withStored (h.stored.clear _)
    · rename_i found hfound
      obtain ⟨hsome, hne⟩ := Option.filter_eq_some_iff.mp hfound
      have hright := haccess found hsome (of_decide_eq_true hne)
      have hstored : StoreRight P
          (setStoredRoomAccessToken page.stored (normalizeRoomKey joinedRoomKey) found) := by
        refine h.stored.set ?_
        rw [normalizeRoomKey_idem, hjoined]
        exact hright
      have hkept := h.withStored hstored
      refine ⟨hkept.stored, fun other heq _ => ?_, hkept.renders, hkept.closures, hkept.sent,
        hkept.returned⟩
      obtain rfl := Option.some_inj.mp heq
      exact hright

theorem Own.withEntries (h : Own P page) (entries : List Entry) :
    Own P { page with entries := entries } :=
  ⟨h.stored, h.active, h.renders, h.closures, h.sent, h.returned⟩

/-- The page takes on the room of a response and the token that came with it. -/
theorem Own.enter (h : Own P page) {joinedRoomKey : String} (entries : List Entry)
    {response : ScoutingRoomStateResponse}
    (hjoined : joinedRoomKey = normalizeRoomKey response.room.roomKey)
    (htoken : PairRight P (some response.room) response.access) :
    Own P (page.enter joinedRoomKey entries response) := by
  have hidem : normalizeRoomKey joinedRoomKey = activeKey (some response.room) := by
    rw [hjoined, normalizeRoomKey_idem]
    rfl
  have hset := h.setActiveRoom response.room
  exact (hset.applyRoomAccess hidem htoken).withEntries _

end Own

/-! ### Requests on their way -/

/-- A request of the current generation for a room that the scout has been in is for the room
that is active. -/
structure Sent (page : Page) : Prop where
  ids : ∀ request ∈ page.requests, request.id < page.nextId
  generations : ∀ request ∈ page.requests, request.generation ≤ page.joinGen
  named : ∀ request ∈ page.requests, ∀ closure, request.kind = .refresh closure →
    request.roomKey ≠ ""
  seen : ∀ request ∈ page.requests, request.wasIn = true → request.roomKey ≠ ""
  left : ∀ request ∈ page.requests, request.generation = page.joinGen → request.wasIn = true →
    request.roomKey = activeKey page.activeRoom

/-- A refresh for this room is on its way. -/
def Page.Refreshes (page : Page) (id : Nat) (roomKey : String) : Prop :=
  ∃ request ∈ page.requests, request.id = id ∧ request.roomKey = roomKey ∧
    ∃ closure, request.kind = .refresh closure

/-- Calls wait for refreshes of their own rooms, apart from those that wait for `done`. -/
structure Waiting (page : Page) (done : Option Nat) : Prop where
  callers : ∀ caller ∈ page.callers, done ≠ some caller.refresh →
    page.Refreshes caller.refresh caller.roomKey
  refreshing : ∀ id, page.refreshing = some id → done ≠ some id →
    ∃ roomKey, page.Refreshes id roomKey

section Flight
variable {page t : Page}

theorem Sent.same (h : Sent page) (hrequests : t.requests = page.requests)
    (hnext : t.nextId = page.nextId) (hgen : t.joinGen = page.joinGen)
    (hactive : t.activeRoom = page.activeRoom) : Sent t := by
  refine ⟨?_, ?_, ?_, ?_, ?_⟩ <;> rw [hrequests]
  · rw [hnext]
    exact h.ids
  · rw [hgen]
    exact h.generations
  · exact h.named
  · exact h.seen
  · rw [hgen, hactive]
    exact h.left

/-- With a new generation, no request is of the current one. -/
theorem Sent.moveOn (h : Sent page) (hrequests : t.requests = page.requests)
    (hnext : t.nextId = page.nextId) (hgen : t.joinGen = page.joinGen + 1) : Sent t := by
  refine ⟨?_, ?_, ?_, ?_, ?_⟩ <;> rw [hrequests]
  · rw [hnext]
    exact h.ids
  · rw [hgen]
    exact fun request hrequest => Nat.le_succ_of_le (h.generations request hrequest)
  · exact h.named
  · exact h.seen
  · intro request hrequest hcurrent
    have := h.generations request hrequest
    omega

theorem Sent.send (h : Sent page) {kind : Kind} {roomKey : String} (found : TokenStore × String)
    (hnamed : ∀ closure, kind = .refresh closure → roomKey ≠ "") :
    Sent (page.send kind roomKey found) := by
  have hwasIn : ∀ key : String, (decide (roomKey ≠ "") && decide (key = roomKey)) = true →
      roomKey ≠ "" ∧ roomKey = key := by
    intro key hin
    simp only [Bool.and_eq_true, decide_eq_true_eq] at hin
    exact ⟨hin.1, hin.2.symm⟩
  refine ⟨fun request hrequest => ?_, fun request hrequest => ?_, fun request hrequest => ?_,
    fun request hrequest => ?_, fun request hrequest => ?_⟩
  · cases Table.mem_put.mp hrequest with
    | inl heq => exact heq ▸ Nat.lt_succ_self _
    | inr hold => exact Nat.lt_succ_of_lt (h.ids request hold.1)
  · cases Table.mem_put.mp hrequest with
    | inl heq => exact heq ▸ Nat.le_refl _
    | inr hold => exact h.generations request hold.1
  · cases Table.mem_put.mp hrequest with
    | inl heq => exact heq ▸ hnamed
    | inr hold => exact h.named request hold.1
  · cases Table.mem_put.mp hrequest with
    | inl heq => exact heq ▸ fun hin => (hwasIn _ hin).1
    | inr hold => exact h.seen request hold.1
  · cases Table.mem_put.mp hrequest with
    | inl heq => exact heq ▸ fun _ hin => (hwasIn _ hin).2
    | inr hold => exact h.left request hold.1

theorem Sent.erase (h : Sent page) (id : Nat) :
    Sent { page with requests := page.requests.erase id } :=
  ⟨fun request hrequest => h.ids request (Table.mem_erase.mp hrequest).1,
    fun request hrequest => h.generations request (Table.mem_erase.mp hrequest).1,
    fun request hrequest => h.named request (Table.mem_erase.mp hrequest).1,
    fun request hrequest => h.seen request (Table.mem_erase.mp hrequest).1,
    fun request hrequest => h.left request (Table.mem_erase.mp hrequest).1⟩

/-- The page is in another room, which no other request of this generation is in the way of. -/
theorem Sent.setActiveRoom (h : Sent page) {room : ScoutingRoomMeta}
    (hmoves : normalizeRoomKey room.roomKey ≠ activeKey page.activeRoom →
      activeKey page.activeRoom ≠ "" → ∀ other ∈ page.requests,
        other.generation = page.joinGen → other.roomKey ≠ activeKey page.activeRoom) :
    Sent (page.setActiveRoom room) := by
  refine ⟨fun request hrequest => ?_, fun request hrequest => ?_, fun request hrequest => ?_,
    fun request hrequest => ?_, fun request hrequest => ?_⟩
  all_goals obtain ⟨old, hold, rfl⟩ := mem_setActiveRoom.mp hrequest
  · exact h.ids old hold
  · exact h.generations old hold
  · exact h.named old hold
  · intro hin
    simp only [Request.seenIn, Bool.or_eq_true, Bool.and_eq_true, decide_eq_true_eq] at hin
    exact hin.elim (h.seen old hold) And.left
  · intro hgen hin
    simp only [Request.seenIn, Bool.or_eq_true, Bool.and_eq_true, decide_eq_true_eq] at hin
    cases hin with
    | inr hnow => exact hnow.2.symm
    | inl hwas =>
        have hroom := h.left old hold hgen hwas
        by_cases hmove : normalizeRoomKey room.roomKey = activeKey page.activeRoom
        · exact hroom.trans hmove.symm
        · have hnamed := h.seen old hold hwas
          rw [hroom] at hnamed
          exact absurd hroom (hmoves hmove hnamed old hold hgen)

theorem applyRoomAccess_eq (page : Page) (roomKey : String) (access : Option ScoutingRoomAccess) :
    ∃ stored kept, page.applyRoomAccess roomKey access =
      { page with stored := stored, activeRoomAccess := kept } := by
  rw [Page.applyRoomAccess]
  split
  · exact ⟨_, _, rfl⟩
  · split
    · exact ⟨_, _, rfl⟩
    · exact ⟨_, _, rfl⟩

theorem enter_eq (page : Page) (joinedRoomKey : String) (entries : List Entry)
    (response : ScoutingRoomStateResponse) :
    ∃ stored kept entries', page.enter joinedRoomKey entries response =
      { page.setActiveRoom response.room with
        stored := stored, activeRoomAccess := kept, entries := entries' } := by
  obtain ⟨stored, kept, heq⟩ :=
    applyRoomAccess_eq (page.setActiveRoom response.room) joinedRoomKey response.access
  rw [Page.enter, heq]
  exact ⟨stored, kept, _, rfl⟩

/-! ### Who waits for which refresh -/

theorem Waiting.same {done : Option Nat} (h : Waiting page done)
    (hrefreshes : ∀ id roomKey, page.Refreshes id roomKey → t.Refreshes id roomKey)
    (hcallers : t.callers = page.callers) (hrefreshing : t.refreshing = page.refreshing) :
    Waiting t done := by
  refine ⟨fun caller hcaller hdone => ?_, fun id hid hdone => ?_⟩
  · rw [hcallers] at hcaller
    exact hrefreshes _ _ (h.callers caller hcaller hdone)
  · rw [hrefreshing] at hid
    obtain ⟨roomKey, hroom⟩ := h.refreshing id hid hdone
    exact ⟨roomKey, hrefreshes _ _ hroom⟩

theorem refreshes_setActiveRoom {id : Nat} {roomKey : String} (room : ScoutingRoomMeta)
    (h : page.Refreshes id roomKey) : (page.setActiveRoom room).Refreshes id roomKey := by
  obtain ⟨request, hmem, hid, hroom, hkind⟩ := h
  exact ⟨_, mem_setActiveRoom.mpr ⟨request, hmem, rfl⟩, hid, hroom, hkind⟩

theorem refreshes_send (hids : ∀ request ∈ page.requests, request.id < page.nextId) {id : Nat}
    {roomKey : String} (h : page.Refreshes id roomKey) (kind : Kind) (sentKey : String)
    (found : TokenStore × String) : (page.send kind sentKey found).Refreshes id roomKey := by
  obtain ⟨request, hmem, hid, hroom, hkind⟩ := h
  refine ⟨request, Table.mem_put_of_ne hmem ?_, hid, hroom, hkind⟩
  exact Nat.ne_of_lt (hids request hmem)

/-- What waits for another request than the one that is over waits on. -/
theorem Waiting.erase (h : Waiting page none) (id : Nat) :
    Waiting { page with requests := page.requests.erase id } (some id) := by
  have hkept : ∀ other roomKey, some id ≠ some other → page.Refreshes other roomKey →
      Page.Refreshes { page with requests := page.requests.erase id } other roomKey := by
    rintro other roomKey hne ⟨request, hmem, rfl, hroom, hkind⟩
    exact ⟨request, Table.mem_erase.mpr ⟨hmem, fun heq => hne (congrArg some heq.symm)⟩, rfl,
      hroom, hkind⟩
  refine ⟨fun caller hcaller hdone => ?_, fun other hother hdone => ?_⟩
  · exact hkept _ _ hdone (h.callers caller hcaller nofun)
  · obtain ⟨roomKey, hroom⟩ := h.refreshing other hother nofun
    exact ⟨roomKey, hkept _ _ hdone hroom⟩

/-- Nothing waits for a join. -/
theorem Waiting.eraseJoin (h : Waiting page none) {request : Request}
    (hrequest : request ∈ page.requests) {activeRoomKey : String}
    (hkind : request.kind = .join activeRoomKey) :
    Waiting { page with requests := page.requests.erase request.id } none := by
  have hnot : ∀ other roomKey, page.Refreshes other roomKey → some request.id ≠ some other := by
    rintro other roomKey ⟨found, hfound, rfl, -, closure, hrefresh⟩ heq
    have hsame : request = found := Table.eq_of_key hrequest hfound (Option.some_inj.mp heq)
    rw [hsame, hrefresh] at hkind
    cases hkind
  have herased := h.erase request.id
  refine ⟨fun caller hcaller _ => ?_, fun other hother _ => ?_⟩
  · exact herased.callers caller hcaller (hnot _ _ (h.callers caller hcaller nofun))
  · obtain ⟨roomKey, hroom⟩ := h.refreshing other hother nofun
    exact herased.refreshing other hother (hnot _ _ hroom)

theorem Waiting.settle {id : Nat} (h : Waiting page (some id)) (token : String) :
    Waiting (page.settle id token) none := by
  refine ⟨fun caller hcaller _ => ?_, fun other hother => absurd hother nofun⟩
  obtain ⟨hmem, hne⟩ := List.mem_filter.mp hcaller
  exact h.callers caller hmem fun heq => of_decide_eq_true hne (Option.some_inj.mp heq).symm

end Flight

/-! ### Steps -/

structure Inv (page : Page) (done : Option Nat := none) : Prop where
  own : Own page.Issued page
  sent : Sent page
  waiting : Waiting page done

section Steps
variable {page t : Page}

/-- Nothing that concerns the requests on their way has changed. -/
theorem Inv.same {done : Option Nat} (h : Inv page done) (hown : Own t.Issued t)
    (hrequests : t.requests = page.requests) (hnext : t.nextId = page.nextId)
    (hgen : t.joinGen = page.joinGen) (hactive : t.activeRoom = page.activeRoom)
    (hcallers : t.callers = page.callers) (hrefreshing : t.refreshing = page.refreshing) :
    Inv t done := by
  refine ⟨hown, h.sent.same hrequests hnext hgen hactive,
    h.waiting.same (fun id roomKey hroom => ?_) hcallers hrefreshing⟩
  rw [Page.Refreshes, hrequests]
  exact hroom

theorem Inv.withStored {done : Option Nat} (h : Inv page done) {stored : TokenStore}
    (hstored : StoreRight page.Issued stored) : Inv { page with stored := stored } done :=
  h.same (h.own.withStored hstored) rfl rfl rfl rfl rfl rfl

theorem Inv.withInput (h : Inv page) (input : String) :
    Inv { page with roomKeyInput := input } :=
  h.same ⟨h.own.stored, h.own.active, h.own.renders, h.own.closures, h.own.sent, h.own.returned⟩
    rfl rfl rfl rfl rfl rfl

theorem Inv.return (h : Inv page) {roomKey token : String}
    (htoken : token ≠ "" → page.Issued token roomKey) : Inv (page.return roomKey token) :=
  h.same (h.own.return htoken) rfl rfl rfl rfl rfl rfl

theorem Inv.addCaller (h : Inv page) {caller : Caller}
    (hroom : page.Refreshes caller.refresh caller.roomKey) :
    Inv { page with callers := caller :: page.callers } := by
  refine ⟨⟨h.own.stored, h.own.active, h.own.renders, h.own.closures, h.own.sent,
    h.own.returned⟩, h.sent.same rfl rfl rfl rfl, fun other hother _ => ?_,
    h.waiting.refreshing⟩
  cases List.mem_cons.mp hother with
  | inl heq =>
      subst heq
      exact hroom
  | inr hold => exact h.waiting.callers other hold nofun

theorem Inv.send (h : Inv page) {kind : Kind} {roomKey : String} {found : TokenStore × String}
    (hfound : FoundRight page.Issued found roomKey)
    (hkind : ∀ closure, kind = .refresh closure →
      PairRight page.Issued closure.activeRoom closure.activeRoomAccess ∧ roomKey ≠ "") :
    Inv (page.send kind roomKey found) :=
  ⟨h.own.send hfound fun closure heq => (hkind closure heq).1,
    h.sent.send found fun closure heq => (hkind closure heq).2,
    h.waiting.same (fun _ _ hroom => refreshes_send h.sent.ids hroom _ _ _) rfl rfl⟩

/-- The call's own refresh goes out. -/
theorem Inv.sendRefresh (h : Inv page) {closure : Render} {roomKey : String}
    {found : TokenStore × String} (hfound : FoundRight page.Issued found roomKey)
    (hright : PairRight page.Issued closure.activeRoom closure.activeRoomAccess)
    (hne : roomKey ≠ "") :
    Inv { page.send (.refresh closure) roomKey found with
      refreshing := some page.nextId
      callers := { roomKey := roomKey, refresh := page.nextId } :: page.callers } := by
  have hsent : Inv (page.send (.refresh closure) roomKey found) := by
    refine h.send hfound fun other heq => ?_
    obtain rfl := Kind.refresh.inj heq
    exact ⟨hright, hne⟩
  have hnew : (page.send (.refresh closure) roomKey found).Refreshes page.nextId roomKey :=
    ⟨_, Table.mem_put_self _ _, rfl, rfl, closure, rfl⟩
  have hcalled := @Inv.addCaller _ hsent ⟨roomKey, page.nextId⟩ hnew
  refine ⟨⟨hcalled.own.stored, hcalled.own.active, hcalled.own.renders, hcalled.own.closures,
    hcalled.own.sent, hcalled.own.returned⟩, hcalled.sent.same rfl rfl rfl rfl,
    hcalled.waiting.callers, fun id hid _ => ?_⟩
  obtain rfl := Option.some_inj.mp hid
  exact ⟨roomKey, hnew⟩

theorem Inv.refresh (h : Inv page) {closure : Render} (hclosure : closure ∈ page.renders)
    {roomKey : String} (hshares : page.SharesOwn closure roomKey) :
    Inv (page.refreshRoomAccessSession closure roomKey) := by
  have hright := h.own.renders closure hclosure
  have hfound := h.own.stored.resolve hright page.nowMs (normalizeRoomKey roomKey)
  rw [normalizeRoomKey_idem] at hfound
  rw [Page.SharesOwn] at hshares
  rw [Page.refreshRoomAccessSession]
  generalize normalizeRoomKey roomKey = key at hfound hshares ⊢
  generalize resolveRoomAccessToken closure page.stored page.nowMs key = found at hfound ⊢
  split
  · exact h.return fun hne => absurd rfl hne
  · rename_i hgoes
    simp only [Bool.or_eq_true, decide_eq_true_eq, Bool.not_eq_true', not_or,
      Bool.not_eq_false] at hgoes
    split
    · rename_i refresh hrefreshing
      obtain ⟨other, request, hmem, hid, -, hkind⟩ := h.waiting.refreshing refresh hrefreshing nofun
      have hroom := hshares hgoes refresh hrefreshing request hmem hid
      exact h.addCaller ⟨request, hmem, hid, hroom, hkind⟩
    · exact h.sendRefresh hfound hright hgoes.1

theorem Inv.ensure (h : Inv page) {closure : Render} (hclosure : closure ∈ page.renders)
    {roomKey : String}
    (hshares : (resolveRoomAccessToken closure page.stored page.nowMs roomKey).2 = "" →
      page.SharesOwn closure roomKey) :
    Inv (page.ensureRoomAccessToken closure roomKey) := by
  have hfound := h.own.stored.resolve (h.own.renders closure hclosure) page.nowMs roomKey
  rw [Page.ensureRoomAccessToken]
  generalize resolveRoomAccessToken closure page.stored page.nowMs roomKey = found
    at hfound hshares ⊢
  have hkept := h.withStored hfound.1
  split
  · exact hkept.return hfound.2
  · rename_i hempty
    exact hkept.refresh hclosure (hshares (not_not.mp hempty))

/-- A join goes out under a new generation. -/
theorem Inv.sendJoin (h : Inv page) (roomKeyInput activeRoomKey : String) {roomKey : String}
    {found : TokenStore × String} (hfound : FoundRight page.Issued found roomKey) :
    Inv ({ page with joinGen := page.joinGen + 1, roomKeyInput := roomKeyInput }.send
      (.join activeRoomKey) roomKey found) := by
  have hmoved : Inv { page with joinGen := page.joinGen + 1, roomKeyInput := roomKeyInput } :=
    ⟨⟨h.own.stored, h.own.active, h.own.renders, h.own.closures, h.own.sent, h.own.returned⟩,
      h.sent.moveOn rfl rfl rfl, h.waiting.same (fun _ _ hroom => hroom) rfl rfl⟩
  exact hmoved.send hfound nofun

theorem Inv.createOrJoin (h : Inv page) {closure : Render} (hclosure : closure ∈ page.renders)
    (overrideRoomKey : Option String) : Inv (page.createOrJoinRoom closure overrideRoomKey) := by
  rw [Page.createOrJoinRoom]
  split
  · have hresolved : ∀ key, normalizeRoomKey key = key → FoundRight page.Issued
        (if key = "" then (page.stored, "")
          else resolveRoomAccessToken closure page.stored page.nowMs key) key := by
      intro key hkey
      split
      · exact foundRight_none h.own.stored
      · have hfound := h.own.stored.resolve (h.own.renders closure hclosure) page.nowMs key
        rwa [hkey] at hfound
    refine h.sendJoin page.roomKeyInput _ (hresolved _ ?_)
    split
    · exact normalizeRoomKey_idem _
    · exact normalizeRoomKey_idem _
  · exact h

theorem Inv.restore (h : Inv page) (storedRoomKey : String) : Inv (page.restore storedRoomKey) := by
  rw [Page.restore]
  split
  · exact h
  · exact h.sendJoin _ _ (h.own.stored.getStored (normalizeRoomKey_idem _) page.nowMs)

theorem Inv.leave (h : Inv page) (closure : Render) : Inv (page.leaveRoom closure) := by
  rw [Page.leaveRoom]
  generalize normalizeRoomKey _ = leavingRoomKey
  have hstored : StoreRight page.Issued (if leavingRoomKey = "" then page.stored
      else clearStoredRoomAccessToken page.stored leavingRoomKey) := by
    split
    · exact h.own.stored
    · exact h.own.stored.clear _
  exact ⟨⟨hstored, PairRight.none _, h.own.renders, h.own.closures, h.own.sent, h.own.returned⟩,
    h.sent.moveOn rfl rfl rfl, h.waiting.same (fun _ _ hroom => hroom) rfl rfl⟩

theorem Inv.enter {done : Option Nat} (h : Inv page done) {joinedRoomKey : String}
    (entries : List Entry) {response : ScoutingRoomStateResponse}
    (hjoined : joinedRoomKey = normalizeRoomKey response.room.roomKey)
    (htoken : PairRight page.Issued (some response.room) response.access)
    (hmoves : normalizeRoomKey response.room.roomKey ≠ activeKey page.activeRoom →
      activeKey page.activeRoom ≠ "" → ∀ other ∈ page.requests,
        other.generation = page.joinGen → other.roomKey ≠ activeKey page.activeRoom) :
    Inv (page.enter joinedRoomKey entries response) done := by
  have hown := h.own.enter entries hjoined htoken
  obtain ⟨stored, kept, entries', heq⟩ := enter_eq page joinedRoomKey entries response
  rw [heq] at hown ⊢
  refine ⟨hown, (h.sent.setActiveRoom hmoves).same rfl rfl rfl rfl, h.waiting.same ?_ rfl rfl⟩
  exact fun _ _ hroom => refreshes_setActiveRoom response.room hroom

theorem Inv.settle {id : Nat} (h : Inv page (some id)) {token : String}
    (htoken : ∀ caller ∈ page.callers, caller.refresh = id → token ≠ "" →
      page.Issued token caller.roomKey) : Inv (page.settle id token) :=
  ⟨h.own.settle htoken, h.sent.same rfl rfl rfl rfl, h.waiting.settle token⟩

/-- The tokens that are issued are more. -/
theorem Inv.issue {done : Option Nat} (h : Inv page done) (roomKey token : String) :
    Inv (page.issue roomKey token) done := by
  have hown := h.own.mono (Q := (page.issue roomKey token).Issued)
    fun _ _ hissued => List.mem_cons_of_mem _ hissued
  exact h.same ⟨hown.stored, hown.active, hown.renders, hown.closures, hown.sent, hown.returned⟩
    rfl rfl rfl rfl rfl rfl

/-- The callers of a refresh are for its room. -/
theorem caller_room (h : Inv page) {request : Request} (hrequest : request ∈ page.requests)
    {caller : Caller} (hcaller : caller ∈ page.callers) (hid : caller.refresh = request.id) :
    caller.roomKey = request.roomKey := by
  obtain ⟨found, hfound, hfoundId, hroom, -⟩ := h.waiting.callers caller hcaller nofun
  have hsame : found = request := Table.eq_of_key hfound hrequest (hfoundId.trans hid)
  rw [← hroom, hsame]

theorem pairRight_response (page : Page) (response : ScoutingRoomStateResponse) :
    PairRight (page.issue response.room.roomKey response.token).Issued (some response.room)
      response.access := by
  intro found hfound _
  have htoken : response.token = found.roomAccessToken := by
    rw [ScoutingRoomStateResponse.token, hfound]
    rfl
  rw [← htoken]
  exact List.mem_cons_self

theorem Inv.joined (h : Inv page) {request : Request} {activeRoomKey : String}
    {response : ScoutingRoomStateResponse}
    (htoken : PairRight page.Issued (some response.room) response.access)
    (hmoves : request.generation = page.joinGen →
      normalizeRoomKey response.room.roomKey ≠ activeKey page.activeRoom →
      activeKey page.activeRoom ≠ "" → ∀ other ∈ page.requests,
        other.generation = page.joinGen → other.roomKey ≠ activeKey page.activeRoom) :
    Inv (page.joined request activeRoomKey response) := by
  rw [Page.joined]
  split
  · exact h
  · rename_i hgen
    exact (h.enter _ rfl htoken (hmoves (not_not.mp hgen))).withInput _

theorem Inv.refreshed {request : Request} (h : Inv page (some request.id)) {closure : Render}
    {response : ScoutingRoomStateResponse}
    (hclosure : PairRight page.Issued closure.activeRoom closure.activeRoomAccess)
    (hroom : normalizeRoomKey response.room.roomKey = request.roomKey)
    (hcallers : ∀ caller ∈ page.callers, caller.refresh = request.id →
      caller.roomKey = request.roomKey)
    (htoken : PairRight page.Issued (some response.room) response.access)
    (hmoves : request.generation = page.joinGen →
      normalizeRoomKey response.room.roomKey ≠ activeKey page.activeRoom →
      activeKey page.activeRoom ≠ "" → ∀ other ∈ page.requests,
        other.generation = page.joinGen → other.roomKey ≠ activeKey page.activeRoom) :
    Inv (page.refreshed request closure response) := by
  have hright : response.token ≠ "" → page.Issued response.token request.roomKey := by
    intro hne
    cases haccess : response.access with
    | none =>
        rw [ScoutingRoomStateResponse.token, haccess] at hne
        exact absurd rfl hne
    | some access =>
        rw [ScoutingRoomStateResponse.token, haccess] at hne ⊢
        rw [← hroom]
        exact htoken access haccess hne
  have hjoined : (if normalizeRoomKey response.room.roomKey = "" then request.roomKey
      else normalizeRoomKey response.room.roomKey) = request.roomKey := by
    rw [hroom, ite_self]
  rw [Page.refreshed]
  simp only [hjoined]
  split
  · refine h.settle fun caller hcaller hid hne => ?_
    rw [hcallers caller hcaller hid]
    exact hright hne
  · rename_i hgen
    obtain ⟨stored, kept, entries, heq⟩ :=
      enter_eq page request.roomKey page.entries response
    have hentered := h.enter page.entries hroom.symm htoken (hmoves (not_not.mp hgen))
    have hsame : ∀ caller ∈ (page.enter request.roomKey page.entries response).callers,
        caller.refresh = request.id → caller.roomKey = request.roomKey := by
      rw [heq]
      exact hcallers
    have hissued : ∀ token roomKey, page.Issued token roomKey →
        (page.enter request.roomKey page.entries response).Issued token roomKey := by
      rw [heq]
      exact fun _ _ hin => hin
    generalize page.enter request.roomKey page.entries response = entered
      at hentered hsame hissued ⊢
    split
    · refine hentered.settle fun caller hcaller hid hne => ?_
      rw [hsame caller hcaller hid]
      exact hissued _ _ (hright hne)
    · have hnormal : normalizeRoomKey request.roomKey = request.roomKey := by
        rw [← hroom, normalizeRoomKey_idem]
      have hclosure' : PairRight entered.Issued closure.activeRoom closure.activeRoomAccess :=
        fun found hfound hne => hissued _ _ (hclosure found hfound hne)
      have hfound := hentered.own.stored.resolve hclosure' entered.nowMs request.roomKey
      rw [hnormal] at hfound
      generalize resolveRoomAccessToken closure entered.stored entered.nowMs request.roomKey = found
        at hfound ⊢
      refine (hentered.withStored hfound.1).settle fun caller hcaller hid hne => ?_
      rw [hsame caller hcaller hid]
      exact hfound.2 hne

/-- A response for the request's own room, which moves the page in no other request's way. -/
theorem Inv.respond (h : Inv page) {request : Request} (hrequest : request ∈ page.requests)
    {response : ScoutingRoomStateResponse} (hanswers : request.answeredBy response = true)
    (hkept : Kept page (.respond request.id response)) : Inv (page.respond request response) := by
  have hissued := h.issue response.room.roomKey response.token
  have htoken := pairRight_response page response
  have hmoves : request.generation = page.joinGen →
      normalizeRoomKey response.room.roomKey ≠ activeKey page.activeRoom →
      activeKey page.activeRoom ≠ "" → ∀ other ∈ page.requests.erase request.id,
        other.generation = page.joinGen → other.roomKey ≠ activeKey page.activeRoom := by
    intro hgen hne hactive other hother
    obtain ⟨hmem, hid⟩ := Table.mem_erase.mp hother
    exact hkept request hrequest rfl hgen hne hactive other hmem hid
  rw [Page.respond]
  cases hkind : request.kind with
  | join activeRoomKey =>
      have herased : Inv { page.issue response.room.roomKey response.token with
          requests := page.requests.erase request.id } :=
        ⟨hissued.own.erase request.id, hissued.sent.erase request.id,
          hissued.waiting.eraseJoin hrequest hkind⟩
      exact herased.joined htoken hmoves
  | refresh closure =>
      have herased : Inv { page.issue response.room.roomKey response.token with
          requests := page.requests.erase request.id } (some request.id) :=
        ⟨hissued.own.erase request.id, hissued.sent.erase request.id,
          hissued.waiting.erase request.id⟩
      have hnamed := h.sent.named request hrequest closure hkind
      have hroom : normalizeRoomKey response.room.roomKey = request.roomKey := by
        simp only [Request.answeredBy, Bool.or_eq_true, decide_eq_true_eq] at hanswers
        exact hanswers.resolve_left hnamed
      exact herased.refreshed (hissued.own.closures request hrequest closure hkind) hroom
        (fun caller hcaller hid => caller_room h hrequest hcaller hid) htoken hmoves

theorem Inv.fail (h : Inv page) {request : Request} (hrequest : request ∈ page.requests) :
    Inv (page.fail request) := by
  rw [Page.fail]
  cases hkind : request.kind with
  | join activeRoomKey =>
      exact ⟨h.own.erase request.id, h.sent.erase request.id,
        h.waiting.eraseJoin hrequest hkind⟩
  | refresh closure =>
      have herased : Inv { page with requests := page.requests.erase request.id }
          (some request.id) :=
        ⟨h.own.erase request.id, h.sent.erase request.id, h.waiting.erase request.id⟩
      exact herased.settle fun _ _ _ hne => absurd rfl hne

theorem Inv.ensureTeamRoom (h : Inv page) (roomKey : String) (access : ScoutingRoomAccess) :
    Inv (page.ensureTeamRoom roomKey access) := by
  rw [Page.ensureTeamRoom]
  split
  · have hissued := h.issue roomKey access.roomAccessToken
    exact hissued.withStored (hissued.own.stored.set List.mem_cons_self)
  · exact h

end Steps

theorem inv_step (page : Page) (a : PageAction) (t : Page) (h : Inv page) (hkept : Kept page a)
    (hstep : pageStep page a = some t) : Inv t := by
  cases a with
  | tick _ | setScoutProfile _ =>
      obtain rfl := Option.some_inj.mp hstep
      exact h.same ⟨h.own.stored, h.own.active, h.own.renders, h.own.closures, h.own.sent,
        h.own.returned⟩ rfl rfl rfl rfl rfl rfl
  | setRoomKeyInput input =>
      obtain rfl := Option.some_inj.mp hstep
      exact h.withInput input
  | render =>
      obtain rfl := Option.some_inj.mp hstep
      exact h.same h.own.render rfl rfl rfl rfl rfl rfl
  | refreshRoomAccessSession closure roomKey =>
      rw [pageStep, Option.ite_none_right_eq_some] at hstep
      obtain rfl := Option.some_inj.mp hstep.2
      exact h.refresh hstep.1 hkept
  | ensureRoomAccessToken closure roomKey =>
      rw [pageStep, Option.ite_none_right_eq_some] at hstep
      obtain rfl := Option.some_inj.mp hstep.2
      exact h.ensure hstep.1 hkept
  | createOrJoinRoom closure overrideRoomKey =>
      rw [pageStep, Option.ite_none_right_eq_some] at hstep
      obtain rfl := Option.some_inj.mp hstep.2
      exact h.createOrJoin hstep.1 overrideRoomKey
  | restore storedRoomKey =>
      obtain rfl := Option.some_inj.mp hstep
      exact h.restore storedRoomKey
  | leaveRoom closure =>
      rw [pageStep, Option.ite_none_right_eq_some] at hstep
      obtain rfl := Option.some_inj.mp hstep.2
      exact h.leave closure
  | changeScope =>
      obtain rfl := Option.some_inj.mp hstep
      exact ⟨⟨h.own.stored, h.own.active, h.own.renders, h.own.closures, h.own.sent,
        h.own.returned⟩, h.sent.moveOn rfl rfl rfl,
        h.waiting.same (fun _ _ hroom => hroom) rfl rfl⟩
  | respond id response =>
      obtain ⟨request, hfound, rfl⟩ := Option.map_eq_some_iff.mp hstep
      obtain ⟨hget, hanswers⟩ := Option.filter_eq_some_iff.mp hfound
      obtain ⟨hmem, rfl⟩ := Table.get?_eq_some.mp hget
      exact h.respond hmem hanswers hkept
  | fail id =>
      obtain ⟨request, hget, rfl⟩ := Option.map_eq_some_iff.mp hstep
      obtain ⟨hmem, rfl⟩ := Table.get?_eq_some.mp hget
      exact h.fail hmem
  | ensureTeamRoom roomKey access =>
      obtain rfl := Option.some_inj.mp hstep
      exact h.ensureTeamRoom roomKey access

theorem inv_start {page : Page} (h : pageSystem.start page) : Inv page := by
  obtain ⟨heq, hstored⟩ := h
  rw [heq]
  refine ⟨⟨hstored, PairRight.none _, nofun, fun request hrequest => ?_,
    fun request hrequest => ?_, nofun⟩, ⟨?_, ?_, ?_, ?_, ?_⟩, ⟨nofun, nofun⟩⟩
  · exact absurd hrequest (Table.notMem_empty request)
  · exact absurd hrequest (Table.notMem_empty request)
  all_goals exact fun request hrequest => absurd hrequest (Table.notMem_empty request)

theorem inv_reachable {page : Page} (h : ReachableWhen pageSystem Kept page) : Inv page :=
  h.invariant (fun _ => inv_start) inv_step

/-- A response that does not come under the current generation. -/
theorem respond_outdated {page : Page} {request : Request} (response : ScoutingRoomStateResponse)
    (hgen : request.generation ≠ page.joinGen) :
    (page.respond request response).activeRoom = page.activeRoom ∧
      (page.respond request response).entries = page.entries := by
  have hissued : request.generation ≠
      (page.issue response.room.roomKey response.token).joinGen := hgen
  rw [Page.respond]
  cases request.kind with
  | join activeRoomKey =>
      dsimp only
      rw [Page.joined, if_pos hissued]
      exact ⟨rfl, rfl⟩
  | refresh closure =>
      dsimp only
      rw [Page.refreshed, if_pos hissued]
      exact ⟨rfl, rfl⟩

theorem own_room {page : Page} (h : ReachableWhen pageSystem Kept page) : OwnRoom page := by
  have hinv := inv_reachable h
  refine ⟨hinv.own.returned, fun request hrequest hleft response t hstep => ?_⟩
  obtain ⟨found, hfound, rfl⟩ := Option.map_eq_some_iff.mp hstep
  obtain ⟨hget, -⟩ := Option.filter_eq_some_iff.mp hfound
  obtain ⟨hmem, hid⟩ := Table.get?_eq_some.mp hget
  obtain rfl : found = request := Table.eq_of_key hmem hrequest hid
  refine respond_outdated response fun hgen => hleft.2 ?_
  exact (hinv.sent.left found hrequest hgen hleft.1).symm

/-- What a request carries was issued for its room. -/
theorem sent_token_own {page : Page} (h : ReachableWhen pageSystem Kept page) {request : Request}
    (hrequest : request ∈ page.requests) (hne : request.token ≠ "") :
    page.Issued request.token request.roomKey :=
  (inv_reachable h).own.sent request hrequest hne

/-! A scout goes from one room to another. -/

def answer (roomKey token : String) : ScoutingRoomStateResponse where
  room := { roomKey := roomKey }
  access := some { roomAccessToken := token }

/-- The page in its first room. -/
def inAlpha : Render where
  activeRoom := some { roomKey := "alpha" }
  activeRoomAccess := some { roomAccessToken := "a1" }
  roomKeyInput := "alpha"

def joinAlpha : List PageAction :=
  [.render, .createOrJoinRoom {} (some "alpha"), .respond 0 (answer "alpha" "a1"), .render]

/-- A refresh of the first room comes to its end in the second. -/
def switchedRun : List PageAction :=
  joinAlpha ++ [.refreshRoomAccessSession inAlpha "alpha", .ensureRoomAccessToken inAlpha "alpha",
    .createOrJoinRoom inAlpha (some "beta"), .respond 2 (answer "beta" "b1"),
    .respond 1 (answer "alpha" "a2")]

theorem emptyPage_start : pageSystem.start {} :=
  ⟨rfl, fun _ _ hne => absurd rfl hne⟩

theorem own_room_switched : ∃ page, pageSystem.run {} switchedRun = some page ∧
    page.returned = [⟨"alpha", "a2"⟩, ⟨"alpha", "a1"⟩] ∧
    page.activeRoom = some { roomKey := "beta" } ∧ OwnRoom page :=
  ⟨_, rfl, by decide +kernel, by decide +kernel, own_room (reachableWhen_of_run switchedRun
    (.start emptyPage_start) (by decide +kernel) rfl)⟩

/-- Two rooms' calls share a refresh. -/
def sharedRun : List PageAction :=
  [.render, .ensureRoomAccessToken {} "alpha", .ensureRoomAccessToken {} "beta",
    .respond 0 (answer "alpha" "a1")]

/-- A refresh of the first room goes out while the second is being joined. -/
def takenBackRun : List PageAction :=
  joinAlpha ++ [.createOrJoinRoom inAlpha (some "beta"), .refreshRoomAccessSession inAlpha "alpha",
    .respond 1 (answer "beta" "b1")]

/-- The second room's call comes to the first room's token, and the page goes back to a room
that the scout has left. -/
theorem lent_and_taken_back :
    (∃ page, Reachable pageSystem page ∧
      ∃ returned ∈ page.returned, returned.token ≠ "" ∧
        ¬ page.Issued returned.token returned.roomKey) ∧
    ∃ page t, Reachable pageSystem page ∧ (∃ request ∈ page.requests, request.Left page ∧
      pageStep page (.respond request.id (answer "alpha" "a2")) = some t) ∧
      t.activeRoom ≠ page.activeRoom := by
  refine ⟨⟨_, reachable_of_run sharedRun emptyPage_start rfl, ⟨"beta", "a1"⟩, ?_, ?_, ?_⟩,
    ⟨_, _, reachable_of_run takenBackRun emptyPage_start rfl, ⟨⟨2, .refresh inAlpha, "alpha", "a1",
      2, true⟩, ?_, ⟨?_, ?_⟩, rfl⟩, ?_⟩⟩
  all_goals decide +kernel

end Frcmob.RoomAccess
