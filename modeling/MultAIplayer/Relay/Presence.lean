import MultAIplayer.Relay.Leaving

/-!
# The presence roster

The roster of a room should list the latest presence of each user and device that a socket in the
room has announced. The roster is kept by device id alone: publishing overwrites the entry of the
device id, whoever announced it, and leaving deletes the entry of the device that the session holds
at that moment, whoever announced it.

## When the roster is right

`AnnouncedRelay` carries, next to the relay, the presences that sockets have announced in the rooms
that they are still in. The roster is a display of this board under the device id, so the library
says when a step leaves it right: `PresenceSafe` is that condition, and from a right roster a step
leads to a right one exactly when it holds (`rosterCorrect_step_iff`).
-/

namespace MultAIplayer

/-- What a presence is latest of. -/
structure PresenceKey where
  room : RoomKey
  userId : String
  deviceId : String
  deriving DecidableEq

/-- The place of a presence in the rosters. -/
def PresenceKey.index (k : PresenceKey) : RoomKey × String := (k.room, k.deviceId)

def PresenceRecord.key (presence : PresenceRecord) : PresenceKey :=
  ⟨presence.room, presence.userId, presence.deviceId⟩

/-- The relay with the presences that are announced. -/
structure AnnouncedRelay where
  relay : LiveRelay := {}
  /-- What sockets have published in the rooms that they are still in, in the order of publication. -/
  announced : List (Post Socket PresenceRecord) := []

namespace AnnouncedRelay

variable (c : RelayConfig) (h : AnnouncedRelay)

@[grind =] def step (a : SocketAction) : AnnouncedRelay × List SocketEvent :=
  let (relay, events) := h.relay.step c a
  (⟨relay, events.foldl observe h.announced⟩, events)

/-- The latest presence that is announced for a user and a device in a room. -/
@[grind =]
def latest (k : PresenceKey) : Option PresenceRecord := Board.latest PresenceRecord.key h.announced k

/-- The announced presences are of sockets that are joined to their rooms, and each roster holds
exactly the latest ones of its room. -/
def RosterCorrect : Prop :=
  (∀ q ∈ h.announced, q.author ∈ h.relay.sockets.members q.value.room) ∧
    ∀ key deviceId presence, (h.relay.sockets.roster key).get deviceId = some presence ↔
      presence.room = key ∧ presence.deviceId = deviceId ∧ h.latest presence.key = some presence

end AnnouncedRelay

/-! ### The condition -/

/-- The sockets that leave in a step, the entries that they look up, and the users whose entries
are deleted. -/
structure Withdrawal where
  leaving : List Socket := []
  lookups : List (RoomKey × String) := []
  users : List String := []

namespace Withdrawal

variable (w : Withdrawal)

def hits (k : PresenceKey) : Bool := decide (k.index ∈ w.lookups) || decide (k.userId ∈ w.users)

/-- Only sockets that leave have announced what is deleted, and what they have announced besides is
not the latest. -/
def Clean (announced : List (Post Socket PresenceRecord)) : Prop :=
  (∀ q ∈ announced, w.hits q.value.key = true → q.author ∈ w.leaving) ∧
    ∀ q ∈ announced, q.author ∈ w.leaving → w.hits q.value.key = false →
      Board.latest PresenceRecord.key (Board.withdraw announced (decide <| · ∈ w.leaving))
          q.value.key =
        Board.latest PresenceRecord.key announced q.value.key

instance (announced : List (Post Socket PresenceRecord)) : Decidable (w.Clean announced) :=
  inferInstanceAs (Decidable (_ ∧ _))

/-- Sockets that leave and look up what their sessions say. -/
def ofLeaving (s : Sockets) (leaving : List Socket) (users : List String) : Withdrawal :=
  ⟨leaving, leaving.filterMap s.lookupOf, users⟩

theorem hits_ofLeaving (s : Sockets) (leaving : List Socket) (users : List String)
    (k : PresenceKey) : (ofLeaving s leaving users).hits k =
      (decide (∃ y ∈ leaving, s.lookupOf y = some k.index) || decide (k.userId ∈ users)) := by
  rw [hits]
  congr 1
  exact decide_eq_decide.mpr List.mem_filterMap

end Withdrawal

namespace LiveRelay

variable (c : RelayConfig) (s : LiveRelay)

/-- The session to which a frame is dispatched. -/
def receiver (socket : Socket) : Option ClientSession :=
  (s.sockets.clients.get socket).filter fun session ↦
    session.isOpen && session.isRegistered && (s.context c).isLiveClientSession session

/-- The sockets in which a join gets to `joinRoom`: its session has the new user and device, and is
still in the old room. -/
def joining (socket : Socket) (session : ClientSession) (teamId roomId userId deviceId : String)
    (inviteId deviceSessionToken : Option String) (saved : List Bool) : Option Sockets :=
  let x := s.context c
  if (x.joinRefusal session teamId roomId userId deviceId inviteId deviceSessionToken).isSome then none
  else
    let decision := x.canJoinRoom session teamId roomId userId deviceId inviteId
    let (s, _, isDone) := performSaves c s decision.saves saved
    let sockets := s.sockets.updateClient socket fun session ↦
      session.identified userId deviceId deviceSessionToken
    if isDone && decision.isAllowed && ((sockets.clients.get socket).bind
        ((s.context c).socketConnectionQuotaError sockets socket)).isNone then some sockets
    else none

/-- What leaves in a step. -/
@[grind =] def withdrawal : SocketAction → Withdrawal
  | .frame socket (.join teamId roomId userId deviceId inviteId deviceSessionToken) saved =>
    match (s.receiver c socket).bind fun session ↦ s.joining c socket session teamId roomId userId
      deviceId inviteId deviceSessionToken saved with
    | some sockets => .ofLeaving sockets [socket] []
    | none => {}
  | .closed socket => .ofLeaving s.sockets [socket] []
  | .revokeTeamMemberSessions teamId userId =>
    .ofLeaving s.sockets (s.sockets.clients.keys.filter (s.sockets.isRevoked teamId userId)) []
  | .revokeUserSessions userId _ =>
    .ofLeaving s.sockets (s.sockets.clients.keys.filter (s.sockets.isOfUser userId)) [userId]
  | .revokeDeletedAccount userId memberTeamIds =>
    .ofLeaving s.sockets (s.sockets.clients.keys.filter fun socket ↦
      memberTeamIds.any fun teamId ↦ s.sockets.isRevoked teamId userId socket) [userId]
  | _ => {}

/-- The presence that is published in a step. -/
@[grind =] def publication : SocketAction → Option PresenceRecord
  | .frame socket (.presence teamId roomId userId deviceId displayName avatarUrl fingerprint) _ =>
    (s.receiver c socket).bind fun session ↦
      let presence :=
        .ofMessage teamId roomId userId deviceId displayName avatarUrl fingerprint
      if ((s.context c).presenceRefusal session presence).isSome then none
      else some ((s.context c).verifiedPresence presence)
  | _ => none

end LiveRelay

/-- A step that leaves a right roster right: what it deletes is only its own, what it leaves behind
is another socket's, and what it overwrites is of the same user. -/
@[grind =] def PresenceSafe (c : RelayConfig) (h : AnnouncedRelay) (a : SocketAction) : Prop :=
  (h.relay.withdrawal c a).Clean h.announced ∧
    ∀ presence ∈ h.relay.publication c a, ∀ q ∈ h.announced,
      q.value.key.index = presence.key.index → q.value.key = presence.key

instance (c : RelayConfig) (h : AnnouncedRelay) (a : SocketAction) :
    Decidable (PresenceSafe c h a) :=
  inferInstanceAs (Decidable (_ ∧ _))

/-! ### What the operations do to the rosters -/

/-- What holds of the sockets between two steps, besides the rosters. -/
structure Placed (s : Sockets) (announced : List (Post Socket PresenceRecord)) : Prop where
  joined : ∀ q ∈ announced,
    s.roomOf q.author = some q.value.room ∧ q.author ∈ s.members q.value.room
  open_joined : ∀ y key, s.isOpenAt y = true → s.roomOf y = some key → y ∈ s.members key

/-- The rosters hold exactly the latest presences that are announced. -/
@[grind =] def RosterShows (s : Sockets) (announced : List (Post Socket PresenceRecord)) : Prop :=
  Board.Shows PresenceRecord.key PresenceKey.index s.presenceAt announced

theorem rosterCorrect_iff {h : AnnouncedRelay} (hplaced : Placed h.relay.sockets h.announced) :
    h.RosterCorrect ↔ RosterShows h.relay.sockets h.announced := by
  have hindex : ∀ (v : PresenceRecord) key deviceId,
      v.key.index = (key, deviceId) ↔ v.room = key ∧ v.deviceId = deviceId := fun v key deviceId ↦
    Prod.mk.injEq .. ▸ Iff.rfl
  constructor
  · rintro ⟨-, hshows⟩ ⟨key, deviceId⟩ v
    rw [hindex, and_assoc]
    exact hshows key deviceId v
  · intro hshows
    refine ⟨fun q hq ↦ (hplaced.joined q hq).2, fun key deviceId v ↦ ?_⟩
    have h := hshows (key, deviceId) v
    rw [hindex, and_assoc] at h
    exact h

theorem RosterShows.stays {s s' : Sockets} {announced : List (Post Socket PresenceRecord)}
    (h : RosterShows s announced) (hstays : Stays s s') : RosterShows s' announced := by
  rw [RosterShows, funext hstays.presenceAt]
  exact h

namespace Placed

variable {s s' : Sockets} {announced : List (Post Socket PresenceRecord)}

theorem stays (h : Placed s announced) (hstays : Stays s s') : Placed s' announced where
  joined := fun q hq ↦ by
    rw [hstays.roomOf, hstays.mem_members]
    exact h.joined q hq
  open_joined := fun y key hy hkey ↦ by
    rw [hstays.roomOf] at hkey
    rw [hstays.mem_members]
    exact h.open_joined y key (hstays.isOpenAt y hy) hkey

/-- A new session is in no room. -/
theorem connect (h : Placed s announced) {socket : Socket} (hnew : s.clients.get socket = none)
    (session : ClientSession) (hroom : session.room = none) :
    Placed { s with clients := s.clients.set socket session } announced := by
  have hroomOf : ∀ y, Sockets.roomOf { s with clients := s.clients.set socket session } y =
      s.roomOf y := by
    intro y
    rw [Sockets.roomOf, Sockets.roomOf]
    dsimp only
    rw [InsertionMap.get_set]
    split_ifs with hy
    · rw [hy, hnew, Option.bind_some, hroom, Option.bind_none]
    · rfl
  refine ⟨fun q hq ↦ ?_, fun y key hy hkey ↦ ?_⟩
  · rw [hroomOf]
    exact h.joined q hq
  · rw [hroomOf] at hkey
    refine h.open_joined y key ?_ hkey
    by_cases hsocket : y = socket
    · rw [hsocket, Sockets.roomOf, hnew] at hkey
      cases hkey
    · rw [Sockets.isOpenAt, InsertionMap.get_set_of_ne _ _ hsocket] at hy
      exact hy

end Placed

namespace Leaves

variable {leaving : List Socket} {s s' t : Sockets} {events : List SocketEvent}
  {announced : List (Post Socket PresenceRecord)}

/-- The sockets that leave withdraw everything that they have announced. -/
theorem withdraw (h : Leaves leaving s s' events) (hplaced : Placed s announced) :
    events.foldl MultAIplayer.observe announced =
      Board.withdraw announced (decide <| · ∈ leaving) := by
  rw [h.observe, Board.withdraw]
  refine List.filter_congr fun q hq ↦ ?_
  simp [(hplaced.joined q hq).1]

/-- Whoever stays is where it was. -/
theorem placed (h : Leaves leaving s s' events) (hplaced : Placed s announced) :
    ∀ q ∈ Board.withdraw announced (decide <| · ∈ leaving),
      s'.roomOf q.author = some q.value.room ∧ q.author ∈ s'.members q.value.room := by
  intro q hq
  obtain ⟨hq, hstays⟩ := List.mem_filter.mp hq
  obtain ⟨hroom, hmember⟩ := hplaced.joined q hq
  refine ⟨(h.roomOf _).trans hroom, (h.mem_members _ _).mpr ⟨hmember, ?_⟩⟩
  rintro ⟨hleaving, -⟩
  simp [hleaving] at hstays

/-- **Leaving, exactly.** When sockets leave and the presences of some users are deleted, a right
roster stays right exactly when the withdrawal is clean. -/
theorem shows_iff (h : Leaves leaving s s' events) (hshows : RosterShows s announced)
    {users : List String} (ht : ∀ c, t.presenceAt c = (s'.presenceAt c).filter fun p ↦ !decide (p.userId ∈ users)) :
    RosterShows t (Board.withdraw announced (decide <| · ∈ leaving)) ↔
      (Withdrawal.ofLeaving s leaving users).Clean announced := by
  have herase : t.presenceAt = Board.erase PresenceRecord.key s.presenceAt
      (Withdrawal.ofLeaving s leaving users).hits := by
    funext c
    rw [ht, h.presenceAt, Board.erase]
    cases hget : s.presenceAt c with
    | none => simp
    | some v =>
      have hhits : (Withdrawal.ofLeaving s leaving users).hits v.key =
          (decide (∃ y ∈ leaving, s.lookupOf y = some c) || decide (v.userId ∈ users)) := by
        rw [Withdrawal.hits_ofLeaving, ((hshows c v).mp hget).1]
        rfl
      by_cases hlookup : ∃ y ∈ leaving, s.lookupOf y = some c
      · simp only [if_pos hlookup, Option.filter_none, Option.filter_some, hhits, decide_eq_true hlookup,
          Bool.true_or, Bool.not_true, Bool.false_eq_true, if_false]
      · simp only [if_neg hlookup, Option.filter_some, hhits, decide_eq_false hlookup, Bool.false_or]
  rw [RosterShows, herase, Board.shows_erase_iff hshows, Withdrawal.Clean]
  simp only [decide_eq_true_eq]
  rfl

end Leaves

/-! ### One step -/

/-- What a step leaves in which some sockets withdraw what they have announced and at most one
presence is published: the sockets are placed, and the rosters are right exactly when a condition
holds. -/
structure Outcome (announced : List (Post Socket PresenceRecord)) (leaving : List Socket)
    (published : Option PresenceRecord) (s' : Sockets)
    (announced' : List (Post Socket PresenceRecord)) (safe : Prop) : Prop where
  placed : Placed s' announced'
  shows_iff : RosterShows s' announced' ↔ safe
  announced_eq : ∃ author, announced' = Board.withdraw announced (decide <| · ∈ leaving) ++
    published.toList.map fun presence ↦ ⟨author, presence⟩

section Steps

variable {x : SocketContext} {s s' : Sockets} {events : List SocketEvent}
  {announced : List (Post Socket PresenceRecord)} {leaving : List Socket}

/-- A step that moves no presence. -/
theorem Outcome.of_still (hplaced : Placed s announced) (hshows : RosterShows s announced)
    (h : Stays s s') (hquiet : Quiet events) {safe : Prop} (hsafe : safe) :
    Outcome announced [] none s' (events.foldl observe announced) safe where
  announced_eq := ⟨0, by simp [hquiet.foldl_observe, Board.withdraw]⟩
  placed := by
    rw [hquiet.foldl_observe]
    exact hplaced.stays h
  shows_iff := by
    rw [hquiet.foldl_observe]
    exact iff_of_true (hshows.stays h) hsafe

/-- Sockets that leave and are closed, or whose sessions go, and users whose entries go. -/
theorem Revokes.outcome (h : Revokes leaving s s' events) (hplaced : Placed s announced)
    (hshows : RosterShows s announced) {users : List String} {t : Sockets}
    {events' : List SocketEvent} (hquiet : Quiet events')
    (hpresence : ∀ c, t.presenceAt c = (s'.presenceAt c).filter fun p ↦ !decide (p.userId ∈ users))
    (hroom : ∀ y, t.roomOf y = s'.roomOf y) (hopen : ∀ y, t.isOpenAt y = true → s'.isOpenAt y = true)
    (hmembers : ∀ key y, y ∈ t.members key ↔ y ∈ s'.members key) :
    Outcome announced leaving none t ((events ++ events').foldl observe announced)
      ((Withdrawal.ofLeaving s leaving users).Clean announced) := by
  rw [List.foldl_append, hquiet.foldl_observe, h.withdraw hplaced]
  refine ⟨⟨fun q hq ↦ ?_, fun y key hy hkey ↦ ?_⟩, h.shows_iff hshows hpresence,
    0, (List.append_nil _).symm⟩
  · rw [hroom, hmembers]
    exact h.placed hplaced q hq
  · have hy := hopen y hy
    rw [hroom, h.roomOf] at hkey
    rw [hmembers, h.mem_members]
    refine ⟨hplaced.open_joined y key (h.isOpenAt y hy) hkey, fun hleaving ↦ ?_⟩
    rw [h.closed y hleaving.1] at hy
    cases hy

theorem presenceAt_revokeUserPresence (userId : String) (c : RoomKey × String) :
    (x.revokeUserPresence s userId).1.presenceAt c =
      (s.presenceAt c).filter fun p ↦ !decide (p.userId ∈ [userId]) := by
  have hkeep : (fun (_ : String) (p : PresenceRecord) ↦ decide (p.userId ≠ userId)) =
      fun _ p ↦ !decide (p.userId ∈ [userId]) := by
    funext _ p
    simp
  rw [Sockets.presenceAt, Sockets.roster, SocketContext.revokeUserPresence, Sockets.presenceAt,
    Sockets.roster]
  dsimp only
  rw [InsertionMap.get_filter, InsertionMap.get_mapValues, hkeep]
  cases s.roomPresence.get c.1 with
  | none => rfl
  | some roster =>
    have hget := roster.get_filter (fun _ p ↦ !decide (p.userId ∈ [userId])) c.2
    rw [Option.map_some, Option.getD_some, Option.filter_some]
    split_ifs with hsize
    · exact hget
    · rw [InsertionMap.eq_empty_of_size_eq_zero
        (of_not_not fun h ↦ hsize (decide_eq_true h))] at hget
      exact hget

theorem ClientSession.room_of_relayIds {session : ClientSession} {teamId roomId : RelayId}
    (hteam : session.teamId = some teamId.val) (hroom : session.roomId = some roomId.val) :
    session.room = some (roomKey teamId roomId) := by
  have hne : ∀ id : RelayId, id.val ≠ "" := fun id h ↦ id.toList_ne_nil (by rw [h]; rfl)
  simp [ClientSession.room, hteam, hroom, Option.filter_some, hne]

/-- Entering a room, after leaving the old one. -/
theorem Outcome.of_join (hplaced : Placed s announced) (hshows : RosterShows s announced)
    (socket : Socket) (teamId roomId : RelayId) (userId deviceId : String) :
    Outcome announced [socket] none (x.joinRoom s socket teamId roomId userId deviceId).1
      ((x.joinRoom s socket teamId roomId userId deviceId).2.foldl observe announced)
      ((Withdrawal.ofLeaving s [socket] []).Clean announced) := by
  have hleave := x.leaves_leaveRoom s socket
  have hother : ∀ y, y ≠ socket → (x.joinRoom s socket teamId roomId userId deviceId).1.clients.get
      y = (x.leaveRoom s socket).1.clients.get y := fun y hy ↦
    (x.leaveRoom s socket).1.get_clients_updateClient_of_ne _ hy
  have hself : ∀ session,
      (x.joinRoom s socket teamId roomId userId deviceId).1.clients.get socket = some session →
        session.room = some (roomKey teamId roomId) := by
    intro session hsession
    obtain ⟨old, -, rfl⟩ := Option.map_eq_some_iff.mp
      (((x.leaveRoom s socket).1.get_clients_updateClient_self socket _).symm.trans hsession)
    exact ClientSession.room_of_relayIds rfl rfl
  have hmembers : ∀ key y, y ∈ (x.joinRoom s socket teamId roomId userId deviceId).1.members key ↔
      y = socket ∧ key = roomKey teamId roomId ∨ y ∈ (x.leaveRoom s socket).1.members key :=
    fun key y ↦ mem_addSocket
  have hobserve : (x.joinRoom s socket teamId roomId userId deviceId).2.foldl observe announced =
      Board.withdraw announced (decide <| · ∈ [socket]) := by
    rw [← hleave.withdraw hplaced]
    exact List.foldl_append
  rw [hobserve]
  refine ⟨⟨fun q hq ↦ ?_, fun y key hy hkey ↦ ?_⟩, hleave.shows_iff hshows fun c ↦ ?_,
    0, (List.append_nil _).symm⟩
  · have hne : q.author ≠ socket := by simpa using (List.mem_filter.mp hq).2
    obtain ⟨hroom, hmember⟩ := hleave.placed hplaced q hq
    rw [Sockets.roomOf, hother _ hne]
    exact ⟨hroom, (hmembers _ _).mpr (.inr hmember)⟩
  · rw [hmembers]
    by_cases hsocket : y = socket
    · subst hsocket
      refine .inl ⟨rfl, ?_⟩
      obtain ⟨session, hsession, hroom⟩ := Option.bind_eq_some_iff.mp hkey
      rw [hself session hsession] at hroom
      exact (Option.some.inj hroom).symm
    · rw [Sockets.isOpenAt, hother y hsocket] at hy
      rw [Sockets.roomOf, hother y hsocket] at hkey
      have hroom := (hleave.roomOf y).symm.trans hkey
      refine .inr ((hleave.mem_members key y).mpr
        ⟨hplaced.open_joined y key (hleave.isOpenAt y hy) hroom, fun h ↦ ?_⟩)
      exact hsocket (List.mem_singleton.mp h.1)
  · have hkeep : ∀ o : Option PresenceRecord, o.filter (fun p ↦ !decide (p.userId ∈ [])) = o :=
      fun o ↦ by cases o <;> simp
    rw [hkeep]
    rfl

theorem key_verifiedPresence (x : SocketContext) (presence : PresenceRecord) :
    (x.verifiedPresence presence).key = presence.key :=
  rfl

/-- Subscribing moves no presence. -/
theorem SocketContext.still_dispatchTeamSubscription (x : SocketContext) (s : Sockets)
    (socket : Socket) (session : ClientSession) (teamId userId deviceId : String) :
    Stays s (x.dispatchTeamSubscription s socket session teamId userId deviceId).1 ∧
      Quiet (x.dispatchTeamSubscription s socket session teamId userId deviceId).2 := by
  unfold SocketContext.dispatchTeamSubscription
  split_ifs
  · exact ⟨Stays.refl s, x.quiet_send _ _ _⟩
  · exact ⟨Stays.refl s, x.quiet_send _ _ _⟩
  · exact ⟨Stays.refl s, x.quiet_send _ _ _⟩
  · have h := Stays.updateClient s socket
      (f := fun session ↦ { session with
        subscribedTeamIds := if teamId ∈ session.subscribedTeamIds then session.subscribedTeamIds
          else session.subscribedTeamIds ++ [teamId] })
      (fun _ ↦ rfl) fun _ ↦ id
    exact ⟨⟨h.presenceAt, h.roomOf, h.isOpenAt, h.mem_members⟩, x.quiet_send _ _ _⟩

theorem SocketContext.still_dispatchWorkspaceSubscription (x : SocketContext) (s : Sockets)
    (socket : Socket) (session : ClientSession) (userId deviceId : String) :
    Stays s (x.dispatchWorkspaceSubscription s socket session userId deviceId).1 ∧
      Quiet (x.dispatchWorkspaceSubscription s socket session userId deviceId).2 := by
  unfold SocketContext.dispatchWorkspaceSubscription
  split_ifs
  · exact ⟨Stays.refl s, x.quiet_send _ _ _⟩
  · exact ⟨Stays.refl s, x.quiet_send _ _ _⟩
  · have h := Stays.updateClient s socket
      (f := fun session ↦ { session with workspaceSubscribed := true }) (fun _ ↦ rfl) fun _ ↦ id
    exact ⟨⟨h.presenceAt, h.roomOf, h.isOpenAt, h.mem_members⟩, x.quiet_send _ _ _⟩

theorem SocketContext.isPresenceForJoinedSession_of_accepted {x : SocketContext}
    {session : ClientSession} {presence : PresenceRecord}
    (h : x.presenceRefusal session presence = none) :
    isPresenceForJoinedSession session presence = true := by
  unfold SocketContext.presenceRefusal at h
  split_ifs at h with hjoined
  simp only [Bool.or_eq_true, Bool.not_eq_true', not_or, Bool.not_eq_false] at hjoined
  exact hjoined.2

/-- Publishing a presence, from a socket that is open in its room. -/
theorem Outcome.of_publish {socket : Socket} {session : ClientSession} (presence : PresenceRecord)
    (hplaced : Placed s announced) (hshows : RosterShows s announced)
    (hclient : s.clients.get socket = some session) (hopen : session.isOpen = true)
    (hroom : session.room = some presence.room) :
    Outcome announced [] (some (x.verifiedPresence presence)) (x.publishPresence s socket presence).1
      ((x.publishPresence s socket presence).2.foldl observe announced)
      (∀ q ∈ announced, q.value.key.index = presence.key.index → q.value.key = presence.key) := by
  have hroomOf : s.roomOf socket = some presence.room := by simp [Sockets.roomOf, hclient, hroom]
  have hmember : socket ∈ s.members presence.room :=
    hplaced.open_joined socket _ (by simp [Sockets.isOpenAt, hclient, hopen]) hroomOf
  have hsession := Stays.updateClient s socket
    (f := fun session ↦
      { session with displayName := some presence.displayName, avatarUrl := presence.avatarUrl })
    (fun _ ↦ rfl) fun _ ↦ id
  have hobserve : (x.publishPresence s socket presence).2.foldl observe announced =
      announced ++ [⟨socket, x.verifiedPresence presence⟩] :=
    (x.quiet_broadcast _ _ _).foldl_observe _
  have hpresence : (x.publishPresence s socket presence).1.presenceAt =
      Board.overwrite PresenceRecord.key PresenceKey.index s.presenceAt
        (x.verifiedPresence presence) := by
    funext c
    rw [Board.overwrite, key_verifiedPresence, Sockets.presenceAt, Sockets.roster,
      SocketContext.publishPresence]
    dsimp only
    by_cases hkey : c.1 = presence.room
    · rw [hkey, ← PresenceRecord.room, InsertionMap.get_set_self, Option.getD_some,
        InsertionMap.get_set]
      refine if_congr ?_ rfl ?_
      · rw [Prod.ext_iff]
        exact (and_iff_right hkey).symm
      · rw [Sockets.presenceAt, hkey]
        rfl
    · rw [← PresenceRecord.room, InsertionMap.get_set_of_ne _ _ hkey,
        if_neg fun h ↦ hkey (congrArg Prod.fst h)]
      rfl
  rw [hobserve]
  refine ⟨⟨fun q hq ↦ ?_, fun y key hy hkey ↦ ?_⟩, ?_, socket, by simp [Board.withdraw]⟩
  · rcases List.mem_append.mp hq with hq | hq
    · obtain ⟨hroom, hmember⟩ := hplaced.joined q hq
      exact ⟨(hsession.roomOf _).trans hroom, hmember⟩
    · rw [List.mem_singleton.mp hq]
      exact ⟨(hsession.roomOf _).trans hroomOf, hmember⟩
  · exact hplaced.open_joined y key (hsession.isOpenAt y hy) ((hsession.roomOf y).symm.trans hkey)
  · rw [RosterShows, hpresence, Board.shows_post_iff hshows]
    rfl

end Steps

/-! ### Every action -/

namespace LiveRelay

variable {c : RelayConfig} {s : LiveRelay} {announced : List (Post Socket PresenceRecord)}

theorem performSaves_sockets (c : RelayConfig) (s : LiveRelay) (saves : List JoinSave)
    (saved : List Bool) : (performSaves c s saves saved).1.sockets = s.sockets ∧
      Quiet (performSaves c s saves saved).2.1 := by
  induction saves generalizing s saved with
  | nil => exact ⟨rfl, Quiet.nil⟩
  | cons save saves ih =>
    rw [performSaves]
    split_ifs
    · obtain ⟨hsockets, hquiet⟩ :=
        ih { s with records := s.records.editAll save.transaction.stage } saved.tail
      refine ⟨hsockets, Quiet.append (Quiet.flatMap fun team ↦ ?_) hquiet⟩
      exact SocketContext.quiet_broadcastWorkspaceUpdated _ _ _
    · exact ⟨rfl, Quiet.nil⟩

theorem quiet_welcome (x : SocketContext) (s : Sockets) (socket : Socket)
    (teamId roomId userId deviceId : String) :
    Quiet (x.welcome s socket teamId roomId userId deviceId) := by
  have hreplay : Quiet (x.replayPendingInviteRequests s socket teamId roomId userId deviceId) := by
    unfold SocketContext.replayPendingInviteRequests
    split
    · exact Quiet.nil
    · split_ifs
      · exact Quiet.nil
      · exact Quiet.flatMap fun _ ↦ x.quiet_send _ _ _
  exact (((Quiet.flatMap fun _ ↦ x.quiet_send _ _ _).append hreplay).append
    (Quiet.flatMap fun _ ↦ x.quiet_send _ _ _)).append (x.quiet_send _ _ _)

/-- A join that is not refused at once. -/
theorem dispatchJoin_eq {socket : Socket} {session : ClientSession}
    {teamId roomId userId deviceId : String} {inviteId deviceSessionToken : Option String}
    {saved : List Bool} {decision : JoinDecision} {result : LiveRelay × List SocketEvent × Bool}
    (hrefusal : (s.context c).joinRefusal session teamId roomId userId deviceId inviteId
      deviceSessionToken = none)
    (hdecision : (s.context c).canJoinRoom session teamId roomId userId deviceId inviteId = decision)
    (hsaves : performSaves c s decision.saves saved = result) :
    s.dispatchJoin c socket session teamId roomId userId deviceId inviteId deviceSessionToken saved =
      if !result.2.2 then
        (result.1, result.2.1 ++ (result.1.context c).send result.1.sockets socket
          (.plainError "Relay request failed."))
      else if !decision.isAllowed then
        (result.1, result.2.1 ++ (result.1.context c).send result.1.sockets socket
          (.plainError "Sign in and use a valid invite before joining this room."))
      else
        ({ result.1 with
            sockets := ((result.1.context c).enterRoom result.1.sockets socket teamId roomId userId
              deviceId deviceSessionToken).1 },
          result.2.1 ++ ((result.1.context c).enterRoom result.1.sockets socket teamId roomId userId
            deviceId deviceSessionToken).2) := by
  subst hdecision hsaves
  unfold dispatchJoin
  dsimp only
  rw [hrefusal]
  rfl

theorem joining_eq {socket : Socket} {session : ClientSession}
    {teamId roomId userId deviceId : String} {inviteId deviceSessionToken : Option String}
    {saved : List Bool} {decision : JoinDecision} {result : LiveRelay × List SocketEvent × Bool}
    {sockets : Sockets}
    (hrefusal : (s.context c).joinRefusal session teamId roomId userId deviceId inviteId
      deviceSessionToken = none)
    (hdecision : (s.context c).canJoinRoom session teamId roomId userId deviceId inviteId = decision)
    (hsaves : performSaves c s decision.saves saved = result)
    (hsockets : result.1.sockets.updateClient socket (fun session ↦
      session.identified userId deviceId deviceSessionToken) = sockets) :
    s.joining c socket session teamId roomId userId deviceId inviteId deviceSessionToken saved =
      if result.2.2 && decision.isAllowed && ((sockets.clients.get socket).bind
          ((result.1.context c).socketConnectionQuotaError sockets socket)).isNone then some sockets
      else none := by
  subst hdecision hsaves hsockets
  unfold joining
  dsimp only
  rw [hrefusal]
  rfl

theorem enterRoom_eq {x : SocketContext} {s sockets : Sockets} {socket : Socket}
    {teamId roomId userId deviceId : String} {deviceSessionToken : Option String}
    (hsockets : s.updateClient socket (fun session ↦
      session.identified userId deviceId deviceSessionToken) = sockets) :
    x.enterRoom s socket teamId roomId userId deviceId deviceSessionToken =
      match (sockets.clients.get socket).bind (x.socketConnectionQuotaError sockets socket) with
      | some message => (sockets.close socket, x.send sockets socket (.plainError message))
      | none =>
        ((x.joinRoom sockets socket teamId roomId userId deviceId).1,
          (x.joinRoom sockets socket teamId roomId userId deviceId).2 ++
            x.welcome (x.joinRoom sockets socket teamId roomId userId deviceId).1 socket teamId
              roomId userId deviceId) := by
  subst hsockets
  rfl

end LiveRelay

theorem Withdrawal.clean_empty (announced : List (Post Socket PresenceRecord)) :
    ({} : Withdrawal).Clean announced :=
  ⟨fun _ _ h ↦ by simp [hits] at h, fun _ _ h ↦ by simp at h⟩

namespace AnnouncedRelay

variable {c : RelayConfig} {h : AnnouncedRelay} {a : SocketAction}

theorem presenceSafe_of_still (hwithdrawal : h.relay.withdrawal c a = {})
    (hpublication : h.relay.publication c a = none) : PresenceSafe c h a := by
  rw [PresenceSafe, hwithdrawal, hpublication]
  exact ⟨Withdrawal.clean_empty _, fun _ hp ↦ by cases hp⟩

theorem presenceSafe_iff_of_withdrawal {w : Withdrawal} (hwithdrawal : h.relay.withdrawal c a = w)
    (hpublication : h.relay.publication c a = none) :
    PresenceSafe c h a ↔ w.Clean h.announced := by
  rw [PresenceSafe, hwithdrawal, hpublication]
  exact and_iff_left fun _ hp ↦ by cases hp

theorem presenceSafe_iff_of_publication {presence : PresenceRecord}
    (hwithdrawal : h.relay.withdrawal c a = {})
    (hpublication : h.relay.publication c a = some presence) :
    PresenceSafe c h a ↔ ∀ q ∈ h.announced,
      q.value.key.index = presence.key.index → q.value.key = presence.key := by
  rw [PresenceSafe, hwithdrawal, hpublication]
  constructor
  · rintro ⟨-, hp⟩
    exact hp presence rfl
  · intro hp
    refine ⟨Withdrawal.clean_empty _, fun p hp' ↦ ?_⟩
    rw [← Option.some.inj hp']
    exact hp

/-- What a step leaves. -/
abbrev StepOutcome (c : RelayConfig) (h : AnnouncedRelay) (a : SocketAction) : Prop :=
  Outcome h.announced (h.relay.withdrawal c a).leaving (h.relay.publication c a)
    (h.step c a).1.relay.sockets (h.step c a).1.announced (PresenceSafe c h a)

variable (hplaced : Placed h.relay.sockets h.announced)
  (hshows : RosterShows h.relay.sockets h.announced)

include hplaced hshows

/-- A step that moves no presence. -/
theorem stepOutcome_of_still (hsockets : Stays h.relay.sockets (h.relay.step c a).1.sockets)
    (hquiet : Quiet (h.relay.step c a).2) (hwithdrawal : h.relay.withdrawal c a = {})
    (hpublication : h.relay.publication c a = none) : StepOutcome c h a := by
  have hsafe := presenceSafe_of_still hwithdrawal hpublication
  unfold StepOutcome
  rw [hwithdrawal, hpublication]
  exact Outcome.of_still hplaced hshows hsockets hquiet hsafe

theorem stepOutcome_connection (socket : Socket) (authSession : Option AuthSession)
    (rateClientId : String) : StepOutcome c h (.connection socket authSession rateClientId) := by
  have hstill : ∀ s' events, h.relay.step c (.connection socket authSession rateClientId) =
      (s', events) → s'.sockets = h.relay.sockets → Quiet events →
      StepOutcome c h (.connection socket authSession rateClientId) := by
    intro s' events hstep hsockets hquiet
    refine stepOutcome_of_still hplaced hshows ?_ (hstep ▸ hquiet) rfl rfl
    rw [hstep, hsockets]
    exact Stays.refl _
  by_cases hhas : h.relay.sockets.clients.has socket = true
  · refine hstill h.relay [] ?_ rfl Quiet.nil
    simp [LiveRelay.step, LiveRelay.admitConnection, hhas]
  cases hquota : (h.relay.context c).socketConnectionQuotaError h.relay.sockets socket
      { authSession := authSession, rateClientId := rateClientId } with
  | some message =>
    refine hstill h.relay [.sent socket (.plainError message)] ?_ rfl fun e he ↦
      ⟨socket, _, List.mem_singleton.mp he⟩
    simp [LiveRelay.step, LiveRelay.admitConnection, hhas, hquota]
  | none =>
    have hconnect := hplaced.connect (InsertionMap.get_eq_none_of_not_has hhas)
      { authSession := authSession, rateClientId := rateClientId } rfl
    unfold StepOutcome step
    rw [show h.relay.step c (.connection socket authSession rateClientId) = _ from
      (if_neg hhas).trans (by rw [hquota])]
    exact ⟨hconnect, iff_of_true hshows (presenceSafe_of_still rfl rfl), 0,
      by simp [Board.withdraw, LiveRelay.withdrawal, LiveRelay.publication]⟩

/-- A frame that is answered without moving a presence. -/
theorem stepOutcome_frame_of_still {socket : Socket} {frame : ClientFrame} {saved : List Bool}
    {s' : LiveRelay} {events : List SocketEvent}
    (hstep : h.relay.step c (.frame socket frame saved) = (s', events))
    (hsockets : Stays h.relay.sockets s'.sockets) (hquiet : Quiet events)
    (hwithdrawal : h.relay.withdrawal c (.frame socket frame saved) = {})
    (hpublication : h.relay.publication c (.frame socket frame saved) = none) :
    StepOutcome c h (.frame socket frame saved) :=
  stepOutcome_of_still hplaced hshows (hstep ▸ hsockets) (hstep ▸ hquiet) hwithdrawal hpublication

theorem stepOutcome_join {socket : Socket} {session : ClientSession}
    (hreceiver : h.relay.receiver c socket = some session) (teamId roomId : RelayId)
    (userId deviceId : String) (inviteId deviceSessionToken : Option String) (saved : List Bool)
    (hstep : h.relay.step c
        (.frame socket (.join teamId roomId userId deviceId inviteId deviceSessionToken) saved) =
      h.relay.dispatchJoin c socket session teamId roomId userId deviceId inviteId
        deviceSessionToken saved) :
    StepOutcome c h
      (.frame socket (.join teamId roomId userId deviceId inviteId deviceSessionToken) saved) := by
  have hstill : ∀ s' events, h.relay.joining c socket session teamId roomId userId deviceId inviteId
      deviceSessionToken saved = none → h.relay.dispatchJoin c socket session teamId roomId userId
        deviceId inviteId deviceSessionToken saved = (s', events) →
      Stays h.relay.sockets s'.sockets → Quiet events → StepOutcome c h
        (.frame socket (.join teamId roomId userId deviceId inviteId deviceSessionToken) saved) := by
    intro s' events hjoining hdispatch hsockets hquiet
    exact stepOutcome_frame_of_still hplaced hshows (hstep.trans hdispatch) hsockets hquiet
      (by simp [LiveRelay.withdrawal, hreceiver, hjoining]) rfl
  cases hrefusal : (h.relay.context c).joinRefusal session teamId roomId userId deviceId inviteId
      deviceSessionToken with
  | some message =>
    exact hstill _ _ (by simp [LiveRelay.joining, hrefusal]) (by simp [LiveRelay.dispatchJoin, hrefusal]; rfl)
      (Stays.refl _) (SocketContext.quiet_send _ _ _ _)
  | none =>
    obtain ⟨decision, hdecision⟩ : ∃ decision, (h.relay.context c).canJoinRoom session teamId roomId
      userId deviceId inviteId = decision := ⟨_, rfl⟩
    obtain ⟨result, hsaves⟩ : ∃ result,
      LiveRelay.performSaves c h.relay decision.saves saved = result := ⟨_, rfl⟩
    obtain ⟨sockets, hidentified⟩ : ∃ sockets, result.1.sockets.updateClient socket (fun session ↦
      session.identified userId deviceId deviceSessionToken) = sockets := ⟨_, rfl⟩
    obtain ⟨hsockets, hquiet⟩ := hsaves ▸ LiveRelay.performSaves_sockets c h.relay decision.saves saved
    have hdispatch : h.relay.dispatchJoin c socket session teamId roomId userId deviceId inviteId
      deviceSessionToken saved = _ := LiveRelay.dispatchJoin_eq hrefusal hdecision hsaves
    have hjoining := LiveRelay.joining_eq hrefusal hdecision hsaves hidentified
    have hsame : Stays h.relay.sockets result.1.sockets := by
      rw [hsockets]
      exact Stays.refl _
    cases hdone : result.2.2 with
    | false =>
      rw [hdone] at hdispatch hjoining
      exact hstill _ _ hjoining hdispatch hsame (hquiet.append (SocketContext.quiet_send _ _ _ _))
    | true =>
      rw [hdone] at hdispatch hjoining
      cases hallowed : decision.isAllowed with
      | false =>
        rw [hallowed] at hdispatch hjoining
        exact hstill _ _ hjoining hdispatch hsame (hquiet.append (SocketContext.quiet_send _ _ _ _))
      | true =>
        rw [hallowed] at hdispatch hjoining
        have henter : (result.1.context c).enterRoom result.1.sockets socket teamId roomId userId
          deviceId deviceSessionToken = _ := LiveRelay.enterRoom_eq hidentified
        have hmoved : Stays h.relay.sockets sockets := by
          rw [← hidentified, hsockets]
          exact Stays.updateClient _ socket (fun _ ↦ rfl) fun _ ↦ id
        cases hquota : (sockets.clients.get socket).bind
            ((result.1.context c).socketConnectionQuotaError sockets socket) with
        | some message =>
          rw [hquota] at henter hjoining
          rw [henter] at hdispatch
          exact hstill _ _ hjoining hdispatch (hmoved.trans (Stays.close _ socket))
            (hquiet.append (SocketContext.quiet_send _ _ _ _))
        | none =>
          rw [hquota] at henter hjoining
          rw [henter] at hdispatch
          have houtcome := Outcome.of_join (x := result.1.context c) (hplaced.stays hmoved)
            (hshows.stays hmoved) socket teamId roomId userId deviceId
          have hwelcome := LiveRelay.quiet_welcome (result.1.context c)
            ((result.1.context c).joinRoom sockets socket teamId roomId userId deviceId).1 socket
            teamId roomId userId deviceId
          have hwithdrawal : h.relay.withdrawal c (.frame socket (.join teamId roomId userId deviceId
              inviteId deviceSessionToken) saved) = .ofLeaving sockets [socket] [] := by
            simp [LiveRelay.withdrawal, hreceiver, hjoining]
          unfold StepOutcome step
          rw [hstep, hdispatch, presenceSafe_iff_of_withdrawal hwithdrawal rfl, hwithdrawal]
          dsimp only
          rw [if_neg (by simp), if_neg (by simp), List.foldl_append, hquiet.foldl_observe,
            List.foldl_append, hwelcome.foldl_observe]
          exact houtcome

theorem stepOutcome_presence {socket : Socket} {session : ClientSession}
    (hreceiver : h.relay.receiver c socket = some session) (teamId roomId : RelayId)
    (userId deviceId displayName : String) (avatarUrl fingerprint : Option String)
    (saved : List Bool)
    (hstep : h.relay.step c (.frame socket
        (.presence teamId roomId userId deviceId displayName avatarUrl fingerprint) saved) =
      h.relay.withSockets ((h.relay.context c).dispatchPresence h.relay.sockets socket session
        (.ofMessage teamId roomId userId deviceId displayName avatarUrl fingerprint))) :
    StepOutcome c h (.frame socket
      (.presence teamId roomId userId deviceId displayName avatarUrl fingerprint) saved) := by
  obtain ⟨hclient, hopen⟩ := Option.filter_eq_some_iff.mp hreceiver
  rw [Bool.and_eq_true, Bool.and_eq_true] at hopen
  unfold SocketContext.dispatchPresence at hstep
  cases hrefusal : (h.relay.context c).presenceRefusal session
      (.ofMessage teamId roomId userId deviceId displayName avatarUrl fingerprint) with
  | some message =>
    rw [hrefusal] at hstep
    exact stepOutcome_frame_of_still hplaced hshows hstep (Stays.refl _)
      (SocketContext.quiet_send _ _ _ _) rfl (by simp [LiveRelay.publication, hreceiver, hrefusal])
  | none =>
    rw [hrefusal] at hstep
    have hjoined := SocketContext.isPresenceForJoinedSession_of_accepted hrefusal
    simp only [isPresenceForJoinedSession, Bool.and_eq_true, decide_eq_true_eq] at hjoined
    have hroom : session.room = some (roomKey teamId roomId) :=
      ClientSession.room_of_relayIds hjoined.1.1.1 hjoined.1.1.2
    have houtcome := Outcome.of_publish (x := h.relay.context c)
      (.ofMessage teamId roomId userId deviceId displayName avatarUrl fingerprint) hplaced hshows
      hclient hopen.1.1 hroom
    have hpublication : h.relay.publication c (.frame socket
        (.presence teamId roomId userId deviceId displayName avatarUrl fingerprint) saved) =
        some ((h.relay.context c).verifiedPresence
          (.ofMessage teamId roomId userId deviceId displayName avatarUrl fingerprint)) := by
      simp [LiveRelay.publication, hreceiver, hrefusal]
    unfold StepOutcome step
    rw [hstep, presenceSafe_iff_of_publication rfl hpublication, hpublication]
    exact houtcome

/-- A frame of a session that receives none. -/
theorem stepOutcome_of_no_receiver {socket : Socket} (hreceiver : h.relay.receiver c socket = none)
    (frame : ClientFrame) (saved : List Bool) : StepOutcome c h (.frame socket frame saved) := by
  have hwithdrawal : h.relay.withdrawal c (.frame socket frame saved) = {} := by
    cases frame <;> simp [LiveRelay.withdrawal, hreceiver]
  have hpublication : h.relay.publication c (.frame socket frame saved) = none := by
    cases frame <;> simp [LiveRelay.publication, hreceiver]
  cases hclient : (h.relay.sockets.clients.get socket).filter fun session ↦
      session.isOpen && session.isRegistered with
  | none =>
    have hstep : h.relay.step c (.frame socket frame saved) = (h.relay, []) := by
      simp [LiveRelay.step, hclient]
    exact stepOutcome_frame_of_still hplaced hshows hstep (Stays.refl _) Quiet.nil
      hwithdrawal hpublication
  | some session =>
    have hlive : (h.relay.context c).isLiveClientSession session = false := by
      obtain ⟨hget, hopen⟩ := Option.filter_eq_some_iff.mp hclient
      by_contra hlive
      rw [LiveRelay.receiver, hget, Option.filter_some, if_pos (by simp [hopen, hlive])] at hreceiver
      cases hreceiver
    have hstep : h.relay.step c (.frame socket frame saved) =
        ({ h.relay with sockets := h.relay.sockets.close socket },
          SocketContext.sendRaw h.relay.sockets socket
            (.error "Authentication session expired." (some "not_joined") none)) := by
      simp [LiveRelay.step, hclient, LiveRelay.dispatch, hlive]
    exact stepOutcome_frame_of_still hplaced hshows hstep (Stays.close _ socket)
      (SocketContext.quiet_sendRaw _ _ _) hwithdrawal hpublication

theorem stepOutcome_frame (socket : Socket) (frame : ClientFrame) (saved : List Bool) :
    StepOutcome c h (.frame socket frame saved) := by
  cases hreceiver : h.relay.receiver c socket with
  | none => exact stepOutcome_of_no_receiver hplaced hshows hreceiver frame saved
  | some session =>
    obtain ⟨hclient, hopen⟩ := Option.filter_eq_some_iff.mp hreceiver
    rw [Bool.and_eq_true] at hopen
    have hdispatch : h.relay.step c (.frame socket frame saved) =
        h.relay.dispatch c socket session frame saved := by
      simp [LiveRelay.step, hclient, Option.filter_some, hopen.1]
    unfold LiveRelay.dispatch at hdispatch
    dsimp only at hdispatch
    rw [if_neg (by simp [hopen.2])] at hdispatch
    cases frame with
    | join teamId roomId userId deviceId inviteId deviceSessionToken =>
      exact stepOutcome_join hplaced hshows hreceiver teamId roomId userId deviceId inviteId
        deviceSessionToken saved hdispatch
    | subscribeTeam teamId userId deviceId =>
      have hstill := (h.relay.context c).still_dispatchTeamSubscription h.relay.sockets socket
        session teamId userId deviceId
      exact stepOutcome_frame_of_still hplaced hshows hdispatch hstill.1 hstill.2 rfl rfl
    | subscribeWorkspace userId deviceId =>
      have hstill := (h.relay.context c).still_dispatchWorkspaceSubscription h.relay.sockets socket
        session userId deviceId
      exact stepOutcome_frame_of_still hplaced hshows hdispatch hstill.1 hstill.2 rfl rfl
    | presence teamId roomId userId deviceId displayName avatarUrl fingerprint =>
      exact stepOutcome_presence hplaced hshows hreceiver teamId roomId userId deviceId displayName
        avatarUrl fingerprint saved hdispatch

/-- Sockets that are revoked, and users whose entries are deleted. -/
theorem stepOutcome_of_revokes {leaving : List Socket} {s' : Sockets}
    {events events' : List SocketEvent} {users : List String}
    (hrevokes : Revokes leaving h.relay.sockets s' events) (hquiet : Quiet events')
    (hevents : (h.relay.step c a).2 = events ++ events')
    (hpresence : ∀ k, (h.relay.step c a).1.sockets.presenceAt k =
      (s'.presenceAt k).filter fun p ↦ !decide (p.userId ∈ users))
    (hroom : ∀ y, (h.relay.step c a).1.sockets.roomOf y = s'.roomOf y)
    (hopen : ∀ y, (h.relay.step c a).1.sockets.isOpenAt y = true → s'.isOpenAt y = true)
    (hmembers : ∀ key y, y ∈ (h.relay.step c a).1.sockets.members key ↔ y ∈ s'.members key)
    (hwithdrawal : h.relay.withdrawal c a = .ofLeaving h.relay.sockets leaving users)
    (hpublication : h.relay.publication c a = none) : StepOutcome c h a := by
  have houtcome := hrevokes.outcome hplaced hshows hquiet hpresence hroom hopen hmembers
  rw [← hevents, ← presenceSafe_iff_of_withdrawal hwithdrawal hpublication] at houtcome
  unfold StepOutcome
  rw [hwithdrawal, hpublication]
  exact houtcome

theorem stepOutcome_closed (socket : Socket) : StepOutcome c h (.closed socket) := by
  have hleave := (h.relay.context c).leaves_leaveAll h.relay.sockets socket
  have hother : ∀ y, y ≠ socket → (h.step c (.closed socket)).1.relay.sockets.clients.get y =
      ((h.relay.context c).leaveAll h.relay.sockets socket).1.clients.get y := fun y hy ↦
    InsertionMap.get_delete_of_ne _ hy
  have hself : (h.step c (.closed socket)).1.relay.sockets.clients.get socket = none :=
    InsertionMap.get_delete_self ..
  have hannounced : (h.step c (.closed socket)).1.announced =
      Board.withdraw h.announced (decide <| · ∈ [socket]) := hleave.withdraw hplaced
  unfold StepOutcome
  rw [hannounced, presenceSafe_iff_of_withdrawal
    (w := .ofLeaving h.relay.sockets [socket] []) rfl rfl]
  refine ⟨⟨fun q hq ↦ ?_, fun y key hy hkey ↦ ?_⟩, hleave.shows_iff hshows fun k ↦ ?_,
    0, (List.append_nil _).symm⟩
  · have hne : q.author ≠ socket := by simpa using (List.mem_filter.mp hq).2
    obtain ⟨hroom, hmember⟩ := hleave.placed hplaced q hq
    refine ⟨?_, hmember⟩
    rw [Sockets.roomOf, hother _ hne]
    exact hroom
  · by_cases hsocket : y = socket
    · rw [hsocket, Sockets.isOpenAt, hself] at hy
      cases hy
    · rw [Sockets.isOpenAt, hother y hsocket] at hy
      rw [Sockets.roomOf, hother y hsocket] at hkey
      have hroom := (hleave.roomOf y).symm.trans hkey
      refine (hleave.mem_members key y).mpr
        ⟨hplaced.open_joined y key (hleave.isOpenAt y hy) hroom, fun hy ↦ ?_⟩
      exact hsocket (List.mem_singleton.mp hy.1)
  · have hkeep : ∀ o : Option PresenceRecord, o = o.filter fun p ↦ !decide (p.userId ∈ []) :=
      fun o ↦ by cases o <;> simp [Option.filter_some]
    exact hkeep _

theorem stepOutcome_revokeDeletedAccount (userId : String) (memberTeamIds : List String) :
    StepOutcome c h (.revokeDeletedAccount userId memberTeamIds) := by
  have hrevokes := (h.relay.context c).revokes_run_revokeTeamMemberSessions userId memberTeamIds
    h.relay.sockets
  have hclients : ∀ y, (h.relay.step c
      (.revokeDeletedAccount userId memberTeamIds)).1.sockets.clients.get y =
      ((Machine.run (fun s teamId ↦ (h.relay.context c).revokeTeamMemberSessions s teamId userId)
        h.relay.sockets memberTeamIds).1.clients.get y).map fun session ↦
          if session.isRegistered && session.isOf userId then { session with isOpen := false }
          else session :=
    fun y ↦ InsertionMap.get_mapValues ..
  refine stepOutcome_of_revokes hplaced hshows hrevokes
    (Quiet.flatMap fun _ ↦ Quiet.flatMap fun _ ↦ SocketContext.quiet_broadcast _ _ _ _) rfl
    (fun k ↦ presenceAt_revokeUserPresence (x := h.relay.context c) userId k) (fun y ↦ ?_) (fun y ↦ ?_)
    (fun _ _ ↦ Iff.rfl) rfl rfl
  · rw [Sockets.roomOf, hclients, Sockets.roomOf, Option.bind_map]
    congr 1
    funext session
    rw [Function.comp_apply]
    split_ifs <;> rfl
  · rw [Sockets.isOpenAt, hclients, Sockets.isOpenAt, Option.any_map]
    cases (Machine.run (fun s teamId ↦ (h.relay.context c).revokeTeamMemberSessions s teamId userId)
      h.relay.sockets memberTeamIds).1.clients.get y with
    | none => exact id
    | some session =>
      rw [Option.any_some, Option.any_some]
      split_ifs
      · intro hfalse
        cases hfalse
      · exact id

theorem stepOutcome (a : SocketAction) : StepOutcome c h a := by
  have hkeep : ∀ o : Option PresenceRecord, o = o.filter fun p ↦ !decide (p.userId ∈ []) :=
    fun o ↦ by cases o <;> simp [Option.filter_some]
  cases a with
  | elsewhere now records deviceSessions =>
    exact stepOutcome_of_still hplaced hshows (Stays.refl _) Quiet.nil rfl rfl
  | connection socket authSession rateClientId =>
    exact stepOutcome_connection hplaced hshows socket authSession rateClientId
  | frame socket frame saved => exact stepOutcome_frame hplaced hshows socket frame saved
  | close socket =>
    exact stepOutcome_of_still hplaced hshows (Stays.close _ socket) Quiet.nil rfl rfl
  | closed socket => exact stepOutcome_closed hplaced hshows socket
  | revokeTeamMemberSessions teamId userId =>
    have hrevokes := ((h.relay.context c).revoker_revokeTeamMemberSession teamId userId).run_keys
      h.relay.sockets
    exact stepOutcome_of_revokes hplaced hshows hrevokes.1 Quiet.nil (List.append_nil _).symm
      (fun k ↦ hkeep _) (fun _ ↦ rfl) (fun _ ↦ id) (fun _ _ ↦ Iff.rfl) rfl rfl
  | revokeUserSessions userId message =>
    have hrevokes := ((h.relay.context c).revoker_revokeUserSession userId message).run_keys
      h.relay.sockets
    exact stepOutcome_of_revokes hplaced hshows hrevokes.1
      (Quiet.flatMap fun _ ↦ Quiet.flatMap fun _ ↦ SocketContext.quiet_broadcast _ _ _ _) rfl
      (fun k ↦ presenceAt_revokeUserPresence (x := h.relay.context c) userId k) (fun _ ↦ rfl)
      (fun _ ↦ id)
      (fun _ _ ↦ Iff.rfl) rfl rfl
  | revokeDeletedAccount userId memberTeamIds =>
    exact stepOutcome_revokeDeletedAccount hplaced hshows userId memberTeamIds

omit hplaced hshows

/-! ### Runs -/

/-- **One step.** From a right roster a step leads to a right one exactly when it is safe. -/
theorem rosterCorrect_step_iff (hplaced : Placed h.relay.sockets h.announced)
    (hcorrect : h.RosterCorrect) (a : SocketAction) :
    (h.step c a).1.RosterCorrect ↔ PresenceSafe c h a := by
  have houtcome := stepOutcome (c := c) hplaced ((rosterCorrect_iff hplaced).mp hcorrect) a
  rw [rosterCorrect_iff houtcome.placed]
  exact houtcome.shows_iff

/-- What every safe run keeps. -/
structure RosterInv (h : AnnouncedRelay) : Prop where
  placed : Placed h.relay.sockets h.announced
  correct : h.RosterCorrect

theorem RosterInv.initial : RosterInv {} where
  placed := ⟨fun _ hq ↦ (by cases hq), fun _ _ hy ↦ (by cases hy)⟩
  correct := by
    refine ⟨fun q hq ↦ (by cases hq), fun key deviceId presence ↦ iff_of_false ?_ ?_⟩
    · intro hget
      cases hget
    · rintro ⟨-, -, hlatest⟩
      cases hlatest

theorem RosterInv.step (hinv : RosterInv h) (hsafe : PresenceSafe c h a) :
    RosterInv (h.step c a).1 where
  placed := (stepOutcome hinv.placed ((rosterCorrect_iff hinv.placed).mp hinv.correct) a).placed
  correct := (rosterCorrect_step_iff hinv.placed hinv.correct a).mpr hsafe

theorem RosterInv.run {as : List SocketAction}
    (hsafe : Machine.Along (AnnouncedRelay.step c) (PresenceSafe c) {} as) :
    RosterInv (Machine.run (AnnouncedRelay.step c) {} as).1 :=
  Machine.run_state_invariant (fun _ _ hinv hsafe ↦ hinv.step hsafe) .initial hsafe

/-! ### The entries of others -/

end AnnouncedRelay

/-- The socket whose session acts in a step. -/
def SocketAction.actor : SocketAction → Option Socket
  | .frame socket _ _ | .closed socket => some socket
  | _ => none

namespace AnnouncedRelay

variable {c : RelayConfig} {h : AnnouncedRelay} {a : SocketAction}

/-- A user whom a session has named, or has announced. -/
def IsUserOf (h : AnnouncedRelay) (socket : Socket) (userId : String) : Prop :=
  (∃ session, h.relay.sockets.clients.get socket = some session ∧ session.userId = some userId) ∨
    ∃ q ∈ h.announced, q.author = socket ∧ q.value.userId = userId

theorem leaving_of_actor {socket : Socket} (hactor : a.actor = some socket) :
    ∀ y ∈ (h.relay.withdrawal c a).leaving, y = socket := by
  intro y hy
  cases a with
  | frame other frame saved =>
    obtain rfl := Option.some.inj hactor
    cases frame with
    | join teamId roomId userId deviceId inviteId deviceSessionToken =>
      rw [LiveRelay.withdrawal] at hy
      split at hy
      · exact List.mem_singleton.mp hy
      · cases hy
    | subscribeTeam | subscribeWorkspace | presence => cases hy
  | closed other =>
    obtain rfl := Option.some.inj hactor
    exact List.mem_singleton.mp hy
  | elsewhere | connection | close | revokeTeamMemberSessions | revokeUserSessions
  | revokeDeletedAccount => cases hactor

theorem publication_of_actor {socket : Socket} (hactor : a.actor = some socket)
    {presence : PresenceRecord} (hpublication : h.relay.publication c a = some presence) :
    h.IsUserOf socket presence.userId := by
  cases a with
  | frame other frame saved =>
    obtain rfl := Option.some.inj hactor
    cases frame with
    | presence teamId roomId userId deviceId displayName avatarUrl fingerprint =>
      obtain ⟨session, hreceiver, hpublished⟩ := Option.bind_eq_some_iff.mp hpublication
      dsimp only at hpublished
      split_ifs at hpublished with hrefusal
      rw [Bool.not_eq_true, Option.isSome_eq_false_iff, Option.isNone_iff_eq_none] at hrefusal
      have hjoined := SocketContext.isPresenceForJoinedSession_of_accepted hrefusal
      simp only [isPresenceForJoinedSession, Bool.and_eq_true, decide_eq_true_eq] at hjoined
      rw [← Option.some.inj hpublished]
      exact .inl ⟨session, (Option.filter_eq_some_iff.mp hreceiver).1, hjoined.1.2⟩
    | join | subscribeTeam | subscribeWorkspace => cases hpublication
  | closed | elsewhere | connection | close | revokeTeamMemberSessions | revokeUserSessions
  | revokeDeletedAccount => cases hpublication

/-- **Other users' entries.** A safe step of a session neither overwrites nor removes the entry of a
user that is not one of its own. -/
theorem entry_kept (hinv : RosterInv h) (hsafe : PresenceSafe c h a) {socket : Socket}
    (hactor : a.actor = some socket) {key : RoomKey} {deviceId : String} {presence : PresenceRecord}
    (hentry : (h.relay.sockets.roster key).get deviceId = some presence)
    (hother : ¬h.IsUserOf socket presence.userId) :
    ((h.step c a).1.relay.sockets.roster key).get deviceId = some presence := by
  obtain ⟨hroom, hdevice, hlatest⟩ := (hinv.correct.2 key deviceId presence).mp hentry
  obtain ⟨author, hannounced⟩ :=
    (stepOutcome (c := c) hinv.placed ((rosterCorrect_iff hinv.placed).mp hinv.correct) a).announced_eq
  refine ((hinv.step hsafe).correct.2 key deviceId presence).mpr ⟨hroom, hdevice, ?_⟩
  have hkept : Board.latest PresenceRecord.key (Board.withdraw h.announced
      (decide <| · ∈ (h.relay.withdrawal c a).leaving)) presence.key = some presence := by
    rw [← hlatest, latest]
    refine Board.latest_withdraw_of_stays fun q hq hkey ↦ ?_
    rw [decide_eq_false_iff_not]
    intro hleaving
    exact hother (.inr ⟨q, hq, leaving_of_actor hactor _ hleaving, congrArg PresenceKey.userId hkey⟩)
  rw [latest, hannounced]
  cases hpublication : h.relay.publication c a with
  | none => simpa using hkept
  | some published =>
    have huser := publication_of_actor hactor hpublication
    have hne : published.key ≠ presence.key := by
      intro hkey
      rw [show published.userId = presence.userId from congrArg PresenceKey.userId hkey] at huser
      exact hother huser
    rw [Option.toList_some, List.map_singleton, Board.latest_append, if_neg hne]
    exact hkept

end AnnouncedRelay

/-! ### Two users with one device id -/

/-- A room with two members, each signed in and with a device of the same id. -/
def twoMembers : Records where
  teams := InsertionMap.empty.set "team-1" { id := "team-1", name := "Team", members := 2 }
  rooms := InsertionMap.empty.set "room-1"
    { id := "room-1", teamId := "team-1", name := "Room", host := "ada", hostStatus := .offline,
      approvalPolicy := .askEveryTurn }
  teamMembers := InsertionMap.empty.set "team-1"
    ((InsertionMap.empty.set "github:1" ⟨"team-1", "github:1", .owner, 0⟩).set "github:2"
      ⟨"team-1", "github:2", .member, 0⟩)
  authSessions := (InsertionMap.empty.set "hash-1" ⟨"hash-1", ⟨"github:1", "ada", none, none⟩, 10⟩).set
    "hash-2" ⟨"hash-2", ⟨"github:2", "bob", none, none⟩, 10⟩

def twoDeviceSessions : InsertionMap String DeviceSessionRecord :=
  (InsertionMap.empty.set "token-1" ⟨"token-1", "github:1", "device-1", 10⟩).set "token-2"
    ⟨"token-2", "github:2", "device-1", 10⟩

def teamOne : RelayId := ⟨"team-1", by decide⟩
def roomOne : RelayId := ⟨"room-1", by decide⟩

def adaPresence : PresenceRecord := .ofMessage teamOne roomOne "github:1" "device-1" "Ada" none none

/-- Both members join the room, and Ada publishes her presence. -/
def adaPresent : List SocketAction :=
  [.elsewhere 0 twoMembers twoDeviceSessions,
    .connection 1 (some ⟨"hash-1", ⟨"github:1", "ada", none, none⟩, 10⟩) "client-1",
    .connection 2 (some ⟨"hash-2", ⟨"github:2", "bob", none, none⟩, 10⟩) "client-2",
    .frame 1 (.join teamOne roomOne "github:1" "device-1" none (some "token-1")) [],
    .frame 2 (.join teamOne roomOne "github:2" "device-1" none (some "token-2")) [],
    .frame 1 (.presence teamOne roomOne "github:1" "device-1" "Ada" none none) []]

/-- Then Bob publishes his. -/
def bothPresent : List SocketAction :=
  adaPresent ++ [.frame 2 (.presence teamOne roomOne "github:2" "device-1" "Bob" none none) []]

namespace AnnouncedRelay

/-! ### The roster -/

/-- A run is safe exactly when the rosters are right in every state that it reaches. -/
theorem along_presenceSafe_iff (c : RelayConfig) (as : List SocketAction) :
    Machine.Along (AnnouncedRelay.step c) (PresenceSafe c) {} as ↔
      ∀ bs, bs <+: as → (Machine.run (AnnouncedRelay.step c) {} bs).1.RosterCorrect := by
  induction as using List.reverseRecOn with
  | nil =>
    refine iff_of_true trivial fun bs hbs ↦ ?_
    rw [List.prefix_nil.mp hbs]
    exact RosterInv.initial.correct
  | append_singleton as a ih =>
    have hrun : (Machine.run (AnnouncedRelay.step c) {} (as ++ [a])).1 =
        ((Machine.run (AnnouncedRelay.step c) {} as).1.step c a).1 := by
      rw [Machine.run_append, Machine.run_singleton]
    rw [Machine.along_append]
    constructor
    · rintro ⟨hsafe, hlast, -⟩ bs hbs
      rcases List.prefix_concat_iff.mp hbs with rfl | hbs
      · rw [hrun]
        exact ((RosterInv.run hsafe).step hlast).correct
      · exact ih.mp hsafe bs hbs
    · intro hcorrect
      have hsafe := ih.mpr fun bs hbs ↦ hcorrect bs (hbs.trans (List.prefix_append as [a]))
      have hlast := hcorrect _ (List.prefix_refl (as ++ [a]))
      have hinv := RosterInv.run hsafe
      rw [hrun, rosterCorrect_step_iff hinv.placed hinv.correct] at hlast
      exact ⟨hsafe, hlast, trivial⟩

/-- **The presence roster.** Exactly in the runs whose steps are all safe, each roster holds in every
state the latest presences that sockets in its room have announced; and in these runs no session's
step touches the entry of another user. -/
theorem roster_correct (c : RelayConfig) (as : List SocketAction) :
    (Machine.Along (AnnouncedRelay.step c) (PresenceSafe c) {} as ↔
        ∀ bs, bs <+: as → (Machine.run (AnnouncedRelay.step c) {} bs).1.RosterCorrect) ∧
      ∀ a, Machine.Along (AnnouncedRelay.step c) (PresenceSafe c) {} (as ++ [a]) → ∀ socket,
        a.actor = some socket → ∀ key deviceId presence,
          ((Machine.run (AnnouncedRelay.step c) {} as).1.relay.sockets.roster key).get deviceId =
            some presence →
          ¬(Machine.run (AnnouncedRelay.step c) {} as).1.IsUserOf socket presence.userId →
          ((Machine.run (AnnouncedRelay.step c) {} (as ++ [a])).1.relay.sockets.roster key).get
            deviceId = some presence := by
  refine ⟨along_presenceSafe_iff c as, fun a hsafe socket hactor key deviceId presence hentry hother ↦ ?_⟩
  rw [Machine.along_append] at hsafe
  rw [Machine.run_append, Machine.run_singleton]
  exact entry_kept (RosterInv.run hsafe.1) hsafe.2.1 hactor hentry hother

example : Machine.Along (AnnouncedRelay.step {}) (PresenceSafe {}) {} adaPresent := by
  decide

/-- Bob's presence takes the place of Ada's, who is still in the room. -/
theorem not_roster_correct_bothPresent :
    ¬(Machine.run (AnnouncedRelay.step {}) {} bothPresent).1.RosterCorrect := by
  intro hcorrect
  have hlisted := (hcorrect.2 "team-1:room-1" "device-1" adaPresence).mpr
    ⟨by decide, rfl, by decide⟩
  have hbob : ((Machine.run (AnnouncedRelay.step {}) {} bothPresent).1.relay.sockets.roster
      "team-1:room-1").get "device-1" ≠ some adaPresence := by decide
  exact hbob hlisted

/-- When Bob's socket closes before he has published anything, Ada's entry goes. -/
example : ((Machine.run (AnnouncedRelay.step {}) {} (adaPresent ++ [.closed 2])).1.relay.sockets.roster
    "team-1:room-1").get "device-1" = none := by
  decide

end AnnouncedRelay

end MultAIplayer
