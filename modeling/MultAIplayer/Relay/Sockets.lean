import MultAIplayer.Lib.Machine
import MultAIplayer.Relay.Http
import MultAIplayer.Relay.Keys

/-!
# Sockets

The WebSocket side of the relay: `ws/rooms.ts`, `ws/connection.ts`, `ws/connection-admission.ts`,
the synchronous frames of `ws/connection-dispatch.ts`, and presence of `ws/fanout.ts`.

A client session is an object that the handlers of its socket keep, also after `store.sessions` has
dropped it: its `close` event still finds the room that the session was last in. `clients` holds the
session of every socket whose `close` event has not come, `isRegistered` says whether
`store.sessions` still has it, and `isOpen` whether the socket is in the state `OPEN`.

What is sent, and who enters and leaves which room, are events.
-/

namespace MultAIplayer

/-- A WebSocket connection. -/
abbrev Socket := ℕ

/-- `ClientSession`, with the state of its socket. -/
structure ClientSession where
  authSession : Option AuthSession
  rateClientId : String
  teamId : Option String := none
  roomId : Option String := none
  userId : Option String := none
  deviceId : Option String := none
  deviceSessionToken : Option String := none
  subscribedTeamIds : List String := []
  workspaceSubscribed : Bool := false
  displayName : Option String := none
  avatarUrl : Option String := none
  /-- `socket.readyState === socket.OPEN`. -/
  isOpen : Bool := true
  /-- `sessions.get(socket) === session`. -/
  isRegistered : Bool := true
  deriving DecidableEq

structure PresenceRecord where
  teamId : String
  roomId : String
  userId : String
  deviceId : String
  displayName : String
  avatarUrl : Option String := none
  publicKeyFingerprint : Option String := none
  deriving DecidableEq

/-- The messages to clients that the modelled code sends. -/
inductive ServerMessage
  | error (message : String) (code teamId : Option String)
  | joined (teamId roomId : String)
  | teamSubscribed (teamId : String)
  | workspaceSubscribed
  | inviteRequested (inviteId requestId : String)
  | mlsMessage (message : MlsRelayMessage)
  | presence (presence : PresenceRecord) (isOnline : Bool)
  | teamUpdated (team : TeamRecord)
  deriving DecidableEq

abbrev ServerMessage.plainError (message : String) : ServerMessage := .error message none none

/-- What happens on the sockets. -/
inductive SocketEvent
  | sent (socket : Socket) (message : ServerMessage)
  | joined (socket : Socket) (key : RoomKey)
  | left (socket : Socket) (key : RoomKey)
  | published (socket : Socket) (key : RoomKey) (presence : PresenceRecord)
  deriving DecidableEq

/-- The maps of `RelayStore` that are not stored. -/
structure Sockets where
  clients : InsertionMap Socket ClientSession := .empty
  roomSockets : InsertionMap RoomKey (List Socket) := .empty
  teamSockets : InsertionMap String (List Socket) := .empty
  workspaceSockets : List Socket := []
  roomPresence : InsertionMap RoomKey (InsertionMap String PresenceRecord) := .empty

/-- What the socket handlers read besides the sockets. -/
structure SocketContext where
  config : RelayConfig
  now : Instant
  records : Records
  deviceSessions : InsertionMap String DeviceSessionRecord

/-! ### Sets of sockets -/

/-- Add a socket to a set. -/
def insertSocket (socket : Socket) (sockets : List Socket) : List Socket :=
  if socket ∈ sockets then sockets else sockets ++ [socket]

/-- Add a socket to the set of a key, which is made when there is none. -/
def addSocket (m : InsertionMap String (List Socket)) (k : String) (socket : Socket) :
    InsertionMap String (List Socket) :=
  m.set k (insertSocket socket ((m.get k).getD []))

/-- Remove a socket from the set of a key, and the set when it is empty. -/
def removeSocket (m : InsertionMap String (List Socket)) (k : String) (socket : Socket) :
    InsertionMap String (List Socket) :=
  match m.get k with
  | none => m
  | some sockets =>
    let remaining := sockets.filter (· ≠ socket)
    if remaining = [] then m.delete k else m.set k remaining

/-! ### Sessions -/

namespace ClientSession

variable (session : ClientSession)

/-- The key of the room that the session was last in. -/
def room : Option RoomKey :=
  (session.teamId.filter (· ≠ "")).bind fun teamId ↦
    (session.roomId.filter (· ≠ "")).map fun roomId ↦ roomKey teamId roomId

/-- The device whose presence leaving a room looks up. -/
def device : Option String := session.deviceId.filter (· ≠ "")

/-- `session.authSession?.user.id === userId || session.userId === userId`. -/
def isOf (userId : String) : Bool :=
  session.authSession.any (·.user.id = userId) || session.userId = some userId

/-- `session.authSession?.user.id ?? session.rateClientId`. -/
def connectionUser : String := (session.authSession.map (·.user.id)).getD session.rateClientId

/-- What `dispatchJoin` writes into a session before it asks for the quota. -/
def identified (userId deviceId : String) (deviceSessionToken : Option String) : ClientSession :=
  { session with
    userId := some userId
    deviceId := some deviceId
    deviceSessionToken := some (deviceSessionToken.getD "development-auth-disabled") }

end ClientSession

namespace Sockets

variable (s : Sockets)

def updateClient (socket : Socket) (f : ClientSession → ClientSession) : Sockets :=
  { s with clients := s.clients.mapValues fun x session ↦ if x = socket then f session else session }

/-- The presences of a room by device id. -/
def roster (key : RoomKey) : InsertionMap String PresenceRecord := (s.roomPresence.get key).getD .empty

/-- Replace a roster; an empty one is deleted. -/
def setRoster (key : RoomKey) (roster : InsertionMap String PresenceRecord) : Sockets :=
  { s with roomPresence :=
      if roster.size = 0 then s.roomPresence.delete key else s.roomPresence.set key roster }

/-- `socket.close(..)`: nothing more is received or sent. The `close` event comes later. -/
def close (socket : Socket) : Sockets := s.updateClient socket fun c ↦ { c with isOpen := false }

/-- The sessions of `store.sessions`. -/
def registered : List (Socket × ClientSession) := s.clients.entries.filter (·.2.isRegistered)

end Sockets

namespace SocketContext

variable (x : SocketContext) (s : Sockets)

/-! ### Sending -/

/-- `sendRaw`, which is also `sendConnectionError`. -/
def sendRaw (socket : Socket) (message : ServerMessage) : List SocketEvent :=
  if (s.clients.get socket).any (·.isOpen) then [.sent socket message] else []

/-- `isLiveClientSession`. -/
def isLiveClientSession (session : ClientSession) : Bool :=
  !x.config.mutationsRequireAuth || session.authSession.any (x.records.isLiveAccountSession x.now)

/-- `send`. -/
def send (socket : Socket) (message : ServerMessage) : List SocketEvent :=
  if ((s.clients.get socket).filter (·.isRegistered)).any x.isLiveClientSession ||
      !x.config.mutationsRequireAuth then
    sendRaw s socket message
  else []

/-- `broadcast`. -/
def broadcast (key : RoomKey) (message : ServerMessage) : List SocketEvent :=
  ((s.roomSockets.get key).getD []).flatMap fun socket ↦ x.send s socket message

/-- `teamRecordForUser`. -/
def teamRecordForUser (team : TeamRecord) (userId : Option String) : TeamRecord :=
  { team with role := ((userId.bind (x.records.getTeamMember team.id)).map (·.role)).or team.role }

/-- `broadcastWorkspaceUpdated`. -/
def broadcastWorkspaceUpdated (team : TeamRecord) : List SocketEvent :=
  s.workspaceSockets.flatMap fun socket ↦
    let session := (s.clients.get socket).filter (·.isRegistered)
    let userId := session.bind fun session ↦ (session.authSession.map (·.user.id)).or session.userId
    if x.config.mutationsRequireAuth && !userId.any (x.records.hasTeamMember team.id) then []
    else x.send s socket (.teamUpdated (x.teamRecordForUser team userId))

/-! ### Leaving -/

/-- The part of `leaveRoom` about the roster: the entry of the session's device is deleted. -/
@[grind =] def dropPresence (key : RoomKey) (device : Option String) : Sockets × List SocketEvent :=
  match device.bind fun deviceId ↦ (s.roster key).get deviceId with
  | none => (s, [])
  | some presence =>
    let s := s.setRoster key ((s.roster key).filter fun deviceId _ ↦ some deviceId ≠ device)
    (s, x.broadcast s key (.presence presence false))

/-- `leaveRoom`. -/
@[grind =] def leaveRoom (socket : Socket) : Sockets × List SocketEvent :=
  match s.clients.get socket with
  | none => (s, [])
  | some session =>
    match session.room with
    | none => (s, [])
    | some key =>
      let (s, offline) := x.dropPresence s key session.device
      ({ s with roomSockets := removeSocket s.roomSockets key socket },
        offline ++ [.left socket key])

/-- `leaveTeams`. -/
def leaveTeams (socket : Socket) : Sockets :=
  match s.clients.get socket with
  | none => s
  | some session =>
    { s.updateClient socket fun session ↦ { session with subscribedTeamIds := [] } with
      teamSockets := session.subscribedTeamIds.foldl (removeSocket · · socket) s.teamSockets }

/-- `leaveWorkspace`. -/
def leaveWorkspace (socket : Socket) : Sockets :=
  if (s.clients.get socket).any (·.workspaceSubscribed) then
    { s.updateClient socket fun session ↦ { session with workspaceSubscribed := false } with
      workspaceSockets := s.workspaceSockets.filter (· ≠ socket) }
  else s

/-- `leaveRoom`, `leaveTeams` and `leaveWorkspace`. -/
def leaveAll (socket : Socket) : Sockets × List SocketEvent :=
  let (s, events) := x.leaveRoom s socket
  (leaveWorkspace (leaveTeams s socket) socket, events)

/-- What the `close` event of a socket does. -/
def closed (socket : Socket) : Sockets × List SocketEvent :=
  let (s, events) := x.leaveAll s socket
  ({ s with clients := s.clients.delete socket }, events)

/-! ### Revoking -/

/-- The body of the loop of `revokeTeamMemberSessions`. -/
def revokeTeamMemberSession (teamId userId : String) (socket : Socket) :
    Sockets × List SocketEvent :=
  match (s.clients.get socket).filter (·.isRegistered) with
  | none => (s, [])
  | some session =>
    if !session.isOf userId then (s, [])
    else if session.teamId ≠ some teamId && teamId ∉ session.subscribedTeamIds &&
        !session.workspaceSubscribed then (s, [])
    else
      let notice := x.send s socket (.error
        "Your team membership was removed. Rejoin with a fresh invite before continuing."
        (some "membership_removed") (some teamId))
      let (s, events) := x.leaveAll s socket
      (s.close socket, notice ++ events)

/-- `revokeTeamMemberSessions`. -/
def revokeTeamMemberSessions (teamId userId : String) : Sockets × List SocketEvent :=
  Machine.run (fun s socket ↦ x.revokeTeamMemberSession s teamId userId socket) s s.clients.keys

/-- `revokeUserPresence`. -/
def revokeUserPresence (userId : String) : Sockets × List SocketEvent :=
  ({ s with
      roomPresence := (s.roomPresence.mapValues fun _ roster ↦
        roster.filter fun _ presence ↦ presence.userId ≠ userId).filter fun _ roster ↦
          roster.size ≠ 0 },
    s.roomPresence.entries.flatMap fun entry ↦
      (entry.2.values.filter (·.userId = userId)).flatMap fun presence ↦
        x.broadcast s entry.1 (.presence presence false))

/-- The body of the loop of `revokeUserSessions`. -/
def revokeUserSession (userId message : String) (socket : Socket) : Sockets × List SocketEvent :=
  match (s.clients.get socket).filter (·.isRegistered) with
  | none => (s, [])
  | some session =>
    if !session.isOf userId then (s, [])
    else
      let notice := x.send s socket (.plainError message)
      let (s, events) := x.leaveAll s socket
      (s.updateClient socket fun c ↦ { c with isOpen := false, isRegistered := false },
        notice ++ events)

/-- `revokeUserSessions`. -/
def revokeUserSessions (userId message : String) : Sockets × List SocketEvent :=
  let (s, events) :=
    Machine.run (fun s socket ↦ x.revokeUserSession s userId message socket) s s.clients.keys
  let (s, offline) := x.revokeUserPresence s userId
  (s, events ++ offline)

/-- What an account deletion does to the sockets once it is saved. -/
def revokeDeletedAccount (userId : String) (memberTeamIds : List String) :
    Sockets × List SocketEvent :=
  let (s, events) :=
    Machine.run (fun s teamId ↦ x.revokeTeamMemberSessions s teamId userId) s memberTeamIds
  let (s, offline) := x.revokeUserPresence s userId
  ({ s with clients := s.clients.mapValues fun _ session ↦
      if session.isRegistered && session.isOf userId then { session with isOpen := false }
      else session },
    events ++ offline)

end SocketContext

/-! ### Frames -/

/-- The frames that are answered without an await, as `RelayClientMessage` parses them. -/
inductive ClientFrame
  | join (teamId roomId : RelayId) (userId deviceId : String)
      (inviteId deviceSessionToken : Option String)
  | subscribeTeam (teamId : RelayId) (userId deviceId : String)
  | subscribeWorkspace (userId deviceId : String)
  | presence (teamId roomId : RelayId) (userId deviceId displayName : String)
      (avatarUrl publicKeyFingerprint : Option String)

/-- One save of a join: what is staged and put back, and the team that is announced after it. -/
structure JoinSave where
  transaction : Transaction
  announced : Option TeamRecord := none

/-- What `canJoinRoom` decides: its saves, and its answer when all of them return. -/
structure JoinDecision where
  isAllowed : Bool
  saves : List JoinSave := []

def maxPublicKeyFingerprintChars : ℕ := 128
def maxRoomProjectPathChars : ℕ := 2048

def presenceLimitError : String :=
  "Presence display name, avatar URL, and fingerprint must be bounded strings without control characters."

/-- The record that `dispatchPresence` makes of a message. -/
def PresenceRecord.ofMessage (teamId roomId : RelayId) (userId deviceId displayName : String)
    (avatarUrl publicKeyFingerprint : Option String) : PresenceRecord where
  teamId := teamId
  roomId := roomId
  userId := userId
  deviceId := deviceId
  displayName := displayName
  avatarUrl := avatarUrl.filter (· ≠ "")
  publicKeyFingerprint := publicKeyFingerprint.filter (· ≠ "")

/-- `isBoundedSocketIdentity`. -/
def isBoundedSocketIdentity (userId deviceId : String) : Bool :=
  (normalizeMetadataText userId maxUserIdChars).isSome &&
    (normalizeMetadataText deviceId maxDeviceIdChars).isSome

/-- `isPresenceWithinLimits`. -/
def isPresenceWithinLimits (presence : PresenceRecord) : Bool :=
  (normalizeMetadataText presence.displayName maxDisplayNameChars).isSome &&
    presence.avatarUrl.all (fun url ↦ (normalizeMetadataText url maxRoomProjectPathChars).isSome) &&
    presence.publicKeyFingerprint.all fun fingerprint ↦
      (normalizeMetadataText fingerprint maxPublicKeyFingerprintChars).isSome

/-- `isPresenceForJoinedSession`. -/
def isPresenceForJoinedSession (session : ClientSession) (presence : PresenceRecord) : Bool :=
  session.teamId = some presence.teamId && session.roomId = some presence.roomId &&
    session.userId = some presence.userId && session.deviceId = some presence.deviceId

namespace SocketContext

variable (x : SocketContext) (s : Sockets)

/-- `rooms.hasDeviceSession` of the WebSocket adapter. -/
def hasDeviceSession (token userId deviceId : String) : Bool :=
  !x.config.mutationsRequireAuth ||
    (x.config.debugEndpointsEnabled && token = "debug-device-session-token-000000") ||
    MultAIplayer.hasDeviceSession x.now x.deviceSessions token userId deviceId

/-- `canAuthenticateJoinIdentity`. -/
def canAuthenticateJoinIdentity (session : ClientSession) (userId : String) : Bool :=
  !x.config.mutationsRequireAuth || session.authSession.any (·.user.id = userId)

/-! ### Joining -/

/-- `approvedInviteForAdmission`, for an invite that has not expired. -/
def isApprovedForAdmission (invite : InviteRecord) (userId deviceId : String) : Bool :=
  invite.approvedUserId = some userId && invite.approvedDeviceId = some deviceId &&
    x.records.inviteResponses.values.any fun response ↦
      response.inviteId = invite.id && response.requesterUserId = userId &&
        response.requesterDeviceId = deviceId && some response.keyPackageHash = invite.keyPackageHash &&
        response.status = .approved && response.welcome.any (· ≠ "")

/-- `addTeamMember`, as the saves that it makes. -/
def addTeamMemberSaves (teamId userId : String) : List JoinSave :=
  (x.records.addTeamMember x.now teamId userId).toList.map fun p ↦ ⟨⟨p.1, []⟩, some p.2⟩

/-- `canJoinRoom`. -/
def canJoinRoom (session : ClientSession) (teamId roomId userId deviceId : String)
    (inviteId : Option String) : JoinDecision :=
  if !x.config.mutationsRequireAuth then ⟨true, x.addTeamMemberSaves teamId userId⟩
  else if !session.authSession.any (·.user.id = userId) then ⟨false, []⟩
  else if x.records.canAccessRoom teamId roomId userId then ⟨true, []⟩
  else if !x.records.isActiveRoom teamId roomId then ⟨false, []⟩
  else
    match ((inviteId.filter (· ≠ "")).bind x.records.invites.get).filter
      fun invite ↦ invite.teamId = teamId && invite.roomId = roomId with
    | none => ⟨false, []⟩
    | some invite =>
      if invite.expiresAt.any (· < x.now) then ⟨false, [⟨⟨[.delete .invites invite.id], []⟩, none⟩]⟩
      else if !x.isApprovedForAdmission invite userId deviceId then ⟨false, []⟩
      else
        ⟨true, x.addTeamMemberSaves teamId userId ++
          [⟨⟨[.delete .invites invite.id], [.setInvite invite]⟩, none⟩]⟩

/-- `socketConnectionQuotaError`. -/
def socketConnectionQuotaError (socket : Socket) (session : ClientSession) : Option String :=
  let others := s.registered.filter fun p ↦
    p.1 ≠ socket && p.2.connectionUser = session.connectionUser
  if x.config.websocketConnectionsPerUser ≤ others.length then
    some ("Concurrent WebSocket connection quota exceeded for this user (" ++
      toString x.config.websocketConnectionsPerUser ++ " max).")
  else if session.device.isSome && x.config.websocketConnectionsPerDevice ≤
      (others.filter fun p ↦ p.2.device = session.device).length then
    some ("Concurrent WebSocket connection quota exceeded for this device (" ++
      toString x.config.websocketConnectionsPerDevice ++ " max).")
  else none

/-- What `dispatchJoin` refuses before it asks `canJoinRoom`. -/
def joinRefusal (session : ClientSession) (teamId roomId userId deviceId : String)
    (inviteId deviceSessionToken : Option String) : Option ServerMessage :=
  if !isBoundedSocketIdentity userId deviceId then
    some (.plainError "WebSocket user and device ids must be bounded strings without control characters.")
  else if (inviteId.filter (· ≠ "")).any fun id ↦
      (normalizeMetadataText id maxEnvelopeIdChars).isNone then
    some (.plainError "Invite id must be a bounded string without control characters.")
  else if !x.records.isActiveRoom teamId roomId then some (.plainError "Room not found")
  else if !x.canAuthenticateJoinIdentity session userId then
    some (.plainError "Sign in and use a valid invite before joining this room.")
  else if !x.hasDeviceSession (deviceSessionToken.getD "") userId deviceId then
    some (.error "A device-authenticated session is required." (some "not_joined") none)
  else none

/-- `joinRoom`. -/
def joinRoom (socket : Socket) (teamId roomId userId deviceId : String) :
    Sockets × List SocketEvent :=
  let (s, events) := x.leaveRoom s socket
  let key := roomKey teamId roomId
  ({ s.updateClient socket fun session ↦
      { session with
        teamId := some teamId
        roomId := some roomId
        userId := some userId
        deviceId := some deviceId } with
      roomSockets := addSocket s.roomSockets key socket },
    events ++ [.joined socket key])

/-- `replayPendingInviteRequests`. -/
def replayPendingInviteRequests (socket : Socket) (teamId roomId userId deviceId : String) :
    List SocketEvent :=
  match (x.records.rooms.get roomId).filter (·.teamId = teamId) with
  | none => []
  | some room =>
    if !room.isActiveHost userId deviceId then []
    else
      (x.records.inviteRequests.values.filter fun request ↦
        !x.records.inviteResponses.has request.requestId &&
          (x.records.invites.get request.inviteId).any fun invite ↦
            invite.roomId = room.id && invite.teamId = room.teamId).flatMap fun request ↦
        x.send s socket (.inviteRequested request.inviteId request.requestId)

/-- What a socket that has joined a room is sent. -/
def welcome (socket : Socket) (teamId roomId userId deviceId : String) : List SocketEvent :=
  let key := roomKey teamId roomId
  ((x.records.mlsBacklogOf key).flatMap fun message ↦ x.send s socket (.mlsMessage message)) ++
    x.replayPendingInviteRequests s socket teamId roomId userId deviceId ++
    ((s.roster key).values.flatMap fun presence ↦ x.send s socket (.presence presence true)) ++
    x.send s socket (.joined teamId roomId)

/-- The end of `dispatchJoin`, once `canJoinRoom` has said yes. -/
def enterRoom (socket : Socket) (teamId roomId userId deviceId : String)
    (deviceSessionToken : Option String) : Sockets × List SocketEvent :=
  let s := s.updateClient socket fun session ↦ session.identified userId deviceId deviceSessionToken
  match (s.clients.get socket).bind (x.socketConnectionQuotaError s socket) with
  | some message => (s.close socket, x.send s socket (.plainError message))
  | none =>
    let (s, events) := x.joinRoom s socket teamId roomId userId deviceId
    (s, events ++ x.welcome s socket teamId roomId userId deviceId)

/-! ### Subscribing and presence -/

/-- `dispatchTeamSubscription`. -/
def dispatchTeamSubscription (socket : Socket) (session : ClientSession)
    (teamId userId deviceId : String) : Sockets × List SocketEvent :=
  if !isBoundedSocketIdentity userId deviceId then
    (s, x.send s socket (.plainError
      "WebSocket user and device ids must be bounded strings without control characters."))
  else if !x.records.teams.has teamId then (s, x.send s socket (.plainError "Team not found"))
  else if !x.records.isActiveTeam teamId || (x.config.mutationsRequireAuth &&
      !(session.authSession.any (·.user.id = userId) && x.records.hasTeamMember teamId userId)) then
    (s, x.send s socket (.plainError "Join this team before subscribing to it."))
  else
    let s := { s.updateClient socket fun session ↦
        { session with
          subscribedTeamIds := if teamId ∈ session.subscribedTeamIds then session.subscribedTeamIds
            else session.subscribedTeamIds ++ [teamId] } with
      teamSockets := addSocket s.teamSockets teamId socket }
    (s, x.send s socket (.teamSubscribed teamId))

/-- `dispatchWorkspaceSubscription`. -/
def dispatchWorkspaceSubscription (socket : Socket) (session : ClientSession)
    (userId deviceId : String) : Sockets × List SocketEvent :=
  if !isBoundedSocketIdentity userId deviceId then
    (s, x.send s socket (.plainError
      "WebSocket user and device ids must be bounded strings without control characters."))
  else if !x.canAuthenticateJoinIdentity session userId then
    (s, x.send s socket (.plainError "Sign in before subscribing to the workspace."))
  else
    let s := { s.updateClient socket fun session ↦ { session with workspaceSubscribed := true } with
      workspaceSockets := insertSocket socket s.workspaceSockets }
    (s, x.send s socket .workspaceSubscribed)

/-- The presence that `publishPresence` lists: with the fingerprint of the registered device, where
there is one. -/
def verifiedPresence (presence : PresenceRecord) : PresenceRecord :=
  { presence with
    publicKeyFingerprint := (((x.records.getDevice presence.userId presence.deviceId).map
      (·.signatureKeyFingerprint)).filter (· ≠ "")).or presence.publicKeyFingerprint }

/-- `publishPresence`. -/
def publishPresence (socket : Socket) (presence : PresenceRecord) : Sockets × List SocketEvent :=
  let verified := x.verifiedPresence presence
  let key := roomKey presence.teamId presence.roomId
  let s := s.updateClient socket fun session ↦
    { session with displayName := some presence.displayName, avatarUrl := presence.avatarUrl }
  let s := { s with
    roomPresence := s.roomPresence.set key ((s.roster key).set verified.deviceId verified) }
  (s, .published socket key verified :: x.broadcast s key (.presence verified true))

/-- What `dispatchPresence` refuses. -/
def presenceRefusal (session : ClientSession) (presence : PresenceRecord) : Option String :=
  if !x.records.isActiveRoom presence.teamId presence.roomId ||
      !isPresenceForJoinedSession session presence then
    some "Join the room before publishing presence with this user and device."
  else if !isPresenceWithinLimits presence then some presenceLimitError
  else none

/-- `dispatchPresence`. -/
def dispatchPresence (socket : Socket) (session : ClientSession) (presence : PresenceRecord) :
    Sockets × List SocketEvent :=
  match x.presenceRefusal session presence with
  | some message => (s, x.send s socket (.plainError message))
  | none => x.publishPresence s socket presence

end SocketContext

/-! ### The relay with its sockets -/

/-- What the socket handlers work on. -/
structure LiveRelay where
  now : Instant := 0
  records : Records := {}
  deviceSessions : InsertionMap String DeviceSessionRecord := .empty
  sockets : Sockets := {}

/-- What happens to the sockets. -/
inductive SocketAction
  /-- Anything else that the relay does: to the clock, the store and the device sessions. -/
  | elsewhere (now : Instant) (records : Records)
      (deviceSessions : InsertionMap String DeviceSessionRecord)
  | connection (socket : Socket) (authSession : Option AuthSession) (rateClientId : String)
  /-- A frame, and whether the saves that it makes return. -/
  | frame (socket : Socket) (frame : ClientFrame) (saved : List Bool)
  /-- The relay closes a socket: logout, a replaced session, a shutdown. -/
  | close (socket : Socket)
  /-- The `close` event of a socket. -/
  | closed (socket : Socket)
  | revokeTeamMemberSessions (teamId userId : String)
  | revokeUserSessions (userId message : String)
  | revokeDeletedAccount (userId : String) (memberTeamIds : List String)

namespace LiveRelay

variable (c : RelayConfig) (s : LiveRelay)

def context : SocketContext := ⟨c, s.now, s.records, s.deviceSessions⟩

/-- Put a result of the socket handlers in place. -/
def withSockets (result : Sockets × List SocketEvent) : LiveRelay × List SocketEvent :=
  ({ s with sockets := result.1 }, result.2)

/-- Make the saves of a join one after another; a save that throws ends the join. -/
def performSaves (s : LiveRelay) : List JoinSave → List Bool → LiveRelay × List SocketEvent × Bool
  | [], _ => (s, [], true)
  | save :: saves, saved =>
    let staged := { s with records := s.records.editAll save.transaction.stage }
    if saved.headD true then
      let announced := save.announced.toList.flatMap fun team ↦
        (staged.context c).broadcastWorkspaceUpdated staged.sockets team
      let (s, events, isDone) := performSaves staged saves saved.tail
      (s, announced ++ events, isDone)
    else ({ staged with records := staged.records.editAll save.transaction.rollback }, [], false)

/-- `dispatchJoin`. -/
def dispatchJoin (socket : Socket) (session : ClientSession)
    (teamId roomId userId deviceId : String) (inviteId deviceSessionToken : Option String)
    (saved : List Bool) : LiveRelay × List SocketEvent :=
  let x := s.context c
  match x.joinRefusal session teamId roomId userId deviceId inviteId deviceSessionToken with
  | some message => (s, x.send s.sockets socket message)
  | none =>
    let decision := x.canJoinRoom session teamId roomId userId deviceId inviteId
    let (s, events, isDone) := performSaves c s decision.saves saved
    let x := s.context c
    if !isDone then (s, events ++ x.send s.sockets socket (.plainError "Relay request failed."))
    else if !decision.isAllowed then
      (s, events ++ x.send s.sockets socket
        (.plainError "Sign in and use a valid invite before joining this room."))
    else
      let (s, entered) := s.withSockets
        (x.enterRoom s.sockets socket teamId roomId userId deviceId deviceSessionToken)
      (s, events ++ entered)

/-- `dispatchRelayClientMessage`. -/
@[grind =]
def dispatch (socket : Socket) (session : ClientSession) (frame : ClientFrame) (saved : List Bool) :
    LiveRelay × List SocketEvent :=
  let x := s.context c
  if !x.isLiveClientSession session then
    ({ s with sockets := s.sockets.close socket }, SocketContext.sendRaw s.sockets socket
      (.error "Authentication session expired." (some "not_joined") none))
  else
    match frame with
    | .join teamId roomId userId deviceId inviteId deviceSessionToken =>
      s.dispatchJoin c socket session teamId roomId userId deviceId inviteId deviceSessionToken saved
    | .subscribeTeam teamId userId deviceId =>
      s.withSockets (x.dispatchTeamSubscription s.sockets socket session teamId userId deviceId)
    | .subscribeWorkspace userId deviceId =>
      s.withSockets (x.dispatchWorkspaceSubscription s.sockets socket session userId deviceId)
    | .presence teamId roomId userId deviceId displayName avatarUrl publicKeyFingerprint =>
      s.withSockets (x.dispatchPresence s.sockets socket session (.ofMessage teamId roomId userId
        deviceId displayName avatarUrl publicKeyFingerprint))

/-- `admitRelayWebSocketConnection`. -/
def admitConnection (socket : Socket) (authSession : Option AuthSession) (rateClientId : String) :
    LiveRelay × List SocketEvent :=
  let session : ClientSession := { authSession := authSession, rateClientId := rateClientId }
  if s.sockets.clients.has socket then (s, [])
  else
    match (s.context c).socketConnectionQuotaError s.sockets socket session with
    | some message => (s, [.sent socket (.plainError message)])
    | none =>
      ({ s with sockets.clients := s.sockets.clients.set socket session }, [])

@[grind =] def step : SocketAction → LiveRelay × List SocketEvent
  | .elsewhere now records deviceSessions =>
    ({ s with now := now, records := records, deviceSessions := deviceSessions }, [])
  | .connection socket authSession rateClientId => s.admitConnection c socket authSession rateClientId
  | .frame socket frame saved =>
    match (s.sockets.clients.get socket).filter fun session ↦
      session.isOpen && session.isRegistered with
    | none => (s, [])
    | some session => s.dispatch c socket session frame saved
  | .close socket => ({ s with sockets := s.sockets.close socket }, [])
  | .closed socket => s.withSockets ((s.context c).closed s.sockets socket)
  | .revokeTeamMemberSessions teamId userId =>
    s.withSockets ((s.context c).revokeTeamMemberSessions s.sockets teamId userId)
  | .revokeUserSessions userId message =>
    s.withSockets ((s.context c).revokeUserSessions s.sockets userId message)
  | .revokeDeletedAccount userId memberTeamIds =>
    s.withSockets ((s.context c).revokeDeletedAccount s.sockets userId memberTeamIds)

end LiveRelay

end MultAIplayer
