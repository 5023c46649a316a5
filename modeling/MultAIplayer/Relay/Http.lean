import MultAIplayer.Relay.Domain

/-!
# Handling HTTP requests

What the handlers of the HTTP routes have in common: what they read, how they answer, and the
checks that many of them make.

A handler is a function of the records: it answers at once, or it asks for a transaction and says
what happens when the save returns and what is answered when it throws. A handler that waits for an
account turn or for a quota turn checks everything again afterwards, so that its decision and its
transaction are one step; the session that it checks is the one that is live in that step.

Quotas and rate limits are answers of the environment (`withinQuota`), and so are the ids that
`nanoid` draws.
-/

namespace MultAIplayer

/-- `DeviceSessionRecord`. -/
structure DeviceSessionRecord where
  token : String
  userId : String
  deviceId : String
  expiresAt : Instant
  deriving DecidableEq

/-! ### Answers -/

/-- The arguments of `sendRelayError`. -/
structure HttpError where
  status : ℕ
  code : String
  message : String
  deriving DecidableEq

/-- The answers that the modelled code distinguishes, with the record that an answer hands out. -/
inductive HttpReply
  | error (error : HttpError)
  | thrown (message : String)
  | done
  | keyPackage (keyPackage : KeyPackageRecord)
  | alreadyConsumed (keyPackageHash : String)
  | inviteAcknowledged
  deriving DecidableEq

/-- What a handler does besides answering, once its save has returned. -/
inductive Effect
  | broadcastWorkspaceUpdated (team : TeamRecord)
  | broadcastRoomUpdated (room : RoomRecord)
  | revokeTeamMemberSessions (teamId userId : String)
  | notifyInviteRequested (inviteId requestId : String)
  | closeAuthSessionSockets (sessions : List AuthSession)
  | finishAccountDeletion (userId : String) (memberTeamIds : List String)
  | evictAccount (userId : String)
  | revokeUserSessions (userId : String)
  | deleteDeviceSessions (userId : String)
  deriving DecidableEq

/-- A transaction, what follows its save, and what is answered when the save throws. -/
structure Commit where
  transaction : Transaction
  saved : HttpReply := .done
  effects : List Effect := []
  /-- Whether the effects follow an await of the save. -/
  awaits : Bool := false
  unsaved : HttpReply
  /-- What happens also when the save throws. -/
  unsavedEffects : List Effect := []

/-- How a handler ends. -/
inductive Handling
  | answer (reply : HttpReply)
  | commit (commit : Commit)

/-- An answer that is an error. -/
abbrev Handling.refuse (status : ℕ) (code message : String) : Handling :=
  .answer (.error ⟨status, code, message⟩)

/-- What is answered when a handler throws. -/
def internalError : HttpReply :=
  .error ⟨500, "internal_error", "The relay could not complete this request."⟩

/-- `sendRelayError(res, 503, "persistence_unavailable", message)`. -/
def persistenceUnavailable (message : String) : HttpReply :=
  .error ⟨503, "persistence_unavailable", message⟩

/-! ### What a handler reads -/

/-- What a handler reads besides its own input. -/
structure HttpContext where
  platform : Platform
  now : Instant
  records : Records
  session : Option AuthSession
  deviceSessions : InsertionMap String DeviceSessionRecord
  /-- The `x-device-session` header. -/
  deviceSessionToken : Option String

/-- `hasDeviceSession` of `device-auth.ts`, without the deletion of an expired session. -/
def hasDeviceSession (now : Instant) (deviceSessions : InsertionMap String DeviceSessionRecord)
    (token userId deviceId : String) : Bool :=
  (deviceSessions.get token).any fun session ↦
    now ≤ session.expiresAt && session.userId = userId && session.deviceId = deviceId

/-- `getAuthSession`, without the deletion of a dead session. -/
def Records.getAuthSession (r : Records) (now : Instant) (sessionIdHash : String) :
    Option AuthSession :=
  (r.authSessions.get sessionIdHash).filter fun session ↦
    session.sessionIdHash = sessionIdHash && !r.isAccountRestricted now session.user.id &&
      now < session.expiresAt

namespace HttpContext

variable (x : HttpContext)

/-- The configuration that a handler reads. -/
abbrev config : RelayConfig := x.platform.config

def hasDeviceSession (userId deviceId : String) : Bool :=
  x.deviceSessionToken.any fun token ↦
    MultAIplayer.hasDeviceSession x.now x.deviceSessions token userId deviceId

/-- `session ? store.getTeamMember(teamId, session.user.id)?.role : "owner"`. -/
def requesterRole (teamId : String) : Option TeamRole :=
  match x.session with
  | some session => (x.records.getTeamMember teamId session.user.id).map (·.role)
  | none => some .owner

/-- `session && !isTeamMember(teamId, session.user.id)`. -/
def isStranger (teamId : String) : Bool :=
  x.session.any fun session ↦ !x.records.hasTeamMember teamId session.user.id

/-- `session && !canAccessRoom(room.teamId, room.id, session.user.id)`. -/
def lacksAccess (teamId roomId : String) : Bool :=
  x.session.any fun session ↦ !x.records.canAccessRoom teamId roomId session.user.id

/-- `session && !isLiveAccountSession(store, session)`. -/
def sessionDied : Bool :=
  x.session.any fun session ↦ !x.records.isLiveAccountSession x.now session

end HttpContext

/-- `displayNameForUser`. -/
def displayNameForUser (user : AuthUser) : String :=
  let name := Text.trim (user.name.getD "")
  if name = "" then user.login else name

/-- `createRequesterFromRequest`, with the id and the name that the body gives. -/
def HttpContext.requesterFromRequest (x : HttpContext) (bodyId bodyName : String) : Requester :=
  match x.session with
  | some session =>
    ⟨session.user.id,
      (normalizeMetadataText (displayNameForUser session.user) maxDisplayNameChars).getD ""⟩
  | none =>
    ⟨(normalizeMetadataText bodyId maxUserIdChars).getD "",
      (normalizeMetadataText bodyName maxDisplayNameChars).getD ""⟩

/-! ### Rooms and teams -/

/-- What `scrubDeletedRoomHostIdentity` and account deletion leave of a deleted room. -/
def RoomRecord.withoutHostIdentity (room : RoomRecord) (host : String) : RoomRecord :=
  { room with
    hostUserId := none
    activeHostDeviceId := none
    host := host
    hostStatus := .offline }

/-- The lifecycle actions of teams and rooms. -/
inductive LifecycleAction
  | archive
  | restore
  | delete
  deriving DecidableEq

/-- `roomAfterTeamLifecycleAction`, which is also `roomAfterLifecycleAction`. -/
def RoomRecord.afterLifecycleAction (room : RoomRecord) (action : LifecycleAction) (now : Instant) :
    RoomRecord :=
  match action with
  | .restore => { room with archivedAt := none }
  | .archive => { room with archivedAt := some (room.archivedAt.getD now) }
  | .delete => { room with archivedAt := none, deletedAt := some now }

/-- `teamAfterLifecycleAction`. -/
def TeamRecord.afterLifecycleAction (team : TeamRecord) (action : LifecycleAction) (now : Instant) :
    TeamRecord :=
  match action with
  | .restore => { team with archivedAt := none }
  | .archive => { team with archivedAt := some (team.archivedAt.getD now) }
  | .delete => { team with archivedAt := none, deletedAt := some now }

end MultAIplayer
