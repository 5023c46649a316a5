import MultAIplayer.Relay.Transactions

/-!
# Domain rules of the relay

`relay-domain.ts`, `authz.ts` and the accessors of the store: which teams and rooms are active, who
may do what to whom, how a member is added and how invites are revoked with everything that hangs
on them.

Questions are asked of the records; answers that change something are lists of edits, so that
nothing is changed without a report.
-/

namespace MultAIplayer

/-- The configuration and the cryptography that the relay runs on. -/
structure Platform where
  config : RelayConfig := {}
  /-- `createHash("sha256").update(text).digest("hex")`. -/
  sha256 : String → String
  /-- The digest of the bytes that a Base64 text stands for. -/
  sha256OfBase64 : String → String
  /-- `verify("sha256", prefix + payload, publicKey, signature)`, `false` where it throws. -/
  verifyHostTransfer : (payload publicKeySpkiDer signatureDer : String) → Bool
  /-- `parseStrictDirectedInviteRequestJson`, the binding of the request that it reads. -/
  parseDirectedInviteRequest : String → Option InviteRequestBinding := fun _ ↦ none

/-! ### Accessors -/

/-- `deviceKey`. -/
def deviceKey (userId deviceId : String) : String := userId ++ ":" ++ deviceId

namespace Records

variable (r : Records)

/-- `getTeamMember`. -/
@[grind =] def getTeamMember (teamId userId : String) : Option TeamMemberRecord :=
  (r.teamMembers.get teamId).bind (·.get userId)

/-- `hasTeamMember`, which is also `isTeamMember`. -/
def hasTeamMember (teamId userId : String) : Bool := (r.getTeamMember teamId userId).isSome

/-- `getDevice`. -/
def getDevice (userId deviceId : String) : Option DeviceRecord :=
  r.devices.get (deviceKey userId deviceId)

/-- The retained messages of a room, `getMlsBacklog(key) ?? []`. -/
def mlsBacklogOf (key : RoomKey) : List MlsRelayMessage := (r.mlsBacklog.get key).getD []

/-! ### Active teams and rooms -/

def isActiveTeam (teamId : String) : Bool :=
  (r.teams.get teamId).any fun team ↦ team.archivedAt.isNone && team.deletedAt.isNone

def isActiveRoom (teamId roomId : String) : Bool :=
  r.isActiveTeam teamId && (r.rooms.get roomId).any fun room ↦
    room.teamId = teamId && room.archivedAt.isNone && room.deletedAt.isNone

def isActiveInviteTarget (invite : InviteRecord) : Bool :=
  r.isActiveRoom invite.teamId invite.roomId

/-- `canAccessRoom`. -/
def canAccessRoom (teamId roomId userId : String) : Bool :=
  r.isActiveRoom teamId roomId && r.hasTeamMember teamId userId

/-- `isAccountRestricted`. -/
def isAccountRestricted (now : Instant) (userId : String) : Bool :=
  (r.accountRestrictions.get userId).any fun restriction ↦
    restriction.expiresAt.all fun expiresAt ↦ now < expiresAt

/-- `isLiveAccountSession`. -/
def isLiveAccountSession (now : Instant) (session : AuthSession) : Bool :=
  r.authSessions.get session.sessionIdHash = some session && now < session.expiresAt &&
    !r.isAccountRestricted now session.user.id

end Records

/-! ### Own keys -/

/-- The key that a record names itself, where it is the key of its collection. -/
def Entity.ownKey : (e : Entity) → e.Value → Option String
  | .teams, team => some team.id
  | .rooms, room => some room.id
  | .invites, invite => some invite.id
  | .inviteRequests, request => some request.requestId
  | .inviteResponses, response => some response.requestId
  | .devices, device => some (deviceKey device.userId device.deviceId)
  | .keyPackages, keyPackage => some keyPackage.id
  | .consumedKeyPackages, consumed => some consumed.keyPackageHash
  | .authSessions, _ | .accountRestrictions, _ | .accountQuotaRecords, _ | .inviteAckReceipts, _
  | .acceptedMessageReceipts, _ | .attachmentBlobs, _ | .teamMembers, _ | .mlsBacklog, _ => none

/-- Every record is kept under its own key. -/
def Records.Keyed (r : Records) : Prop :=
  ∀ e k v, (r.collection e).get k = some v → ∀ j ∈ e.ownKey v, j = k

/-- An edit that keeps records under their own keys. -/
def StoreEdit.IsKeyed : StoreEdit → Prop
  | .set e k v => ∀ j ∈ e.ownKey v, j = k
  | .delete _ _ | .deleteWhere _ _ => True

namespace Records.Keyed

variable {r : Records}

theorem team_id (h : r.Keyed) {k : String} {team : TeamRecord} (hk : r.teams.get k = some team) :
    team.id = k :=
  h .teams k team hk _ rfl

theorem room_id (h : r.Keyed) {k : String} {room : RoomRecord} (hk : r.rooms.get k = some room) :
    room.id = k :=
  h .rooms k room hk _ rfl

theorem invite_id (h : r.Keyed) {k : String} {invite : InviteRecord}
    (hk : r.invites.get k = some invite) : invite.id = k :=
  h .invites k invite hk _ rfl

theorem requestId (h : r.Keyed) {k : String} {request : InviteJoinRequestRecord}
    (hk : r.inviteRequests.get k = some request) : request.requestId = k :=
  h .inviteRequests k request hk _ rfl

theorem responseId (h : r.Keyed) {k : String} {response : InviteResponseRecord}
    (hk : r.inviteResponses.get k = some response) : response.requestId = k :=
  h .inviteResponses k response hk _ rfl

theorem keyPackage_id (h : r.Keyed) {k : String} {keyPackage : KeyPackageRecord}
    (hk : r.keyPackages.get k = some keyPackage) : keyPackage.id = k :=
  h .keyPackages k keyPackage hk _ rfl

theorem consumed_hash (h : r.Keyed) {k : String} {consumed : ConsumedKeyPackageRecord}
    (hk : r.consumedKeyPackages.get k = some consumed) : consumed.keyPackageHash = k :=
  h .consumedKeyPackages k consumed hk _ rfl

theorem of_agrees (h : r.Keyed) {r' : Records} (hr' : r'.Agrees r) : r'.Keyed :=
  fun e k v hv ↦ h e k v (hr' e k ▸ hv)

theorem edit (h : r.Keyed) {d : StoreEdit} (hd : d.IsKeyed) : (r.edit d).Keyed := by
  intro e k v hv
  by_cases he : d.entity = e
  · subst he
    cases d with
    | set f i w =>
      change ((r.withCollection f _).collection f).get k = some v at hv
      rw [collection_withCollection_self, InsertionMap.get_set] at hv
      split_ifs at hv with hk
      · rw [hk, ← Option.some.inj hv]
        exact hd
      · exact h f k v hv
    | delete f i =>
      change ((r.withCollection f _).collection f).get k = some v at hv
      rw [collection_withCollection_self, InsertionMap.get_delete] at hv
      split_ifs at hv
      exact h f k v hv
    | deleteWhere f p =>
      change ((r.withCollection f _).collection f).get k = some v at hv
      rw [collection_withCollection_self, InsertionMap.get_filter] at hv
      exact h f k v (Option.filter_eq_some_iff.mp hv).1
  · rw [collection_edit_of_ne he] at hv
    exact h e k v hv

theorem editAll (h : r.Keyed) {l : List StoreEdit} (hl : ∀ d ∈ l, d.IsKeyed) :
    (r.editAll l).Keyed := by
  induction l generalizing r with
  | nil => exact h
  | cons d l ih =>
    exact ih (h.edit (hl d List.mem_cons_self)) fun d hd ↦ hl d (List.mem_cons_of_mem _ hd)

end Records.Keyed

/-! ### Roles -/

/-- `canSetTeamMemberRole`. -/
def canSetTeamMemberRole (requesterRole : Option TeamRole) (targetRole nextRole : TeamRole) : Bool :=
  if targetRole = .owner ∨ nextRole = .owner then false
  else if requesterRole = some .owner then true
  else if requesterRole ≠ some .admin then false
  else targetRole = .member && nextRole = .member

/-- `canRemoveTeamMember`. -/
def canRemoveTeamMember (requesterRole : Option TeamRole) (targetRole : TeamRole) : Bool :=
  if targetRole = .owner then false
  else if requesterRole = some .owner then true
  else requesterRole = some .admin && targetRole = .member

/-- `transferTeamOwnership`. -/
def transferTeamOwnership (members : TeamMembers) (nextOwnerUserId : String) : TeamMembers :=
  members.mapValues fun userId member ↦
    if userId = nextOwnerUserId then { member with role := .owner }
    else if member.role = .owner then { member with role := .admin }
    else member

/-- A request's author, as `createRequesterFromRequest` finds it. -/
structure Requester where
  id : String
  name : String
  deriving DecidableEq

/-- `isRoomHost`. -/
def isRoomHost (room : RoomRecord) (requester : Requester) : Bool :=
  if requester.id = "" ∧ requester.name = "" then false
  else if room.hostStatus ≠ .active then false
  else
    match room.hostUserId.filter (· ≠ "") with
    | some hostUserId => hostUserId = requester.id
    | none => room.host = requester.name

/-- `isActiveHostMessage`, for the sender of a message. -/
def RoomRecord.isActiveHost (room : RoomRecord) (userId deviceId : String) : Bool :=
  room.hostStatus = .active && room.hostUserId = some userId &&
    room.activeHostDeviceId = some deviceId

/-! ### Mutations of the store -/

namespace RelayStore

variable (s : RelayStore)

def setTeam (team : TeamRecord) : RelayStore := s.set .teams team.id team

def setRoom (room : RoomRecord) : RelayStore := s.set .rooms room.id room

def setMlsBacklog (key : RoomKey) (messages : List MlsRelayMessage) : RelayStore :=
  s.set .mlsBacklog key messages

end RelayStore

namespace StoreEdit

def setTeam (team : TeamRecord) : StoreEdit := .set .teams team.id team

def setTeamMembers (teamId : String) (members : TeamMembers) : StoreEdit :=
  .set .teamMembers teamId members

def setRoom (room : RoomRecord) : StoreEdit := .set .rooms room.id room

def setInvite (invite : InviteRecord) : StoreEdit := .set .invites invite.id invite

def setDevice (device : DeviceRecord) : StoreEdit :=
  .set .devices (deviceKey device.userId device.deviceId) device

def setKeyPackage (keyPackage : KeyPackageRecord) : StoreEdit :=
  .set .keyPackages keyPackage.id keyPackage

def setConsumedKeyPackage (consumed : ConsumedKeyPackageRecord) : StoreEdit :=
  .set .consumedKeyPackages consumed.keyPackageHash consumed

def setInviteRequest (request : InviteJoinRequestRecord) : StoreEdit :=
  .set .inviteRequests request.requestId request

def setInviteResponse (response : InviteResponseRecord) : StoreEdit :=
  .set .inviteResponses response.requestId response

end StoreEdit

/-- Set every entry of a map again. -/
def restoreEntries {e : Entity} (m : InsertionMap String e.Value) : List StoreEdit :=
  m.entries.map fun p ↦ .set e p.1 p.2

namespace Records

variable (r : Records)

/-- What `addTeamMember` stages before it saves, with the team that it announces; `none` when there
is nothing to add. -/
def addTeamMember (now : Instant) (teamId userId : String) (role : TeamRole := .member) :
    Option (List StoreEdit × TeamRecord) :=
  if userId = "" then none
  else
    (r.teams.get teamId).bind fun team ↦
      let members := (r.teamMembers.get teamId).getD .empty
      if members.has userId then none
      else
        let members := members.set userId ⟨teamId, userId, role, now⟩
        let updated := { team with members := members.size }
        some ([.setTeamMembers teamId members, .setTeam updated], updated)

/-- The ids of the invites that satisfy a test. -/
def inviteIdsWhere (revoked : InviteRecord → Bool) : List String :=
  (r.invites.filter fun _ invite ↦ revoked invite).keys

/-- `revokeInviteArtifactsWhere`; it returns whether `inviteIdsWhere` lists anything. -/
def revokeInviteArtifactsWhere (revoked : InviteRecord → Bool) : List StoreEdit :=
  let revokedInviteIds := r.inviteIdsWhere revoked
  [.deleteWhere .invites fun _ invite ↦ revoked invite,
    .deleteWhere .inviteRequests fun _ request ↦ request.inviteId ∈ revokedInviteIds,
    .deleteWhere .inviteResponses fun _ response ↦ response.inviteId ∈ revokedInviteIds,
    .deleteWhere .inviteAckReceipts fun _ receipt ↦ receipt.inviteId ∈ revokedInviteIds]

/-- `revokeRoomInvites`. -/
def revokeRoomInvites (teamId roomId : String) : List StoreEdit :=
  r.revokeInviteArtifactsWhere fun invite ↦ invite.teamId = teamId && invite.roomId = roomId

/-- `revokeTeamInviteArtifacts`. -/
def revokeTeamInviteArtifacts (teamId : String) : List StoreEdit :=
  r.revokeInviteArtifactsWhere fun invite ↦ invite.teamId = teamId

/-- `deleteInviteArtifacts`. -/
def deleteInviteArtifacts (inviteId : String) : List StoreEdit :=
  [.deleteWhere .inviteRequests fun _ request ↦ request.inviteId = inviteId,
    .deleteWhere .inviteResponses fun _ response ↦ response.inviteId = inviteId,
    .deleteWhere .inviteAckReceipts fun _ receipt ↦ receipt.inviteId = inviteId]

end Records

end MultAIplayer
