import MultAIplayer.Relay.Http

/-!
# Room routes

The handlers of the `http/room-*-route.ts` files: settings, host bootstrap, lifecycle changes and
creation. None of them rolls back a record that it changed, except the creation, which takes its
room away again.
-/

namespace MultAIplayer

/-- The room after its host's first device took it. -/
def RoomRecord.bootstrapped (room : RoomRecord) (deviceId : String) : RoomRecord :=
  { room with
    activeHostDeviceId := some deviceId
    hostStatus := .active
    acceptedMlsEpoch := some 0 }

namespace HttpContext

variable (x : HttpContext)

/-- `roomSettingsUnavailable`, which is also `hostStateUnavailable`. -/
def roomUnavailable (room : RoomRecord) : Bool :=
  room.archivedAt.isSome || room.deletedAt.isSome ||
    (x.records.teams.get room.teamId).any fun team ↦ team.archivedAt.isSome || team.deletedAt.isSome

/-! ### Settings -/

/-- The body of `PATCH /rooms/:roomId/settings`. The outer `Option` of the policy is its presence,
the inner one whether it is a policy. -/
structure RoomSettingsInput where
  hasEncryptedConfigField : Bool
  name : Option String
  approvalPolicy : Option (Option ApprovalPolicy)
  requesterUserId : String
  requesterName : String

/-- `roomSettingsInputError`. -/
def roomSettingsInputError (body : RoomSettingsInput) : Option String :=
  if body.name.any fun name ↦ (normalizeMetadataText name maxRoomNameChars).isNone then
    some ("Room name is required and must be up to " ++ toString maxRoomNameChars ++ " characters")
  else if body.approvalPolicy = some none then some "approvalPolicy is invalid"
  else none

/-- The room with the settings of a body that was found valid. -/
def RoomSettingsInput.apply (body : RoomSettingsInput) (room : RoomRecord) : RoomRecord :=
  { room with
    name := (body.name.bind (normalizeMetadataText · maxRoomNameChars)).getD room.name
    approvalPolicy := body.approvalPolicy.join.getD room.approvalPolicy }

/-- `PATCH /rooms/:roomId/settings`. -/
def roomSettings (roomId : String) (body : RoomSettingsInput) : Handling :=
  if body.hasEncryptedConfigField then
    .refuse 400 "invalid_request" "Host-local room configuration must be published through MLS."
  else
    match x.records.rooms.get roomId with
    | none => .refuse 404 "room_not_found" "Room not found"
    | some room =>
      if x.roomUnavailable room then
        .refuse 409 "conflict" "Restore this room before changing room settings."
      else if x.lacksAccess room.teamId room.id then
        .refuse 403 "forbidden" "Join this room before changing room settings."
      else if room.hostStatus = .active ∧
          !isRoomHost room (x.requesterFromRequest body.requesterUserId body.requesterName) then
        .refuse 403 "forbidden" "Only the active host can change room settings."
      else
        match roomSettingsInputError body with
        | some message => .refuse 400 "invalid_request" message
        | none =>
          .commit
            { transaction.stage := [.setRoom (body.apply room)]
              effects := [.broadcastRoomUpdated (body.apply room)]
              unsaved := internalError }

/-! ### Host bootstrap -/

/-- The body of `PATCH /rooms/:roomId/host`. -/
structure RoomHostInput where
  host : String
  hostUserId : String
  hostDeviceId : Option String
  isActive : Bool
  /-- `hasExactHostBootstrapBody`. -/
  hasExactKeys : Bool

/-- `isInitialHostBootstrap`: the device that may take the room. -/
def initialHostDevice (room : RoomRecord) (body : RoomHostInput) : Option String :=
  match x.session, body.hostDeviceId.bind (normalizeMetadataText · maxDeviceIdChars) with
  | some session, some deviceId =>
    if !body.hasExactKeys then none
    else if room.hostStatus ≠ .offline ∨ room.acceptedMlsEpoch ≠ none then none
    else if room.hostUserId ≠ some session.user.id ∨
        normalizeMetadataText body.hostUserId maxUserIdChars ≠ some session.user.id then none
    else if normalizeMetadataText body.host maxDisplayNameChars ≠ some room.host then none
    else if x.hasDeviceSession session.user.id deviceId then some deviceId
    else none
  | _, _ => none

/-- `PATCH /rooms/:roomId/host`. -/
def roomHost (roomId : String) (body : RoomHostInput) : Handling :=
  match x.records.rooms.get roomId with
  | none => .refuse 404 "room_not_found" "Room not found"
  | some room =>
    if x.roomUnavailable room then
      .refuse 409 "conflict" "Restore this room before changing host state."
    else if x.lacksAccess room.teamId room.id then
      .refuse 403 "forbidden" "Join this room before changing host state."
    else if (normalizeMetadataText body.host maxDisplayNameChars).isNone ∨
        (normalizeMetadataText body.hostUserId maxUserIdChars).isNone ∨
        body.hostDeviceId.any fun id ↦ (normalizeMetadataText id maxDeviceIdChars).isNone then
      .refuse 400 "invalid_request"
        "Host identity metadata is invalid or exceeds its protocol limit."
    else if !body.isActive then
      .refuse 400 "invalid_request" "Host status must be active for initial bootstrap."
    else
      match x.initialHostDevice room body with
      | none =>
        .refuse 409 "conflict"
          "Protocol v2 host authority changes require a signed MLS handoff Commit."
      | some deviceId =>
        .commit
          { transaction.stage := [.setRoom (room.bootstrapped deviceId)]
            effects := [.broadcastRoomUpdated (room.bootstrapped deviceId)]
            unsaved := internalError }

/-! ### Lifecycle -/

/-- `canManageRoomLifecycle`. -/
def canManageRoomLifecycle (role : Option TeamRole) (room : RoomRecord) (requester : Requester) :
    Bool :=
  role = some .owner || role = some .admin ||
    (room.hostStatus = .active && isRoomHost room requester)

/-- What a room's lifecycle action stages; it is left in the store when the save throws. -/
def roomLifecycleTransaction (room : RoomRecord) (action : LifecycleAction) : Transaction where
  stage :=
    .setRoom (room.afterLifecycleAction action x.now) ::
      if (room.afterLifecycleAction action x.now).deletedAt.isSome then
        x.records.revokeRoomInvites room.teamId room.id
      else []

/-- `PATCH /rooms/:roomId/lifecycle`. -/
def roomLifecycle (roomId : String) (action : Option LifecycleAction)
    (requesterUserId requesterName : String) : Handling :=
  match (x.records.rooms.get roomId).filter fun room ↦ room.deletedAt.isNone &&
      !(x.records.teams.get room.teamId).any (·.deletedAt.isSome) with
  | none => .refuse 404 "room_not_found" "Room not found"
  | some room =>
    if x.isStranger room.teamId then
      .refuse 403 "forbidden" "Join this room before changing its archive state."
    else
      match action with
      | none => .refuse 400 "invalid_request" "action must be archive, restore, or delete"
      | some action =>
        if !canManageRoomLifecycle (x.requesterRole room.teamId) room
            (x.requesterFromRequest requesterUserId requesterName) then
          .refuse 403 "forbidden"
            "Only the active host or a team owner/admin can archive, restore, or delete a room."
        else if action = .restore ∧
            (x.records.teams.get room.teamId).any (·.archivedAt.isSome) then
          .refuse 409 "conflict" "Restore the team before restoring this room."
        else
          .commit
            { transaction := x.roomLifecycleTransaction room action
              effects := [.broadcastRoomUpdated (room.afterLifecycleAction action x.now)]
              unsaved := internalError }

/-! ### Creation -/

/-- The body of `POST /rooms`, as `parseRoomCreationInput` reads it. -/
structure RoomCreationInput where
  teamId : String
  hasEncryptedConfigField : Bool
  name : String
  /-- The policy, `none` when it is not one; the default is `askEveryTurn`. -/
  approvalPolicy : Option ApprovalPolicy

/-- `allowRoomCreation`: why a room may not be created. -/
def roomCreationError (teamId : String) : Option HttpError :=
  match x.records.teams.get teamId with
  | none => some ⟨404, "team_not_found", "Team not found"⟩
  | some team =>
    if team.archivedAt.isSome ∨ team.deletedAt.isSome then
      some ⟨409, "conflict", "Restore this team before creating rooms."⟩
    else if x.isStranger teamId then
      some ⟨403, "forbidden", "Join this team before creating rooms."⟩
    else none

/-- The room that a creation stages. -/
def createdRoom (id name : String) (teamId : String) (approvalPolicy : ApprovalPolicy) :
    RoomRecord where
  id := id
  teamId := teamId
  name := name
  host := match x.session with
    | some session => (normalizeMetadataText (displayNameForUser session.user)
        maxDisplayNameChars).getD "Reserved host"
    | none => "No host"
  hostUserId := x.session.map (·.user.id)
  hostStatus := .offline
  approvalPolicy := approvalPolicy

def roomCreationTransaction (room : RoomRecord) : Transaction where
  stage := [.setRoom room]
  rollback := [.delete .rooms room.id]

/-- `POST /rooms`, with the id that `nanoid` draws: it never draws one that is in use. -/
def createRoom (id : String) (body : RoomCreationInput) (withinQuota : Bool) : Handling :=
  if x.sessionDied then .refuse 401 "authentication_required" "Sign in before creating a room."
  else
    match x.roomCreationError body.teamId with
    | some error => .answer (.error error)
    | none =>
      if body.hasEncryptedConfigField then
        .refuse 400 "invalid_request" "Host-local room configuration must be published through MLS."
      else
        match normalizeMetadataText body.name maxRoomNameChars, body.approvalPolicy with
        | none, _ =>
          .refuse 400 "invalid_request" ("Room name is required and must be up to " ++
            toString maxRoomNameChars ++ " characters")
        | some _, none => .refuse 400 "invalid_request" "approvalPolicy is invalid"
        | some name, some approvalPolicy =>
          if x.session.isSome ∧ !withinQuota then
            .refuse 429 "quota_exceeded" "Daily room creation quota exceeded."
          else if x.records.rooms.has id then .answer internalError
          else
            .commit
              { transaction := roomCreationTransaction
                  (x.createdRoom id name body.teamId approvalPolicy)
                effects :=
                  [.broadcastRoomUpdated (x.createdRoom id name body.teamId approvalPolicy)]
                awaits := x.session.isSome
                unsaved := persistenceUnavailable "Could not persist room quota and room." }

/-! ### What a commit has passed -/

variable {x} {c : Commit} {roomId : String}

theorem roomSettings_eq_commit {body : RoomSettingsInput}
    (h : x.roomSettings roomId body = .commit c) :
    ∃ room, x.records.rooms.get roomId = some room ∧
      c.transaction = ⟨[.setRoom (body.apply room)], []⟩ := by
  unfold roomSettings at h
  split at h
  · cases h
  split at h
  · cases h
  rename_i room hroom
  split at h
  · cases h
  split at h
  · cases h
  split at h
  · cases h
  split at h
  · cases h
  cases h
  exact ⟨room, hroom, rfl⟩

theorem initialHostDevice_eq_some {room : RoomRecord} {body : RoomHostInput} {deviceId : String}
    (h : x.initialHostDevice room body = some deviceId) : room.acceptedMlsEpoch = none := by
  unfold initialHostDevice at h
  split at h
  · split at h
    · cases h
    split at h
    · cases h
    · rename_i hroom
      rw [not_or, not_not, not_not] at hroom
      exact hroom.2
  · cases h

theorem roomHost_eq_commit {body : RoomHostInput} (h : x.roomHost roomId body = .commit c) :
    ∃ room deviceId, x.records.rooms.get roomId = some room ∧ room.acceptedMlsEpoch = none ∧
      c.transaction = ⟨[.setRoom (room.bootstrapped deviceId)], []⟩ := by
  unfold roomHost at h
  split at h
  · cases h
  rename_i room hroom
  split at h
  · cases h
  split at h
  · cases h
  split at h
  · cases h
  split at h
  · cases h
  split at h
  · cases h
  rename_i deviceId hdevice
  cases h
  exact ⟨room, deviceId, hroom, initialHostDevice_eq_some hdevice, rfl⟩

theorem roomLifecycle_eq_commit {action : Option LifecycleAction} {userId name : String}
    (h : x.roomLifecycle roomId action userId name = .commit c) :
    ∃ room next, x.records.rooms.get roomId = some room ∧
      c.transaction = x.roomLifecycleTransaction room next := by
  unfold roomLifecycle at h
  split at h
  · cases h
  rename_i room hroom
  split at h
  · cases h
  split at h
  · cases h
  rename_i next
  split at h
  · cases h
  split at h
  · cases h
  cases h
  exact ⟨room, next, (Option.filter_eq_some_iff.mp hroom).1, rfl⟩

theorem createRoom_eq_commit {id : String} {body : RoomCreationInput} {withinQuota : Bool}
    (h : x.createRoom id body withinQuota = .commit c) :
    ∃ name approvalPolicy, x.records.rooms.get id = none ∧ x.isStranger body.teamId = false ∧
      (x.records.teams.get body.teamId).isSome = true ∧ c.transaction =
        roomCreationTransaction (x.createdRoom id name body.teamId approvalPolicy) := by
  unfold createRoom at h
  split at h
  · cases h
  split at h
  · cases h
  rename_i hteam
  split at h
  · cases h
  split at h
  · cases h
  · cases h
  rename_i name approvalPolicy _ _
  split at h
  · cases h
  split at h
  · cases h
  rename_i hfresh
  cases h
  unfold roomCreationError at hteam
  split at hteam
  · cases hteam
  rename_i team hget
  split at hteam
  · cases hteam
  split at hteam
  · cases hteam
  rename_i hstranger
  exact ⟨name, approvalPolicy, InsertionMap.get_eq_none_of_not_has hfresh, by simpa using hstranger,
    by rw [hget]; rfl, rfl⟩

end HttpContext

end MultAIplayer
