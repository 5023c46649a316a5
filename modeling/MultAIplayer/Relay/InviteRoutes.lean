import MultAIplayer.Relay.Http
import MultAIplayer.Relay.Reclaim

/-!
# Invite routes

`http/invites.ts`, `http/invite-delivery.ts` and `http/invite-ack-transaction.ts`: an invite is
created, requested, answered by the room's host and acknowledged by its requester.

The sealed request of a joiner is opaque but for its binding, which
`Platform.parseDirectedInviteRequest` reads. A response is accepted only for the binding of its
request, and an approval only after the room has accepted the Commit that follows the request's
epoch.
-/

namespace MultAIplayer

def maxOpaqueChars : ℕ := 1400000

/-! ### Schemas -/

/-- The schema of `responseBinding`. -/
@[grind =] def InviteResponseBinding.isValid (b : InviteResponseBinding) : Bool :=
  boundedString 1 maxEnvelopeIdChars b.inviteId && isRelayId b.teamId && isRelayId b.roomId &&
    isCount b.keyEpoch && isSha256Digest b.keyPackageHash &&
    boundedString 1 maxEnvelopeIdChars b.requestId &&
    boundedString 1 maxEnvelopeIdChars b.requestNonce && isUserId b.requesterUserId &&
    isDeviceId b.requesterDeviceId && isUserId b.hostUserId && isDeviceId b.hostDeviceId &&
    (IsoDate.parse b.expiresAt).isSome && (IsoDate.parse b.decidedAt).isSome

/-- The schema `InviteResponseRecord`. -/
@[grind =] def InviteResponseRecord.isValid (r : InviteResponseRecord) : Bool :=
  boundedString 1 maxEnvelopeIdChars r.requestId && boundedString 1 maxEnvelopeIdChars r.inviteId &&
    isUserId r.requesterUserId && isDeviceId r.requesterDeviceId &&
    isSha256Digest r.keyPackageHash && r.responseBinding.isValid &&
    Text.isPaddedBase64 r.responseMac && r.welcome.all (· ≠ "") &&
    decide (r.status = .approved) = r.welcome.isSome

/-! ### Expiry -/

/-- `inviteIsExpired`. -/
def inviteIsExpired (now : Instant) (invite : InviteRecord) : Bool := invite.expiresAt.any (· ≤ now)

/-- `isApprovedInviteRequest`. -/
def isApprovedInviteRequest (invite : InviteRecord) (request : InviteJoinRequestRecord) : Bool :=
  invite.approvedUserId = some request.requesterUserId &&
    invite.approvedDeviceId = some request.requesterDeviceId &&
    invite.keyPackageHash = some request.keyPackageHash

namespace HttpContext

variable (x : HttpContext)

/-! ### Creating and revoking -/

/-- `POST /invites`, with the id that `nanoid` draws: it never draws one that is in use. -/
def createInvite (id teamId roomId : String) : Handling :=
  if ((x.records.teams.get teamId).filter (·.deletedAt.isNone)).isNone then
    .refuse 404 "team_not_found" "Team not found"
  else if ((x.records.rooms.get roomId).filter fun room ↦
      room.deletedAt.isNone && room.teamId = teamId).isNone then
    .refuse 404 "room_not_found" "Room not found"
  else if !x.records.isActiveRoom teamId roomId then
    .refuse 409 "conflict" "Restore the team and room before creating invites."
  else if x.lacksAccess teamId roomId then
    .refuse 403 "forbidden" "Join this room before creating invites."
  else if x.session.any fun session ↦ x.config.liveInviteCapPerUser ≤
      (x.records.invites.values.filter fun invite ↦
        invite.creatorUserId = some session.user.id && !inviteIsExpired x.now invite).length then
    .refuse 429 "quota_exceeded" "Live invite quota exceeded."
  else if x.records.invites.has id then .answer internalError
  else
    .commit
      { transaction.stage := [.setInvite
          { id, teamId, roomId
            creatorUserId := x.session.map (·.user.id)
            createdAt := x.now
            expiresAt := some (x.now + (x.config.inviteTtlDays * millisecondsPerDay : ℕ)) }]
        transaction.rollback := [.delete .invites id]
        awaits := true
        unsaved := persistenceUnavailable "Could not persist invite quota and invite." }

/-- The deletion of an invite that is looked up too late. -/
def discardInvite (invite : InviteRecord) (error : HttpError) : Handling :=
  .commit
    { transaction.stage := .delete .invites invite.id :: Records.deleteInviteArtifacts invite.id
      saved := .error error
      unsaved := internalError }

/-- `GET /invites/:inviteId`. -/
def getInvite (inviteId : String) : Handling :=
  match x.records.invites.get inviteId with
  | none => .refuse 404 "invite_not_found" "Invite not found"
  | some invite =>
    if isExpiredInvite x.now invite then
      discardInvite invite ⟨410, "invite_expired", "Invite expired"⟩
    else if ((x.records.teams.get invite.teamId).filter (·.deletedAt.isNone)).isNone ||
        ((x.records.rooms.get invite.roomId).filter fun room ↦
          room.deletedAt.isNone && room.teamId = invite.teamId).isNone then
      discardInvite invite ⟨404, "invite_not_found", "Invite target no longer exists"⟩
    else if !x.records.isActiveRoom invite.teamId invite.roomId then
      .refuse 409 "conflict" "Restore the team and room before using this invite."
    else .answer .done

/-- `DELETE /teams/:teamId/rooms/:roomId/invites`. -/
def deleteRoomInvites (teamId roomId : String) : Handling :=
  match (x.records.rooms.get roomId).filter (·.teamId = teamId) with
  | none => .refuse 404 "room_not_found" "Room not found"
  | some room =>
    if x.session.any fun session ↦ room.hostUserId ≠ some session.user.id then
      .refuse 403 "forbidden" "Only the active host can revoke room invites."
    else if x.records.inviteIdsWhere (fun invite ↦ invite.teamId = teamId && invite.roomId = roomId)
        = [] then .answer .done
    else
      .commit
        { transaction.stage := x.records.revokeRoomInvites teamId roomId
          unsaved := internalError }

/-! ### Requesting -/

/-- The body of `POST /invites/:inviteId/requests`. -/
structure InviteRequestInput where
  inviteId : String
  hasExactKeys : Bool
  requestId : String
  requesterDeviceId : String
  keyPackageId : String
  keyPackageHash : String
  sealedRequest : String

/-- `inviteHasPendingDecision`. -/
def inviteHasPendingDecision (invite : InviteRecord) : Bool :=
  x.records.inviteResponses.values.any (·.inviteId = invite.id) || invite.approvedUserId.isSome ||
    invite.approvedDeviceId.isSome || invite.keyPackageHash.isSome

/-- `pendingInviteConflict`. -/
def pendingInviteConflict (invite : InviteRecord) : Option String :=
  if x.records.inviteRequests.values.any (·.inviteId = invite.id) then
    some "This invite already has a pending request."
  else if x.inviteHasPendingDecision invite then
    some "This invite already has a pending decision."
  else none

/-- `isValidDirectedInviteRequest`, for the record that is about to be stored. -/
def isValidDirectedInviteRequest (invite : InviteRecord) (request : InviteJoinRequestRecord) : Bool :=
  match x.records.keyPackages.get request.keyPackageId,
      x.platform.parseDirectedInviteRequest request.sealedRequest,
      x.records.rooms.get invite.roomId with
  | some keyPackage, some binding, some room =>
    keyPackage.userId = request.requesterUserId &&
      keyPackage.deviceId = request.requesterDeviceId &&
      keyPackage.keyPackageHash = request.keyPackageHash && binding.inviteId = invite.id &&
      binding.teamId = invite.teamId && binding.roomId = invite.roomId &&
      binding.keyEpoch = room.acceptedMlsEpoch.getD 0 &&
      binding.keyPackageHash = request.keyPackageHash && binding.requestId = request.requestId &&
      binding.requesterUserId = request.requesterUserId &&
      binding.requesterDeviceId = request.requesterDeviceId &&
      room.hostUserId = some binding.hostUserId &&
      room.activeHostDeviceId = some binding.hostDeviceId &&
      invite.expiresAt.map IsoDate.toISOString = some binding.expiresAt
  | _, _, _ => false

/-- `isSameInviteRequest`. -/
def isSameInviteRequest (existing request : InviteJoinRequestRecord) : Bool :=
  existing.inviteId = request.inviteId && existing.requesterUserId = request.requesterUserId &&
    existing.requesterDeviceId = request.requesterDeviceId &&
    existing.keyPackageId = request.keyPackageId &&
    existing.keyPackageHash = request.keyPackageHash &&
    existing.sealedRequest = request.sealedRequest

/-- `POST /invites/:inviteId/requests`, for a request with normalized identifiers. A save that
throws escapes `saveInviteRequestAtomically` before it can delete the request again. -/
def storeInviteRequest (invite : InviteRecord) (request : InviteJoinRequestRecord) : Handling :=
  match x.records.inviteRequests.get request.requestId with
  | some existing =>
    if isSameInviteRequest existing request then .answer .done
    else .refuse 409 "conflict" "requestId is already bound to another request."
  | none =>
    match x.pendingInviteConflict invite with
    | some message => .refuse 409 "conflict" message
    | none =>
      if !x.isValidDirectedInviteRequest invite request then
        .refuse 400 "invalid_request" "Invalid invite request."
      else
        .commit
          { transaction.stage := [.setInviteRequest request]
            effects := [.notifyInviteRequested invite.id request.requestId]
            awaits := true
            unsaved := internalError }

/-- `POST /invites/:inviteId/requests`. -/
def requestInvite (body : InviteRequestInput) : Handling :=
  match x.session with
  | none => .refuse 401 "authentication_required" "Sign in before requesting to join."
  | some session =>
    if !body.hasExactKeys then
      .refuse 400 "invalid_request" "Invite request contains unsupported fields."
    else
      match normalizeMetadataText body.requestId maxEnvelopeIdChars,
          normalizeMetadataText body.requesterDeviceId maxDeviceIdChars,
          normalizeMetadataText body.keyPackageId maxEnvelopeIdChars with
      | some requestId, some requesterDeviceId, some keyPackageId =>
        if !x.hasDeviceSession session.user.id requesterDeviceId then
          .refuse 403 "device_auth_required" "A device-authenticated session is required."
        else
          match x.records.invites.get body.inviteId with
          | none => .refuse 404 "invite_not_found" "Invite not found."
          | some invite =>
            if inviteIsExpired x.now invite then .refuse 410 "invite_expired" "Invite expired."
            else if !x.records.isActiveInviteTarget invite then
              .refuse 409 "conflict" "Restore the team and room before using this invite."
            else
              x.storeInviteRequest invite
                { requestId, requesterDeviceId, keyPackageId
                  inviteId := invite.id
                  requesterUserId := session.user.id
                  keyPackageHash := body.keyPackageHash
                  sealedRequest := body.sealedRequest
                  createdAt := x.now }
      | _, _, _ => .refuse 400 "invalid_request" "Invalid invite request identifiers."

/-! ### Responding -/

/-- The body of `POST /invites/:inviteId/response`. A decision or a binding that is not of its
schema's shape is `none`. -/
structure InviteResponseInput where
  inviteId : String
  hasExactKeys : Bool
  hostDeviceId : String
  requestId : String
  status : Option InviteDecision
  responseBinding : Option InviteResponseBinding
  responseMac : String
  welcome : Option String

/-- `isSameInviteResponse`. -/
def isSameInviteResponse (existing : InviteResponseRecord) (body : InviteResponseInput)
    (inviteId : String) : Bool :=
  existing.inviteId = inviteId && some existing.status = body.status &&
    existing.responseMac = body.responseMac && some existing.responseBinding = body.responseBinding &&
    existing.welcome = body.welcome

/-- `inviteResponsePreconditionError`, for a request of the invite. -/
def inviteResponsePreconditionError (invite : InviteRecord) (request : InviteJoinRequestRecord)
    (body : InviteResponseInput) : Option HttpError :=
  if body.status = some .approved ∧ !isApprovedInviteRequest invite request then
    some ⟨409, "conflict", "The exact invite request has not been approved."⟩
  else if body.status = some .approved ∧
      !body.welcome.any (isCanonicalPaddedBase64 · maxOpaqueChars) then
    some ⟨400, "invalid_request", "Approved invite response requires a canonical Welcome."⟩
  else if body.status = some .denied ∧ body.welcome.isSome then
    some ⟨400, "invalid_request", "Denied invite response cannot include a Welcome."⟩
  else none

/-- The candidate response, when it has a decision and a binding. -/
def inviteResponseCandidate (request : InviteJoinRequestRecord) (body : InviteResponseInput) :
    Option InviteResponseRecord :=
  match body.status, body.responseBinding with
  | some status, some responseBinding =>
    some
      { requestId := request.requestId
        inviteId := request.inviteId
        requesterUserId := request.requesterUserId
        requesterDeviceId := request.requesterDeviceId
        keyPackageHash := request.keyPackageHash
        status, responseBinding
        responseMac := body.responseMac
        welcome := body.welcome
        createdAt := x.now }
  | _, _ => none

/-- `inviteResponseBindingMatches`. -/
def inviteResponseBindingMatches (record : InviteResponseRecord) (invite : InviteRecord)
    (request : InviteJoinRequestRecord) (hostUserId : String) (room : RoomRecord) : Bool :=
  let binding := record.responseBinding
  match x.platform.parseDirectedInviteRequest request.sealedRequest with
  | none => false
  | some directed =>
    binding.keyEpoch = directed.keyEpoch && binding.requestNonce = directed.requestNonce &&
      binding.expiresAt = directed.expiresAt && binding.inviteId = invite.id &&
      binding.teamId = invite.teamId && binding.roomId = invite.roomId &&
      binding.requestId = request.requestId && binding.keyPackageHash = request.keyPackageHash &&
      binding.requesterUserId = request.requesterUserId &&
      binding.requesterDeviceId = request.requesterDeviceId && binding.hostUserId = hostUserId &&
      room.activeHostDeviceId = some binding.hostDeviceId && binding.status = record.status

/-- `validInviteResponseRecord`. -/
def isValidInviteResponseRecord (record : InviteResponseRecord) (invite : InviteRecord)
    (request : InviteJoinRequestRecord) (hostUserId : String) (room : RoomRecord) : Bool :=
  record.isValid && isCanonicalPaddedBase64 record.responseMac 128 &&
    x.inviteResponseBindingMatches record invite request hostUserId room

/-- `membershipCommitAcceptedForWelcome`. -/
def membershipCommitAcceptedForWelcome (record : InviteResponseRecord) (room : RoomRecord) : Bool :=
  record.status ≠ .approved || room.acceptedMlsEpoch = some (record.responseBinding.keyEpoch + 1)

/-- `saveInviteResponseAtomically`. -/
def inviteResponseTransaction (request : InviteJoinRequestRecord) (record : InviteResponseRecord) :
    Transaction where
  stage := [.delete .inviteRequests request.requestId, .setInviteResponse record]
  rollback := [.delete .inviteResponses record.requestId, .setInviteRequest request]

/-- `POST /invites/:inviteId/response`, once its author is known to be the active host. -/
def storeInviteResponse (hostUserId : String) (invite : InviteRecord) (room : RoomRecord)
    (body : InviteResponseInput) : Handling :=
  match x.records.inviteResponses.get body.requestId with
  | some existing =>
    if isSameInviteResponse existing body invite.id then .answer .done
    else .refuse 409 "conflict" "requestId is already bound to another invite response."
  | none =>
    match (x.records.inviteRequests.get body.requestId).filter (·.inviteId = invite.id) with
    | none => .refuse 400 "invalid_request" "Invalid invite response."
    | some request =>
      match inviteResponsePreconditionError invite request body with
      | some error => .answer (.error error)
      | none =>
        match (x.inviteResponseCandidate request body).filter fun record ↦
            x.isValidInviteResponseRecord record invite request hostUserId room with
        | none =>
          .refuse 400 "invalid_request" "Invite response binding does not match its request."
        | some record =>
          if !membershipCommitAcceptedForWelcome record room then
            .refuse 409 "conflict"
              "The membership Commit must be durably accepted before publishing its Welcome."
          else
            .commit
              { transaction := inviteResponseTransaction request record
                awaits := true
                unsaved := persistenceUnavailable "Could not persist invite response." }

/-- `POST /invites/:inviteId/response`, with `prepareInviteResponse`. -/
def respondInvite (body : InviteResponseInput) : Handling :=
  let refused := Handling.refuse 403 "forbidden" "An active room and host device are required."
  if !body.hasExactKeys then
    .refuse 400 "invalid_request" "Invite response contains unsupported fields."
  else
    match x.session, x.records.invites.get body.inviteId with
    | some session, some invite =>
      match x.records.rooms.get invite.roomId with
      | none => refused
      | some room =>
        if !(x.records.isActiveInviteTarget invite && room.hostUserId = some session.user.id &&
            room.activeHostDeviceId = some body.hostDeviceId) then refused
        else if !x.hasDeviceSession session.user.id body.hostDeviceId then
          .refuse 403 "device_auth_required" "A device-authenticated session is required."
        else if inviteIsExpired x.now invite then .refuse 410 "invite_expired" "Invite expired."
        else x.storeInviteResponse session.user.id invite room body
    | _, _ => refused

/-! ### Acknowledging -/

/-- `inviteResponseRemainsAuthorized`. -/
def inviteResponseRemainsAuthorized (invite : InviteRecord) (record : InviteResponseRecord) : Bool :=
  let binding := record.responseBinding
  invite.teamId = binding.teamId && invite.roomId = binding.roomId &&
    binding.inviteId = record.inviteId && binding.requestId = record.requestId &&
    binding.requesterUserId = record.requesterUserId &&
    binding.requesterDeviceId = record.requesterDeviceId &&
    binding.keyPackageHash = record.keyPackageHash && binding.status = record.status &&
    (record.status ≠ .approved ||
      (invite.approvedUserId = some record.requesterUserId &&
        invite.approvedDeviceId = some record.requesterDeviceId &&
        invite.keyPackageHash = some record.keyPackageHash))

/-- The receipt of an acknowledgement. -/
def ackReceipt (teamId : String) (record : InviteResponseRecord) : InviteAckReceipt where
  inviteId := record.inviteId
  requestId := record.requestId
  teamId := teamId
  requesterUserId := record.requesterUserId
  requesterDeviceId := record.requesterDeviceId
  keyPackageHash := record.keyPackageHash
  status := record.status
  acknowledgedAt := x.now
  expiresAt := x.now + (30 * millisecondsPerDay : ℕ)

/-- The receipts that `pruneInviteAckReceipts` deletes: expired, or the oldest beyond 4096. -/
def inviteAckReceiptsToPrune (receipts : InsertionMap String InviteAckReceipt) : List String :=
  (receipts.entries.filter fun p ↦ p.2.expiresAt ≤ x.now).map Prod.fst ++
    oldestBeyond InviteAckReceipt.acknowledgedAt 4096
      (receipts.entries.filter fun p ↦ x.now < p.2.expiresAt)

/-- The members of a team with a requester among them. -/
def withRequester (teamId : String) (members : TeamMembers) (userId : String) : TeamMembers :=
  if members.has userId then members else members.set userId ⟨teamId, userId, .member, x.now⟩

/-- What an acknowledgement stages, and what it puts back. -/
@[grind =]
def ackTransaction (team : TeamRecord) (invite : InviteRecord) (record : InviteResponseRecord) :
    Transaction where
  stage :=
    let members := (x.records.teamMembers.get team.id).getD .empty
    let receipts := x.records.inviteAckReceipts.set record.requestId (x.ackReceipt team.id record)
    let pruned := x.inviteAckReceiptsToPrune receipts
    (if record.status = .approved then
      [.setTeamMembers team.id (x.withRequester team.id members record.requesterUserId),
        .setTeam { team with
          members := (x.withRequester team.id members record.requesterUserId).size }]
    else []) ++
    [.delete .invites record.inviteId, .delete .inviteResponses record.requestId,
      .set .inviteAckReceipts record.requestId (x.ackReceipt team.id record),
      .deleteWhere .inviteAckReceipts fun id _ ↦ id ∈ pruned]
  rollback :=
    [.setInviteResponse record,
      .setTeamMembers team.id ((x.records.teamMembers.get team.id).getD .empty), .setTeam team,
      .setInvite invite, .deleteWhere .inviteAckReceipts fun _ _ ↦ true] ++
    restoreEntries (e := .inviteAckReceipts) x.records.inviteAckReceipts

/-- `ackInviteResponseAtomically`. -/
def ackInviteResponse (record : InviteResponseRecord) : Handling :=
  match x.records.teams.get record.responseBinding.teamId with
  | none => .refuse 404 "invite_not_found" "Invite response team not found."
  | some team =>
    if !x.records.isActiveRoom record.responseBinding.teamId record.responseBinding.roomId then
      .refuse 409 "conflict" "Restore the team and room before acknowledging this invite."
    else
      match x.records.invites.get record.inviteId with
      | none => .refuse 409 "conflict" "Invite approval was revoked before ACK."
      | some invite =>
        if inviteIsExpired x.now invite then .refuse 410 "invite_expired" "Invite expired."
        else if !inviteResponseRemainsAuthorized invite record then
          .refuse 409 "conflict" "Invite approval was revoked before ACK."
        else
          .commit
            { transaction := x.ackTransaction team invite record
              saved := .inviteAcknowledged
              awaits := true
              unsaved := persistenceUnavailable "Could not acknowledge invite response durably." }

/-- `isExactInviteAckReceipt`. -/
def isExactInviteAckReceipt (inviteId requestId userId deviceId : String) : Bool :=
  (x.records.inviteAckReceipts.get requestId).any fun receipt ↦
    receipt.inviteId = inviteId && receipt.requesterUserId = userId &&
      receipt.requesterDeviceId = deviceId &&
      (receipt.status = .denied || x.records.hasTeamMember receipt.teamId userId) &&
      x.now < receipt.expiresAt

/-- `POST /invites/:inviteId/response/:requestId/ack`. -/
def acknowledgeInvite (inviteId requestId requesterDeviceId : String) (hasExactKeys : Bool) :
    Handling :=
  if !hasExactKeys then
    .refuse 400 "invalid_request" "Invite response ACK contains unsupported fields."
  else
    match x.session, x.records.inviteResponses.get requestId with
    | none, _ => .refuse 404 "invite_not_found" "Invite response not found."
    | some session, none =>
      if x.isExactInviteAckReceipt inviteId requestId session.user.id requesterDeviceId &&
          x.hasDeviceSession session.user.id requesterDeviceId then .answer .done
      else .refuse 404 "invite_not_found" "Invite response not found."
    | some session, some record =>
      if record.inviteId = inviteId && record.requesterUserId = session.user.id &&
          record.requesterDeviceId = requesterDeviceId &&
          x.hasDeviceSession session.user.id record.requesterDeviceId then
        x.ackInviteResponse record
      else .refuse 404 "invite_not_found" "Invite response not found."

/-! ### What a commit has passed -/

variable {x} {c : Commit}

theorem createInvite_eq_commit {id teamId roomId : String}
    (h : x.createInvite id teamId roomId = .commit c) :
    ∃ invite : InviteRecord, invite.id = id ∧ invite.approvedUserId = none ∧
      invite.approvedDeviceId = none ∧ invite.keyPackageHash = none ∧
      x.records.invites.get id = none ∧
      c.transaction = ⟨[.setInvite invite], [.delete .invites id]⟩ := by
  unfold createInvite at h
  split at h
  · cases h
  split at h
  · cases h
  split at h
  · cases h
  split at h
  · cases h
  split at h
  · cases h
  split at h
  · cases h
  rename_i hfresh
  cases h
  let invite : InviteRecord :=
    { id, teamId, roomId
      creatorUserId := x.session.map (·.user.id)
      createdAt := x.now
      expiresAt := some (x.now + (x.config.inviteTtlDays * millisecondsPerDay : ℕ)) }
  exact ⟨invite, rfl, rfl, rfl, rfl, InsertionMap.get_eq_none_of_not_has hfresh, rfl⟩

theorem getInvite_eq_commit {inviteId : String} (h : x.getInvite inviteId = .commit c) :
    ∃ invite, x.records.invites.get inviteId = some invite ∧ c.transaction =
      ⟨.delete .invites invite.id :: Records.deleteInviteArtifacts invite.id, []⟩ := by
  unfold getInvite at h
  split at h
  · cases h
  rename_i invite hinvite
  split at h
  · cases h
    exact ⟨invite, hinvite, rfl⟩
  split at h
  · cases h
    exact ⟨invite, hinvite, rfl⟩
  split at h <;> cases h

theorem deleteRoomInvites_eq_commit {teamId roomId : String}
    (h : x.deleteRoomInvites teamId roomId = .commit c) :
    c.transaction = ⟨x.records.revokeRoomInvites teamId roomId, []⟩ := by
  unfold deleteRoomInvites at h
  split at h
  · cases h
  split at h
  · cases h
  split at h
  · cases h
  · cases h
    rfl

/-- **What a request to join has passed**: nothing else is pending for its invite. -/
theorem requestInvite_eq_commit {body : InviteRequestInput} (h : x.requestInvite body = .commit c) :
    ∃ invite request, x.records.invites.get body.inviteId = some invite ∧
      inviteIsExpired x.now invite = false ∧ request.inviteId = invite.id ∧
      request.requestId ≠ "" ∧ x.records.inviteRequests.get request.requestId = none ∧
      x.pendingInviteConflict invite = none ∧
      x.isValidDirectedInviteRequest invite request = true ∧
      c.transaction = ⟨[.setInviteRequest request], []⟩ := by
  unfold requestInvite at h
  split at h
  · cases h
  split at h
  · cases h
  split at h
  · rename_i requestId requesterDeviceId keyPackageId hrequestId _ _
    split at h
    · cases h
    split at h
    · cases h
    rename_i invite hinvite
    split at h
    · cases h
    rename_i hexpired
    split at h
    · cases h
    unfold storeInviteRequest at h
    split at h
    · split at h <;> cases h
    rename_i hnew
    split at h
    · cases h
    rename_i hconflict
    split at h
    · cases h
    rename_i hvalid
    cases h
    exact ⟨invite, _, hinvite, by simpa using hexpired, rfl,
      (normalizeMetadataText_eq_some hrequestId).2.1, hnew, hconflict, by simpa using hvalid, rfl⟩
  · cases h

/-- **What a response has passed.** -/
theorem respondInvite_eq_commit {body : InviteResponseInput} (h : x.respondInvite body = .commit c) :
    ∃ session invite room request record, x.session = some session ∧
      x.records.invites.get body.inviteId = some invite ∧
      x.records.rooms.get invite.roomId = some room ∧
      x.records.inviteResponses.get body.requestId = none ∧
      x.records.inviteRequests.get body.requestId = some request ∧ request.inviteId = invite.id ∧
      inviteResponsePreconditionError invite request body = none ∧
      x.inviteResponseCandidate request body = some record ∧
      x.isValidInviteResponseRecord record invite request session.user.id room = true ∧
      membershipCommitAcceptedForWelcome record room = true ∧
      c.transaction = inviteResponseTransaction request record := by
  unfold respondInvite at h
  dsimp only at h
  split at h
  · cases h
  split at h
  · rename_i session invite hsession hinvite
    split at h
    · cases h
    rename_i room hroom
    split at h
    · cases h
    split at h
    · cases h
    split at h
    · cases h
    unfold storeInviteResponse at h
    split at h
    · split at h <;> cases h
    rename_i hnew
    split at h
    · cases h
    rename_i request hrequest
    obtain ⟨hrequest, hof⟩ := Option.filter_eq_some_iff.mp hrequest
    split at h
    · cases h
    rename_i hprecondition
    split at h
    · cases h
    rename_i record hrecord
    obtain ⟨hrecord, hvalid⟩ := Option.filter_eq_some_iff.mp hrecord
    split at h
    · cases h
    rename_i haccepted
    cases h
    exact ⟨session, invite, room, request, record, hsession, hinvite, hroom, hnew, hrequest,
      by simpa using hof, hprecondition, hrecord, hvalid, by simpa using haccepted, rfl⟩
  · cases h

/-- **What an acknowledgement has passed.** -/
theorem acknowledgeInvite_eq_commit {inviteId requestId deviceId : String} {hasExactKeys : Bool}
    (h : x.acknowledgeInvite inviteId requestId deviceId hasExactKeys = .commit c) :
    ∃ record team invite, x.records.inviteResponses.get requestId = some record ∧
      record.inviteId = inviteId ∧
      x.records.teams.get record.responseBinding.teamId = some team ∧
      x.records.invites.get record.inviteId = some invite ∧
      inviteIsExpired x.now invite = false ∧
      inviteResponseRemainsAuthorized invite record = true ∧
      c.transaction = x.ackTransaction team invite record := by
  unfold acknowledgeInvite at h
  split at h
  · cases h
  split at h
  · cases h
  · split at h <;> cases h
  rename_i session record hsession hrecord
  split at h
  · rename_i hown
    unfold ackInviteResponse at h
    split at h
    · cases h
    rename_i team hteam
    split at h
    · cases h
    split at h
    · cases h
    rename_i invite hinvite
    split at h
    · cases h
    rename_i hexpired
    split at h
    · cases h
    rename_i hauthorized
    cases h
    simp only [Bool.and_eq_true, decide_eq_true_eq] at hown
    exact ⟨record, team, invite, hrecord, hown.1.1.1, hteam, hinvite, by simpa using hexpired,
      by simpa using hauthorized, rfl⟩
  · cases h

end HttpContext

end MultAIplayer
