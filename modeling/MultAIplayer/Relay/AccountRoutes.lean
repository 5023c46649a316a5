import MultAIplayer.Relay.AuthSessions
import MultAIplayer.Relay.Http

/-!
# Accounts

What `auth/account-deletion.ts`, `auth/account-restrictions.ts`, `http/devices.ts` and the session
routes of `auth/github.ts` do to the store: deleting an account with everything it owns,
restricting it, registering a device, signing in and out.

An account deletion is staged, saved and, when the save throws, taken back in one step. What its
rollback puts back is every key that it touched; a membership map regains its member at the end.
-/

namespace MultAIplayer

namespace HttpContext

variable (x : HttpContext)

/-! ### Deletion -/

/-- `findAccountDeletionBlockers`, the owned teams. -/
def ownedTeams (userId : String) : List TeamRecord :=
  (x.records.teamMembers.entries.filter fun p ↦ (p.2.get userId).any (·.role = .owner)).filterMap
    fun p ↦ (x.records.teams.get p.1).filter (·.deletedAt.isNone)

/-- `findAccountDeletionBlockers`, the hosted rooms. -/
def hostedRooms (userId : String) : List RoomRecord :=
  x.records.rooms.values.filter fun room ↦ room.deletedAt.isNone && room.hostUserId = some userId

/-- The teams of an account, with their members. -/
def membershipsOf (userId : String) : List (String × TeamMembers) :=
  x.records.teamMembers.entries.filter fun p ↦ p.2.has userId

/-- The deleted rooms that an account hosted. -/
def deletedRoomsOf (userId : String) : List RoomRecord :=
  x.records.rooms.values.filter fun room ↦ room.deletedAt.isSome && room.hostUserId = some userId

def consumedKeyPackagesOf (userId : String) : InsertionMap String ConsumedKeyPackageRecord :=
  x.records.consumedKeyPackages.filter fun _ consumed ↦ consumed.userId = some userId

/-- What `removeConsumedKeyPackageOwnerFields` leaves of a record. -/
def withoutOwnerFields (keyPackageHash : String) (consumed : ConsumedKeyPackageRecord) :
    ConsumedKeyPackageRecord where
  keyPackageHash := keyPackageHash
  teamId := consumed.teamId.filter (· ≠ "")
  consumedAt := consumed.consumedAt

/-- Replace the members of a team, and their number. -/
def replaceMembers (teamId : String) (members : TeamMembers) : List StoreEdit :=
  .setTeamMembers teamId members ::
    (x.records.teams.get teamId).toList.map fun team ↦ .setTeam { team with members := members.size }

def isInviteOf (userId : String) (invite : InviteRecord) : Bool :=
  invite.creatorUserId = some userId || invite.approvedUserId = some userId

def isInviteRequestOf (userId : String) (request : InviteJoinRequestRecord) : Bool :=
  request.requesterUserId = userId || request.inviteId ∈ x.records.inviteIdsWhere (isInviteOf userId)

def isInviteResponseOf (userId : String) (response : InviteResponseRecord) : Bool :=
  response.requesterUserId = userId || response.responseBinding.hostUserId = userId ||
    response.inviteId ∈ x.records.inviteIdsWhere (isInviteOf userId)

def isInviteAckReceiptOf (userId : String) (receipt : InviteAckReceipt) : Bool :=
  receipt.requesterUserId = userId || receipt.inviteId ∈ x.records.inviteIdsWhere (isInviteOf userId)

/-- `deleteAccountOwnedRelayData`. -/
def deleteAccountOwnedRelayData (userId : String) : List StoreEdit :=
  [.deleteWhere .authSessions fun _ session ↦ session.user.id = userId,
    .deleteWhere .devices fun _ device ↦ device.userId = userId,
    .deleteWhere .keyPackages fun _ keyPackage ↦ keyPackage.userId = userId,
    .deleteWhere .accountQuotaRecords fun _ quota ↦ quota.userId = userId] ++
  ((x.consumedKeyPackagesOf userId).entries.map fun p ↦
    .set .consumedKeyPackages p.1 (withoutOwnerFields p.1 p.2)) ++
  ((x.membershipsOf userId).flatMap fun p ↦ x.replaceMembers p.1 (p.2.delete userId)) ++
  ((x.deletedRoomsOf userId).map fun room ↦
    .setRoom (room.withoutHostIdentity "Deleted user")) ++
  [.deleteWhere .invites fun _ invite ↦ isInviteOf userId invite,
    .deleteWhere .inviteRequests fun _ request ↦ x.isInviteRequestOf userId request,
    .deleteWhere .inviteResponses fun _ response ↦ x.isInviteResponseOf userId response,
    .deleteWhere .inviteAckReceipts fun _ receipt ↦ x.isInviteAckReceiptOf userId receipt]

/-- The members of a team with a deleted one back, in the last place. -/
def withMemberBack (members : TeamMembers) (userId : String) : TeamMembers :=
  match members.get userId with
  | some member => (members.delete userId).set userId member
  | none => members

/-- `restoreAccountDeletionState`. -/
def restoreAccountDeletionState (userId : String) : List StoreEdit :=
  restoreEntries (e := .authSessions)
    (x.records.authSessions.filter fun _ session ↦ session.user.id = userId) ++
  restoreEntries (e := .devices) (x.records.devices.filter fun _ device ↦ device.userId = userId) ++
  restoreEntries (e := .keyPackages)
    (x.records.keyPackages.filter fun _ keyPackage ↦ keyPackage.userId = userId) ++
  restoreEntries (e := .consumedKeyPackages) (x.consumedKeyPackagesOf userId) ++
  (x.deletedRoomsOf userId).map .setRoom ++
  restoreEntries (e := .invites) (x.records.invites.filter fun _ invite ↦ isInviteOf userId invite) ++
  restoreEntries (e := .inviteRequests)
    (x.records.inviteRequests.filter fun _ request ↦ x.isInviteRequestOf userId request) ++
  restoreEntries (e := .inviteResponses)
    (x.records.inviteResponses.filter fun _ response ↦ x.isInviteResponseOf userId response) ++
  restoreEntries (e := .inviteAckReceipts)
    (x.records.inviteAckReceipts.filter fun _ receipt ↦ x.isInviteAckReceiptOf userId receipt) ++
  ((x.membershipsOf userId).flatMap fun p ↦ x.replaceMembers p.1 (withMemberBack p.2 userId)) ++
  restoreEntries (e := .accountQuotaRecords)
    (x.records.accountQuotaRecords.filter fun _ quota ↦ quota.userId = userId)

def deletionTransaction (userId : String) : Transaction where
  stage := x.deleteAccountOwnedRelayData userId
  rollback := x.restoreAccountDeletionState userId

/-- `DELETE /auth/account`. -/
def deleteAccount (isConfirmed : Bool) : Handling :=
  match x.session with
  | none =>
    .refuse 401 "authentication_required" "Sign in before deleting hosted account data."
  | some session =>
    if !isConfirmed then
      .refuse 400 "invalid_request" "confirmation must equal \"delete my account\""
    else if !x.records.isLiveAccountSession x.now session then
      .refuse 401 "authentication_required" "Sign in before deleting hosted account data."
    else if x.ownedTeams session.user.id ≠ [] ∨ x.hostedRooms session.user.id ≠ [] then
      .refuse 409 "account_deletion_blocked"
        "Transfer or delete every owned team and hand off every hosted room before deleting your hosted data."
    else
      .commit
        { transaction := x.deletionTransaction session.user.id
          effects := [.deleteDeviceSessions session.user.id,
            .finishAccountDeletion session.user.id
              ((x.membershipsOf session.user.id).map Prod.fst)]
          awaits := true
          unsaved := persistenceUnavailable "Account deletion could not be persisted." }

/-! ### Restriction -/

/-- `validateAccountRestriction`. -/
def accountRestrictionError (restriction : AccountRestriction) : Option String :=
  if restriction.userId = "" ∨ restriction.userId ≠ Text.trim restriction.userId ∨
      512 < Text.utf16Length restriction.userId ∨ restriction.userId.toList.any Text.isControl then
    some "Account restriction user id must be non-empty, bounded, and control-character free."
  else if restriction.reasonCode.toList = [] ∨ 64 < restriction.reasonCode.toList.length ∨
      !restriction.reasonCode.toList.all fun c ↦ c.isLower || c.isDigit || c = '_' then
    some "Account restriction reason code must use 1-64 lowercase letters, digits, or underscores."
  else if restriction.expiresAt.any (· ≤ x.now) then
    some "Account restriction expiry must be a valid future timestamp."
  else none

/-- `restrictAccount`, up to its first await. -/
def restrictAccount (restriction : AccountRestriction) : Handling :=
  match x.accountRestrictionError restriction with
  | some message => .answer (.thrown message)
  | none =>
    .commit
      { transaction.stage := [.set .accountRestrictions restriction.userId restriction]
        transaction.rollback := match x.records.accountRestrictions.get restriction.userId with
          | some previous => [.set .accountRestrictions restriction.userId previous]
          | none => [.delete .accountRestrictions restriction.userId]
        effects := [.evictAccount restriction.userId]
        awaits := true
        unsaved := internalError }

/-- `evictAccount`, and the save that follows it in `restrictAccount`. -/
def evictAccount (userId : String) : Handling :=
  .commit
    { transaction.stage := [.deleteWhere .authSessions fun _ session ↦ session.user.id = userId]
      effects := [.deleteDeviceSessions userId, .revokeUserSessions userId]
      unsaved := internalError
      unsavedEffects := [.deleteDeviceSessions userId, .revokeUserSessions userId] }

/-- `unrestrictAccount`. -/
def unrestrictAccount (userId : String) : Handling :=
  match x.records.accountRestrictions.get userId with
  | none => .answer .done
  | some previous =>
    .commit
      { transaction.stage := [.delete .accountRestrictions userId]
        transaction.rollback := [.set .accountRestrictions userId previous]
        awaits := true
        unsaved := internalError }

/-! ### Sessions -/

def authSessionMaxAgeMs : ℕ := 1000 * 60 * 60 * 24 * 30

/-- The sessions that a sign-in evicts. -/
def selectAuthSessionsToEvict (userId : String) : List (String × AuthSession) :=
  MultAIplayer.selectAuthSessionsToEvict x.records.authSessions userId
    x.config.retainedAuthSessionCapPerUser 1 x.now

/-- `issueVerifiedSession` for a user that GitHub has verified, with the hash of the id that
`nanoid` draws: it never draws one that is in use. -/
def issueVerifiedSession (sessionIdHash : String) (user : AuthUser) : Handling :=
  if x.records.isAccountRestricted x.now user.id then
    .refuse 403 "account_restricted" "This account is restricted by the relay operator."
  else if x.records.authSessions.has sessionIdHash then .answer internalError
  else
    .commit
      { transaction.stage :=
          (x.selectAuthSessionsToEvict user.id).map (fun p ↦ .delete .authSessions p.1) ++
            [.set .authSessions sessionIdHash ⟨sessionIdHash, user, x.now + authSessionMaxAgeMs⟩]
        transaction.rollback :=
          .delete .authSessions sessionIdHash ::
            (x.selectAuthSessionsToEvict user.id).map fun p ↦ .set .authSessions p.1 p.2
        effects := [.closeAuthSessionSockets ((x.selectAuthSessionsToEvict user.id).map Prod.snd)]
        awaits := true
        unsaved := persistenceUnavailable "Could not persist the GitHub session." }

/-- `POST /auth/logout`. The sockets are closed before the save. -/
def logout : Handling :=
  match x.session with
  | none => .answer .done
  | some session =>
    .commit
      { transaction.stage := [.delete .authSessions session.sessionIdHash]
        effects := [.closeAuthSessionSockets [session]]
        unsaved := internalError
        unsavedEffects := [.closeAuthSessionSockets [session]] }

/-- What `getAuthSession` does about a session that is no longer good. -/
def discardDeadSession (sessionIdHash : String) : Handling :=
  match x.records.authSessions.get sessionIdHash with
  | none => .answer .done
  | some _ =>
    if (x.records.getAuthSession x.now sessionIdHash).isSome then .answer .done
    else
      .commit
        { transaction.stage := [.delete .authSessions sessionIdHash]
          unsaved := internalError }

/-! ### Devices -/

/-- `POST /devices`, for an identity that `normalizeDeviceRegistration` has accepted. -/
def registerDevice (identity : DeviceRecord) : Handling :=
  match x.session with
  | none => .refuse 401 "authentication_required" "Sign in before registering a device identity."
  | some session =>
    if identity.userId ≠ session.user.id then
      .refuse 403 "forbidden" "Device user id must match the signed-in GitHub user."
    else if !x.records.isLiveAccountSession x.now session then
      .refuse 401 "authentication_required" "Sign in before registering a device identity."
    else
      let existing := x.records.getDevice identity.userId identity.deviceId
      if existing.any fun device ↦ device.signaturePublicKey ≠ identity.signaturePublicKey ||
          device.hpkePublicKey ≠ identity.hpkePublicKey then
        .refuse 409 "conflict"
          "This device id is already bound to different public keys; register a new device id instead."
      else if existing.isNone ∧ x.config.registeredDeviceCapPerUser ≤
          (x.records.devices.values.filter (·.userId = identity.userId)).length then
        .refuse 429 "quota_exceeded" "Registered device quota exceeded."
      else
        let device :=
          { identity with
            registeredAt := (existing.map (·.registeredAt)).getD x.now
            lastSeenAt := x.now }
        .commit
          { transaction.stage := [.setDevice device]
            transaction.rollback := match existing with
              | some device => [.setDevice device]
              | none => [.delete .devices (deviceKey identity.userId identity.deviceId)]
            unsaved := persistenceUnavailable "Could not persist device identity." }

/-! ### What a commit has passed -/

variable {x} {c : Commit}

theorem deleteAccount_eq_commit {isConfirmed : Bool} (h : x.deleteAccount isConfirmed = .commit c) :
    ∃ session, x.session = some session ∧ x.ownedTeams session.user.id = [] ∧
      x.hostedRooms session.user.id = [] ∧
      c.transaction = x.deletionTransaction session.user.id ∧
      c.effects = [.deleteDeviceSessions session.user.id, .finishAccountDeletion session.user.id
        ((x.membershipsOf session.user.id).map Prod.fst)] := by
  unfold deleteAccount at h
  split at h
  · cases h
  rename_i session hsession
  split at h
  · cases h
  split at h
  · cases h
  split at h
  · cases h
  rename_i hblockers
  cases h
  rw [not_or, not_not, not_not] at hblockers
  exact ⟨session, hsession, hblockers.1, hblockers.2, rfl, rfl⟩

theorem restrictAccount_eq_commit {restriction : AccountRestriction}
    (h : x.restrictAccount restriction = .commit c) :
    restriction.userId ≠ "" ∧
      c.transaction.stage = [.set .accountRestrictions restriction.userId restriction] ∧
      c.transaction.rollback = match x.records.accountRestrictions.get restriction.userId with
        | some previous => [.set .accountRestrictions restriction.userId previous]
        | none => [.delete .accountRestrictions restriction.userId] := by
  unfold restrictAccount at h
  split at h
  · cases h
  · rename_i hvalid
    cases h
    refine ⟨fun hempty ↦ ?_, rfl, rfl⟩
    rw [accountRestrictionError, if_pos (.inl hempty)] at hvalid
    cases hvalid

theorem unrestrictAccount_eq_commit {userId : String} (h : x.unrestrictAccount userId = .commit c) :
    ∃ previous, x.records.accountRestrictions.get userId = some previous ∧ c.transaction =
      ⟨[.delete .accountRestrictions userId], [.set .accountRestrictions userId previous]⟩ := by
  unfold unrestrictAccount at h
  split at h
  · cases h
  · rename_i previous hprevious
    cases h
    exact ⟨previous, hprevious, rfl⟩

theorem issueVerifiedSession_eq_commit {sessionIdHash : String} {user : AuthUser}
    (h : x.issueVerifiedSession sessionIdHash user = .commit c) :
    x.records.authSessions.get sessionIdHash = none ∧
      x.records.isAccountRestricted x.now user.id = false ∧ c.transaction =
        ⟨(x.selectAuthSessionsToEvict user.id).map (fun p ↦ .delete .authSessions p.1) ++
            [.set .authSessions sessionIdHash ⟨sessionIdHash, user, x.now + authSessionMaxAgeMs⟩],
          .delete .authSessions sessionIdHash ::
            (x.selectAuthSessionsToEvict user.id).map fun p ↦ .set .authSessions p.1 p.2⟩ := by
  unfold issueVerifiedSession at h
  split at h
  · cases h
  rename_i hrestricted
  split at h
  · cases h
  rename_i hfresh
  cases h
  exact ⟨InsertionMap.get_eq_none_of_not_has hfresh, by simpa using hrestricted, rfl⟩

/-- The sessions that are evicted are sessions of the user. -/
theorem mem_selectAuthSessionsToEvict {userId : String} {p : String × AuthSession}
    (h : p ∈ x.selectAuthSessionsToEvict userId) :
    x.records.authSessions.get p.1 = some p.2 ∧ p.2.user.id = userId :=
  mem_sessionsOf.mp (mem_selectAuthSessionsToEvict_iff.mp h).1

theorem logout_eq_commit (h : x.logout = .commit c) :
    ∃ session, x.session = some session ∧
      c.transaction = ⟨[.delete .authSessions session.sessionIdHash], []⟩ := by
  unfold logout at h
  split at h
  · cases h
  · rename_i session hsession
    cases h
    exact ⟨session, hsession, rfl⟩

theorem discardDeadSession_eq_commit {sessionIdHash : String}
    (h : x.discardDeadSession sessionIdHash = .commit c) :
    c.transaction = ⟨[.delete .authSessions sessionIdHash], []⟩ := by
  unfold discardDeadSession at h
  split at h
  · cases h
  split at h
  · cases h
  · cases h
    rfl

theorem registerDevice_eq_commit {identity : DeviceRecord}
    (h : x.registerDevice identity = .commit c) :
    ∃ device : DeviceRecord, device.userId = identity.userId ∧
      device.deviceId = identity.deviceId ∧ c.transaction.stage = [.setDevice device] ∧
      c.transaction.rollback = match x.records.getDevice identity.userId identity.deviceId with
        | some device => [.setDevice device]
        | none => [.delete .devices (deviceKey identity.userId identity.deviceId)] := by
  unfold registerDevice at h
  split at h
  · cases h
  split at h
  · cases h
  split at h
  · cases h
  dsimp only at h
  split at h
  · cases h
  split at h
  · cases h
  cases h
  let registeredAt := ((x.records.getDevice identity.userId identity.deviceId).map
    (·.registeredAt)).getD x.now
  exact ⟨{ identity with registeredAt := registeredAt, lastSeenAt := x.now }, rfl, rfl, rfl, rfl⟩

end HttpContext

end MultAIplayer
