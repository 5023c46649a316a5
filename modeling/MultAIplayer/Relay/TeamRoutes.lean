import MultAIplayer.Relay.Http

/-!
# Team routes

The handlers of `http/teams.ts` that change the store: role changes, ownership transfer, member
removal, lifecycle changes and creation.
-/

namespace MultAIplayer

namespace HttpContext

variable (x : HttpContext)

/-- `PATCH /teams/:teamId/members/:userId`, with the role of `parseRequestedTeamRole`. -/
def setTeamMemberRole (teamId userId : String) (role : Option TeamRole) : Handling :=
  if !x.records.teams.has teamId then .refuse 404 "team_not_found" "Team not found"
  else
    match role with
    | none | some .owner => .refuse 400 "invalid_request" "role must be admin or member"
    | some role =>
      match x.records.teamMembers.get teamId, x.records.getTeamMember teamId userId with
      | some members, some target =>
        if !canSetTeamMemberRole (x.requesterRole teamId) target.role role then
          .refuse 403 "forbidden" "Only team owners can change admin roles."
        else
          .commit
            { transaction.stage := [.setTeamMembers teamId (members.set userId { target with role })]
              unsaved := internalError }
      | _, _ => .refuse 404 "team_member_not_found" "Team member not found"

/-- `POST /teams/:teamId/members/:userId/transfer-owner`. -/
def transferOwner (teamId userId : String) : Handling :=
  if x.sessionDied then
    .refuse 401 "authentication_required" "Sign in before transferring ownership."
  else
    match x.records.teams.get teamId with
    | none => .refuse 404 "team_not_found" "Team not found"
    | some team =>
      match x.records.teamMembers.get teamId, x.records.getTeamMember teamId userId with
      | some members, some _ =>
        if x.requesterRole teamId ≠ some .owner then
          .refuse 403 "forbidden" "Only the current team owner can transfer ownership."
        else if x.session.any fun session ↦ session.user.id ≠ "" && session.user.id = userId then
          .refuse 400 "invalid_request"
            "Choose a different team member before transferring ownership."
        else
          .commit
            { transaction.stage := [.setTeamMembers teamId (transferTeamOwnership members userId)]
              transaction.rollback := [.setTeamMembers teamId members]
              effects := [.broadcastWorkspaceUpdated team]
              unsaved := persistenceUnavailable "Could not persist team ownership transfer." }
      | _, _ => .refuse 404 "team_member_not_found" "Team member not found"

/-! ### Removal -/

/-- A room that keeps a member from being removed: not deleted, and hosted by the member. -/
def isRetainedHostedRoom (teamId userId : String) (room : RoomRecord) : Bool :=
  room.teamId = teamId && room.deletedAt.isNone && room.hostUserId = some userId

/-- `deletedRoomsHostedBy`. -/
def deletedRoomsHostedBy (teamId userId : String) : List RoomRecord :=
  x.records.rooms.values.filter fun room ↦
    room.teamId = teamId && room.deletedAt.isSome && room.hostUserId = some userId

/-- `restoreTeamInviteArtifacts` of `snapshotTeamInviteArtifacts`. -/
def restoreTeamInviteArtifacts (teamId : String) : List StoreEdit :=
  let inviteIds := x.records.inviteIdsWhere fun invite ↦ invite.teamId = teamId
  restoreEntries (e := .invites) (x.records.invites.filter fun _ invite ↦ invite.teamId = teamId) ++
    restoreEntries (e := .inviteRequests)
      (x.records.inviteRequests.filter fun _ request ↦ request.inviteId ∈ inviteIds) ++
    restoreEntries (e := .inviteResponses)
      (x.records.inviteResponses.filter fun _ response ↦ response.inviteId ∈ inviteIds) ++
    restoreEntries (e := .inviteAckReceipts)
      (x.records.inviteAckReceipts.filter fun _ receipt ↦ receipt.inviteId ∈ inviteIds)

/-- What a member removal stages, and what it puts back. -/
def removalTransaction (team : TeamRecord) (members : TeamMembers) (teamId userId : String) :
    Transaction where
  stage :=
    ((x.deletedRoomsHostedBy teamId userId).map fun room ↦
      .setRoom (room.withoutHostIdentity "Former member")) ++
    [.setTeamMembers teamId (members.delete userId),
      .setTeam { team with members := (members.delete userId).size }] ++
    x.records.revokeTeamInviteArtifacts teamId
  rollback :=
    [.setTeamMembers teamId members, .setTeam team] ++
    (x.deletedRoomsHostedBy teamId userId).map .setRoom ++ x.restoreTeamInviteArtifacts teamId

/-- `DELETE /teams/:teamId/members/:userId`, `removeTeamMemberWithinAccountTurns`. -/
def removeTeamMember (teamId userId : String) : Handling :=
  if x.sessionDied then
    .refuse 401 "authentication_required" "Sign in before removing a team member."
  else
    match x.records.teams.get teamId with
    | none => .refuse 404 "team_not_found" "Team not found"
    | some team =>
      match x.records.teamMembers.get teamId, x.records.getTeamMember teamId userId with
      | some members, some target =>
        if !canRemoveTeamMember (x.requesterRole teamId) target.role then
          .refuse 403 "forbidden"
            "Only team owners can remove admins, and owners cannot be removed."
        else if x.records.rooms.values.any (isRetainedHostedRoom teamId userId) then
          .refuse 409 "conflict" "Reassign room host authority before removing this team member."
        else
          .commit
            { transaction := x.removalTransaction team members teamId userId
              effects := [.revokeTeamMemberSessions teamId userId,
                .broadcastWorkspaceUpdated { team with members := (members.delete userId).size }]
              unsaved := persistenceUnavailable "Could not persist team member removal." }
      | _, _ => .refuse 404 "team_member_not_found" "Team member not found"

/-! ### Lifecycle -/

/-- `teamLifecycleAuthorizationError`. -/
def teamLifecycleAuthorizationError (action : LifecycleAction) (role : Option TeamRole) :
    Option String :=
  if action = .delete then
    if role = some .owner then none else some "Only the team owner can delete a team."
  else if role = some .owner ∨ role = some .admin then none
  else some "Only team owners and admins can archive or restore teams."

/-- The rooms that a team's lifecycle action reaches. -/
def undeletedRoomsOf (teamId : String) : List RoomRecord :=
  x.records.rooms.values.filter fun room ↦ room.teamId = teamId && room.deletedAt.isNone

/-- What a team's lifecycle action stages; it is left in the store when the save throws. -/
def teamLifecycleTransaction (team : TeamRecord) (action : LifecycleAction) : Transaction where
  stage :=
    .setTeam (team.afterLifecycleAction action x.now) ::
      ((x.undeletedRoomsOf team.id).map fun room ↦
        .setRoom (room.afterLifecycleAction action x.now)) ++
      if action = .delete then x.records.revokeTeamInviteArtifacts team.id else []

/-- `PATCH /teams/:teamId/lifecycle`. -/
def teamLifecycle (teamId : String) (action : Option LifecycleAction) : Handling :=
  match (x.records.teams.get teamId).filter (·.deletedAt.isNone) with
  | none => .refuse 404 "team_not_found" "Team not found"
  | some team =>
    if x.session.isSome ∧ x.requesterRole teamId = none then
      .refuse 403 "forbidden" "Join this team before changing its archive state."
    else
      match action with
      | none => .refuse 400 "invalid_request" "action must be archive, restore, or delete"
      | some action =>
        match teamLifecycleAuthorizationError action (x.requesterRole teamId) with
        | some message => .refuse 403 "forbidden" message
        | none =>
          .commit
            { transaction := x.teamLifecycleTransaction team action
              effects := .broadcastWorkspaceUpdated (team.afterLifecycleAction action x.now) ::
                (x.undeletedRoomsOf team.id).map fun room ↦
                  .broadcastRoomUpdated (room.afterLifecycleAction action x.now)
              unsaved := internalError }

/-! ### Creation -/

/-- The membership of a team at its creation. -/
def foundingMembers (teamId : String) (session : AuthSession) : TeamMembers :=
  InsertionMap.empty.set session.user.id ⟨teamId, session.user.id, .owner, x.now⟩

/-- The team that a creation stages. -/
def createdTeam (id name : String) : TeamRecord where
  id := id
  name := name
  members := if x.session.isSome then 1 else 0

/-- What a creation stages: the team, and its owner when somebody is signed in. -/
def teamCreationTransaction (team : TeamRecord) : Transaction where
  stage := match x.session with
    | some session => [.setTeam team, .setTeamMembers team.id (x.foundingMembers team.id session)]
    | none => [.setTeam team]
  rollback := [.delete .teams team.id, .delete .teamMembers team.id]

/-- `POST /teams`, with the id that `nanoid` draws: it never draws one that is in use. -/
def createTeam (id name : String) (withinQuota : Bool) : Handling :=
  match normalizeMetadataText name maxDisplayNameChars with
  | none =>
    .refuse 400 "invalid_request" ("Team name is required and must be up to " ++
      toString maxDisplayNameChars ++ " characters")
  | some name =>
    if x.sessionDied then .refuse 401 "authentication_required" "Sign in before creating a team."
    else if x.session.isSome ∧ !withinQuota then
      .refuse 429 "quota_exceeded" "Daily team creation quota exceeded."
    else if x.records.teams.has id ∨ x.records.teamMembers.has id then .answer internalError
    else
      .commit
        { transaction := x.teamCreationTransaction (x.createdTeam id name)
          effects := [.broadcastWorkspaceUpdated (x.createdTeam id name)]
          awaits := x.session.isSome
          unsaved := persistenceUnavailable "Could not persist team quota and team." }

/-! ### What a commit has passed -/

variable {x} {c : Commit} {teamId userId : String}

theorem setTeamMemberRole_eq_commit {role : Option TeamRole}
    (h : x.setTeamMemberRole teamId userId role = .commit c) :
    ∃ members target next, x.records.teamMembers.get teamId = some members ∧
      members.get userId = some target ∧ next ≠ .owner ∧ target.role ≠ .owner ∧ c.transaction =
        ⟨[.setTeamMembers teamId (members.set userId { target with role := next })], []⟩ := by
  unfold setTeamMemberRole at h
  split at h
  · cases h
  split at h
  · cases h
  · cases h
  rename_i next hnext
  split at h
  · rename_i members target hmembers htarget
    split at h
    · cases h
    · rename_i hrole
      cases h
      rw [Records.getTeamMember, hmembers] at htarget
      refine ⟨members, target, next, hmembers, htarget, hnext, fun ho ↦ hrole ?_, rfl⟩
      simp [canSetTeamMemberRole, ho]
  · cases h

theorem transferOwner_eq_commit (h : x.transferOwner teamId userId = .commit c) :
    ∃ members target, x.records.teamMembers.get teamId = some members ∧
      members.get userId = some target ∧ c.transaction =
        ⟨[.setTeamMembers teamId (transferTeamOwnership members userId)],
          [.setTeamMembers teamId members]⟩ := by
  unfold transferOwner at h
  split at h
  · cases h
  split at h
  · cases h
  split at h
  · rename_i members target hmembers htarget
    split at h
    · cases h
    split at h
    · cases h
    cases h
    rw [Records.getTeamMember, hmembers] at htarget
    exact ⟨members, target, hmembers, htarget, rfl⟩
  · cases h

theorem removeTeamMember_eq_commit (h : x.removeTeamMember teamId userId = .commit c) :
    ∃ team members target, x.records.teams.get teamId = some team ∧
      x.records.teamMembers.get teamId = some members ∧ members.get userId = some target ∧
      target.role ≠ .owner ∧
      (∀ room ∈ x.records.rooms.values, isRetainedHostedRoom teamId userId room = false) ∧
      c.transaction = x.removalTransaction team members teamId userId := by
  unfold removeTeamMember at h
  split at h
  · cases h
  split at h
  · cases h
  rename_i team hteam
  split at h
  · rename_i members target hmembers htarget
    split at h
    · cases h
    rename_i hrole
    split at h
    · cases h
    rename_i hroom
    cases h
    rw [Records.getTeamMember, hmembers] at htarget
    refine ⟨team, members, target, hteam, hmembers, htarget, fun ho ↦ hrole ?_, ?_, rfl⟩
    · simp [canRemoveTeamMember, ho]
    · simpa using hroom
  · cases h

theorem teamLifecycle_eq_commit {action : Option LifecycleAction}
    (h : x.teamLifecycle teamId action = .commit c) :
    ∃ team next, x.records.teams.get teamId = some team ∧ team.deletedAt = none ∧
      c.transaction = x.teamLifecycleTransaction team next := by
  unfold teamLifecycle at h
  split at h
  · cases h
  rename_i team hteam
  obtain ⟨hteam, hdeleted⟩ := Option.filter_eq_some_iff.mp hteam
  split at h
  · cases h
  split at h
  · cases h
  rename_i next
  split at h
  · cases h
  cases h
  exact ⟨team, next, hteam, by simpa using hdeleted, rfl⟩

theorem createTeam_eq_commit {id name : String} {withinQuota : Bool}
    (h : x.createTeam id name withinQuota = .commit c) :
    ∃ name, x.records.teams.get id = none ∧ x.records.teamMembers.get id = none ∧
      c.transaction = x.teamCreationTransaction (x.createdTeam id name) := by
  unfold createTeam at h
  split at h
  · cases h
  rename_i name _
  split at h
  · cases h
  split at h
  · cases h
  split at h
  · cases h
  rename_i hfresh
  cases h
  rw [not_or] at hfresh
  exact ⟨name, InsertionMap.get_eq_none_of_not_has hfresh.1,
    InsertionMap.get_eq_none_of_not_has hfresh.2, rfl⟩

end HttpContext

end MultAIplayer
