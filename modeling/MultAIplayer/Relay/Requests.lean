import MultAIplayer.Relay.AccountRoutes
import MultAIplayer.Relay.InviteRoutes
import MultAIplayer.Relay.KeyPackageRoutes
import MultAIplayer.Relay.RoomRoutes
import MultAIplayer.Relay.TeamRoutes

/-!
# Requests

Every request that changes the store, and what a failed save leaves of it.

A handler either has no rollback, and what it staged stays in memory, or its rollback restores the
records (`Records.Restored`): everything is back under its key, except that a membership map may
list its members in another order and that a team without a map may have an empty one.
-/

namespace MultAIplayer

/-- The requests, the operator's calls among them. -/
inductive Request
  | setTeamMemberRole (teamId userId : String) (role : Option TeamRole)
  | transferOwner (teamId userId : String)
  | removeTeamMember (teamId userId : String)
  | teamLifecycle (teamId : String) (action : Option LifecycleAction)
  | createTeam (id name : String) (withinQuota : Bool)
  | roomSettings (roomId : String) (body : HttpContext.RoomSettingsInput)
  | roomHost (roomId : String) (body : HttpContext.RoomHostInput)
  | roomLifecycle (roomId : String) (action : Option LifecycleAction)
      (requesterUserId requesterName : String)
  | createRoom (id : String) (body : HttpContext.RoomCreationInput) (withinQuota : Bool)
  | createInvite (id teamId roomId : String)
  | getInvite (inviteId : String)
  | deleteRoomInvites (teamId roomId : String)
  | requestInvite (body : HttpContext.InviteRequestInput)
  | respondInvite (body : HttpContext.InviteResponseInput)
  | acknowledgeInvite (inviteId requestId requesterDeviceId : String) (hasExactKeys : Bool)
  | uploadKeyPackages (deviceId : String) (uploads : List KeyPackageUpload) (withinBudget : Bool)
  | consumeKeyPackage (input : HttpContext.ConsumptionInput)
  | registerDevice (identity : DeviceRecord)
  | deleteAccount (isConfirmed : Bool)
  | issueVerifiedSession (sessionIdHash : String) (user : AuthUser)
  | logout
  | discardDeadSession (sessionIdHash : String)
  | restrictAccount (restriction : AccountRestriction)
  | unrestrictAccount (userId : String)
  | evictAccount (userId : String)

namespace Request

/-- Whether a route calls `allowMutation` first. -/
def requiresSession : Request → Bool
  | .getInvite _ | .deleteAccount _ | .issueVerifiedSession _ _ | .logout | .discardDeadSession _
  | .restrictAccount _ | .unrestrictAccount _ | .evictAccount _ => false
  | _ => true

/-- The handler of a request. -/
@[grind =] def route (x : HttpContext) : Request → Handling
  | .setTeamMemberRole teamId userId role => x.setTeamMemberRole teamId userId role
  | .transferOwner teamId userId => x.transferOwner teamId userId
  | .removeTeamMember teamId userId => x.removeTeamMember teamId userId
  | .teamLifecycle teamId action => x.teamLifecycle teamId action
  | .createTeam id name withinQuota => x.createTeam id name withinQuota
  | .roomSettings roomId body => x.roomSettings roomId body
  | .roomHost roomId body => x.roomHost roomId body
  | .roomLifecycle roomId action userId name => x.roomLifecycle roomId action userId name
  | .createRoom id body withinQuota => x.createRoom id body withinQuota
  | .createInvite id teamId roomId => x.createInvite id teamId roomId
  | .getInvite inviteId => x.getInvite inviteId
  | .deleteRoomInvites teamId roomId => x.deleteRoomInvites teamId roomId
  | .requestInvite body => x.requestInvite body
  | .respondInvite body => x.respondInvite body
  | .acknowledgeInvite inviteId requestId deviceId hasExactKeys =>
    x.acknowledgeInvite inviteId requestId deviceId hasExactKeys
  | .uploadKeyPackages deviceId uploads withinBudget =>
    x.uploadKeyPackages deviceId uploads withinBudget
  | .consumeKeyPackage input => x.consumeKeyPackage input
  | .registerDevice identity => x.registerDevice identity
  | .deleteAccount isConfirmed => x.deleteAccount isConfirmed
  | .issueVerifiedSession sessionIdHash user => x.issueVerifiedSession sessionIdHash user
  | .logout => x.logout
  | .discardDeadSession sessionIdHash => x.discardDeadSession sessionIdHash
  | .restrictAccount restriction => x.restrictAccount restriction
  | .unrestrictAccount userId => x.unrestrictAccount userId
  | .evictAccount userId => HttpContext.evictAccount userId

/-- `allowMutation`, then the handler. -/
def handle (x : HttpContext) (request : Request) : Handling :=
  if request.requiresSession && x.config.mutationsRequireAuth && x.session.isNone then
    .refuse 401 "authentication_required" "Sign in with GitHub before changing workspace state."
  else request.route x

end Request

end MultAIplayer
