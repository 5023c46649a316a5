import Mathlib.Data.Nat.Notation
import Mathlib.Data.Int.Notation

/-!
# Records of the relay protocol

The record types that the relay keeps in memory, writes to SQLite and sends over its sockets, with
the fields of the protocol package and of the relay's own `state.ts`.

## Timestamps

A timestamp that the relay itself writes (`new Date().toISOString()`) is kept as the `Instant` it
denotes: such texts are compared and parsed back, and nothing else. A timestamp that a client
chooses (`MlsRelayMessage.createdAt`) stays the text that arrived, because the relay accepts texts
that it would never have written itself.

## Numbers

Epochs and counters are `ℕ`: the schemas accept non-negative safe integers only, and the bound
`Number.MAX_SAFE_INTEGER` is stated where a result depends on it.
-/

namespace MultAIplayer

/-- Milliseconds since the Unix epoch. -/
abbrev Instant := ℤ

/-- The key of a room's backlog, queue and sockets. -/
abbrev RoomKey := String

/-- `roomKey` of `relay-domain.ts`. -/
def roomKey (teamId roomId : String) : RoomKey := teamId ++ ":" ++ roomId

/-! ### Teams, rooms and devices -/

inductive TeamRole
  | owner
  | admin
  | member
  deriving DecidableEq

structure TeamRecord where
  id : String
  name : String
  members : ℕ
  role : Option TeamRole := none
  archivedAt : Option Instant := none
  deletedAt : Option Instant := none
  deriving DecidableEq

structure TeamMemberRecord where
  teamId : String
  userId : String
  role : TeamRole
  joinedAt : Instant
  deriving DecidableEq

inductive HostStatus
  | active
  | offline
  deriving DecidableEq

inductive ApprovalPolicy
  | askEveryTurn
  | neverHost
  deriving DecidableEq

structure RoomRecord where
  id : String
  teamId : String
  acceptedMlsEpoch : Option ℕ := none
  name : String
  host : String
  hostUserId : Option String := none
  activeHostDeviceId : Option String := none
  hostStatus : HostStatus
  approvalPolicy : ApprovalPolicy
  archivedAt : Option Instant := none
  deletedAt : Option Instant := none
  deriving DecidableEq

structure DeviceRecord where
  userId : String
  deviceId : String
  displayName : String
  signaturePublicKey : String
  signatureKeyFingerprint : String
  hpkePublicKey : String
  hpkeKeyFingerprint : String
  registeredAt : Instant
  lastSeenAt : Instant
  deriving DecidableEq

/-! ### MLS relay messages -/

inductive MlsMessageType
  | application
  | commit
  deriving DecidableEq

structure HostTransferAuthorization where
  version : ℕ
  transferId : String
  roomId : String
  commitMessageId : String
  parentEpoch : ℕ
  outgoingHostUserId : String
  outgoingHostDeviceId : String
  nextHostUserId : String
  nextHostDeviceId : String
  nextHostLeaf : ℕ
  signatureDer : String
  publicKeySpkiDer : String
  deriving DecidableEq

/-- The only literal that the schema admits for `commitEffect`. -/
inductive CommitEffect
  | hostHandoff
  deriving DecidableEq

/-- Relay-visible routing metadata around an opaque MLS message. -/
structure MlsRelayMessage where
  id : String
  teamId : String
  roomId : String
  senderDeviceId : String
  senderUserId : String
  createdAt : String
  messageType : MlsMessageType
  epochHint : ℕ
  mlsMessage : String
  commitEffect : Option CommitEffect := none
  nextHostUserId : Option String := none
  nextHostDeviceId : Option String := none
  hostTransferAuthorization : Option HostTransferAuthorization := none
  deriving DecidableEq

structure AcceptedMessageReceipt where
  roomKey : RoomKey
  messageId : String
  messageType : MlsMessageType
  senderUserId : String
  senderDeviceId : String
  parentEpoch : ℕ
  digest : String
  acceptedAt : Instant
  deriving DecidableEq

/-! ### KeyPackages -/

structure KeyPackageRecord where
  id : String
  keyPackage : String
  keyPackageHash : String
  ciphersuite : ℕ
  userId : String
  deviceId : String
  credentialIdentity : String
  createdAt : Instant
  deriving DecidableEq

structure ConsumedKeyPackageRecord where
  keyPackageHash : String
  teamId : Option String := none
  userId : Option String := none
  deviceId : Option String := none
  consumedAt : Instant
  deriving DecidableEq

/-! ### Directed invites -/

structure InviteRecord where
  id : String
  teamId : String
  roomId : String
  creatorUserId : Option String := none
  approvedUserId : Option String := none
  approvedDeviceId : Option String := none
  keyPackageHash : Option String := none
  createdAt : Instant
  expiresAt : Option Instant := none
  deriving DecidableEq

/-- The `binding` of a sealed join request, as parsed from the request's text. -/
structure InviteRequestBinding where
  inviteId : String
  teamId : String
  roomId : String
  keyEpoch : ℕ
  keyPackageHash : String
  requestId : String
  requestNonce : String
  requesterUserId : String
  requesterDeviceId : String
  hostUserId : String
  hostDeviceId : String
  expiresAt : String
  deriving DecidableEq

inductive InviteDecision
  | approved
  | denied
  deriving DecidableEq

structure InviteJoinRequestRecord where
  requestId : String
  inviteId : String
  requesterUserId : String
  requesterDeviceId : String
  keyPackageId : String
  keyPackageHash : String
  sealedRequest : String
  createdAt : Instant
  deriving DecidableEq

structure InviteResponseBinding where
  inviteId : String
  teamId : String
  roomId : String
  keyEpoch : ℕ
  keyPackageHash : String
  requestId : String
  requestNonce : String
  requesterUserId : String
  requesterDeviceId : String
  hostUserId : String
  hostDeviceId : String
  expiresAt : String
  status : InviteDecision
  decidedAt : String
  deriving DecidableEq

structure InviteResponseRecord where
  requestId : String
  inviteId : String
  requesterUserId : String
  requesterDeviceId : String
  keyPackageHash : String
  status : InviteDecision
  responseBinding : InviteResponseBinding
  responseMac : String
  welcome : Option String := none
  createdAt : Instant
  deriving DecidableEq

structure InviteAckReceipt where
  inviteId : String
  requestId : String
  teamId : String
  requesterUserId : String
  requesterDeviceId : String
  keyPackageHash : String
  status : InviteDecision
  acknowledgedAt : Instant
  expiresAt : Instant
  deriving DecidableEq

/-! ### Attachments, accounts and sessions -/

structure AttachmentBlobRecord where
  id : String
  teamId : String
  roomId : String
  name : String
  type : String
  size : ℕ
  uploadedByUserId : Option String := none
  epoch : ℕ
  sealedBlob : String
  createdAt : Instant
  expiresAt : Option Instant := none
  deriving DecidableEq

structure AuthUser where
  id : String
  login : String
  name : Option String := none
  avatarUrl : Option String := none
  deriving DecidableEq

structure AuthSession where
  sessionIdHash : String
  user : AuthUser
  expiresAt : Instant
  deriving DecidableEq

structure AccountRestriction where
  userId : String
  reasonCode : String
  createdAt : Instant
  expiresAt : Option Instant := none
  deriving DecidableEq

inductive AccountQuota
  | dailyTeamCreations
  | dailyRoomCreations
  | attachmentUploadBytes
  deriving DecidableEq

structure AccountQuotaRecord where
  key : String
  userId : String
  quota : AccountQuota
  used : ℕ
  resetAt : Instant
  deriving DecidableEq

end MultAIplayer
