import Mathlib.Data.List.Lex
import MultAIplayer.Lib.Text
import MultAIplayer.Protocol.HostHandoff

/-!
# Handoffs on the desktop

`transitionHostHandoffRecord` and the predicates of `hostHandoffMachine.ts`, over the list of
handoffs that the store keeps for a room.
-/

namespace MultAIplayer.Desktop

/-- An offer with the device that has sent it. -/
structure HostHandoffRecord extends HostHandoffPlaintextPayload where
  fromDeviceId : Option String
  patchAppliedLocally : Bool := false
  deriving DecidableEq

/-- `candidateKey`, as the code units of the text: the ids and the decimal leaf, with `\0` between
them. -/
def candidateKey (candidate : CandidateBinding) : List ℕ :=
  Text.utf16Units candidate.userId.1 ++ 0 :: Text.utf16Units candidate.deviceId.1 ++
    0 :: Text.utf16Units (toString candidate.leaf)

/-- `<=` on the texts `candidateKey`. ECMAScript compares the code units of UTF-16. -/
@[grind =] def textLe (current proposed : CandidateBinding) : Bool :=
  candidateKey current ≤ candidateKey proposed

def preferredHostCandidate (current : Option CandidateBinding) (proposed : CandidateBinding) :
    CandidateBinding :=
  match current with
  | none => proposed
  | some current => if textLe current proposed then current else proposed

inductive HostHandoffRecordTransition where
  | candidateRequested (candidate : CandidateBinding)
  | transferCommitted (acceptedByUserId acceptedAt : Option String := none)
  | patchApplied

def transitionHostHandoffRecord (handoff : HostHandoffRecord) :
    HostHandoffRecordTransition → HostHandoffRecord
  | .candidateRequested candidate =>
    if handoff.status ≠ .available ∧ handoff.status ≠ .requested then handoff
    else
      let current :=
        candidateOf handoff.candidateUserId handoff.candidateDeviceId handoff.candidateLeaf
      -- The preferred candidate is the current one as a value: the source compares the objects,
      -- and a proposal that equals the current candidate is not taken either.
      if current = some (preferredHostCandidate current candidate) then handoff
      else { handoff with
        candidateUserId := some candidate.userId
        candidateDeviceId := some candidate.deviceId
        candidateLeaf := some candidate.leaf
        status := .requested }
  | .transferCommitted acceptedByUserId acceptedAt =>
    -- an empty text is none
    { handoff with
      status := .accepted
      acceptedByUserId := (acceptedByUserId.filter (· ≠ "")).or handoff.acceptedByUserId
      acceptedAt := (acceptedAt.filter (· ≠ "")).or handoff.acceptedAt }
  | .patchApplied =>
    if handoff.status ≠ .accepted || handoff.patchAppliedLocally then handoff
    else { handoff with patchAppliedLocally := true }

/-! ### Predicates -/

def names (offer : HostHandoffRecord) (userId deviceId : String) (leaf : ℕ) : Bool :=
  offer.candidateUserId.map Subtype.val = some userId &&
    offer.candidateDeviceId.map Subtype.val = some deviceId && offer.candidateLeaf = some leaf

def acceptedHandoffMatchesOffer (senderUserId senderDeviceId : String)
    (accepted : HostHandoffAcceptedPlaintextPayload) (offer : HostHandoffRecord) : Bool :=
  offer.status = .requested && offer.fromUserId = senderUserId &&
    offer.fromDeviceId = some senderDeviceId &&
    names offer accepted.host.userId.1 accepted.host.deviceId.1 accepted.host.leaf

def commitEnvelopeMatchesAuthorization (envelope : MlsRelayMessage)
    (authorization : HostTransferAuthorization) : Bool :=
  envelope.messageType = .commit && envelope.commitEffect = some .hostHandoff &&
    authorization.roomId = envelope.roomId && authorization.commitMessageId = envelope.id &&
    authorization.parentEpoch = envelope.epochHint &&
    authorization.outgoingHostUserId = envelope.senderUserId &&
    authorization.outgoingHostDeviceId = envelope.senderDeviceId &&
    some authorization.nextHostUserId = envelope.nextHostUserId &&
    some authorization.nextHostDeviceId = envelope.nextHostDeviceId

/-- The member at the new host's leaf is the one that the authorization names. -/
def rosterNames (group : HostGroupState) (authorization : HostTransferAuthorization) : Bool :=
  (group.roster.find? fun member ↦ member.leaf = authorization.nextHostLeaf).any fun committedHost ↦
    committedHost.githubUserId = authorization.nextHostUserId &&
      committedHost.deviceId = authorization.nextHostDeviceId

def committedGroupMatchesAuthorization (group : HostGroupState) (envelope : MlsRelayMessage)
    (authorization : HostTransferAuthorization) : Bool :=
  group.epoch = envelope.epochHint + 1 &&
    group.hostTransferId = some authorization.transferId &&
    group.hostLeaf = authorization.nextHostLeaf &&
    group.hostDeviceId = authorization.nextHostDeviceId && rosterNames group authorization

def requestedOfferMatchesAuthorization (offer : HostHandoffRecord)
    (authorization : HostTransferAuthorization) : Bool :=
  offer.status = .requested && offer.id = authorization.transferId &&
    offer.fromUserId = authorization.outgoingHostUserId &&
    offer.fromDeviceId = some authorization.outgoingHostDeviceId &&
    names offer authorization.nextHostUserId authorization.nextHostDeviceId
      authorization.nextHostLeaf

def committedTransferMatchesOffer (envelope : MlsRelayMessage) (group : HostGroupState)
    (authorization : HostTransferAuthorization) (offer : HostHandoffRecord) : Bool :=
  commitEnvelopeMatchesAuthorization envelope authorization &&
    committedGroupMatchesAuthorization group envelope authorization &&
    requestedOfferMatchesAuthorization offer authorization

/-! ### The handoffs of a room -/

abbrev HostHandoffs := List HostHandoffRecord

namespace HostHandoffs

variable (handoffs : HostHandoffs)

def findHandoff (id : String) : Option HostHandoffRecord :=
  handoffs.find? fun handoff ↦ handoff.id = id

/-- The handoffs of an id are replaced. -/
def put (handoff : HostHandoffRecord) : HostHandoffs :=
  handoffs.map fun existing ↦ if existing.id = handoff.id then handoff else existing

/-- `appendHostHandoff` of what `hostHandoffRecord` makes of an offer. -/
def appendHostHandoff (offer : HostHandoffPlaintextPayload) (senderDeviceId : String) :
    HostHandoffs :=
  if handoffs.any fun existing ↦ existing.id = offer.id then handoffs
  else handoffs ++
    [{ offer with status := .available, fromDeviceId := some senderDeviceId }]

@[grind =]
def markHostHandoffRequested (request : HostHandoffRequestPlaintextPayload) : HostHandoffs :=
  match handoffs.findHandoff request.offerId with
  | none => handoffs
  | some handoff =>
    handoffs.put (transitionHostHandoffRecord handoff (.candidateRequested request.candidate))

/-- `applyAcceptedHostHandoffForRoom` of a handoff of the room. -/
def applyAccepted (handoff : HostHandoffRecord) (acceptedByUserId acceptedAt : String) :
    HostHandoffs :=
  handoffs.put (transitionHostHandoffRecord
    { handoff with acceptedByUserId := some acceptedByUserId, acceptedAt := some acceptedAt }
    .transferCommitted)

def markHostHandoffAccepted (id : String) : HostHandoffs :=
  handoffs.map fun handoff ↦
    if handoff.id = id then transitionHostHandoffRecord handoff .transferCommitted else handoff

@[grind =] def markLatestHostHandoffAccepted : HostHandoffs :=
  match handoffs.reverse.find? fun handoff ↦ handoff.status = .available with
  | none => handoffs
  | some latestAvailable =>
    handoffs.map fun handoff ↦
      if handoff.id = latestAvailable.id then { handoff with status := .accepted } else handoff

def markHostHandoffPatchApplied (id : String) : HostHandoffs :=
  handoffs.map fun handoff ↦
    if handoff.id = id then transitionHostHandoffRecord handoff .patchApplied else handoff

/-- `routeAcceptedHostHandoff`. -/
def routeAccepted (accepted : HostHandoffAcceptedPlaintextPayload)
    (senderUserId senderDeviceId createdAt : String) : HostHandoffs :=
  match handoffs.findHandoff accepted.offerId with
  | none => handoffs
  | some offer =>
    if acceptedHandoffMatchesOffer senderUserId senderDeviceId accepted offer then
      handoffs.applyAccepted offer accepted.host.userId.1 createdAt
    else handoffs

def recoverAuthenticatedHostTransfer (envelope : MlsRelayMessage) (group : HostGroupState) :
    HostHandoffs :=
  match envelope.hostTransferAuthorization with
  | none => handoffs
  | some authorization =>
    match handoffs.findHandoff authorization.transferId with
    | none => handoffs
    | some offer =>
      if committedTransferMatchesOffer envelope group authorization offer then
        handoffs.applyAccepted offer authorization.nextHostUserId envelope.createdAt
      else handoffs

end HostHandoffs

end MultAIplayer.Desktop
