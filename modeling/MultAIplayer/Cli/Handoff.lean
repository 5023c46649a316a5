import MultAIplayer.Protocol.HostHandoff

/-!
# Handoffs in the CLI

`HandoffState`, the offers that a session of the CLI remembers, and `recover_host_transfer`, which
marks an offer accepted when a transfer Commit has been processed.
-/

namespace MultAIplayer.Cli

def maxHandoffs : ℕ := 32

/-- `<=` on the tuples `key()`. Rust compares the bytes of UTF-8, which is the order of the
characters. -/
def keyLe (current proposed : CandidateBinding) : Bool :=
  if current.userId.1 ≠ proposed.userId.1 then
    current.userId.1.toList < proposed.userId.1.toList
  else if current.deviceId.1 ≠ proposed.deviceId.1 then
    current.deviceId.1.toList < proposed.deviceId.1.toList
  else current.leaf ≤ proposed.leaf

structure HandoffState where
  offers : List HostHandoffPlaintextPayload := []
  deriving DecidableEq

/-- The first offer of an id is changed in place. -/
def putOffer (offer : HostHandoffPlaintextPayload) :
    List HostHandoffPlaintextPayload → List HostHandoffPlaintextPayload
  | [] => []
  | first :: rest => if first.id = offer.id then offer :: rest else first :: putOffer offer rest

namespace HandoffState

variable (s : HandoffState)

@[grind =] def offer (id : String) : Option HostHandoffPlaintextPayload :=
  s.offers.find? fun offer ↦ offer.id = id

def put (offer : HostHandoffPlaintextPayload) : HandoffState := ⟨putOffer offer s.offers⟩

def rememberOffer (offer : HostHandoffPlaintextPayload) : HandoffState :=
  if (s.offer offer.id).isSome then s
  else
    let offers := s.offers ++ [{ offer with status := .available }]
    ⟨if maxHandoffs < offers.length then offers.drop 1 else offers⟩

@[grind =]
def requestCandidate (request : HostHandoffRequestPlaintextPayload) : Bool × HandoffState :=
  match s.offer request.offerId with
  | none => (false, s)
  | some offer =>
    if offer.status ∉ [.available, .requested] then (false, s)
    else
      let current :=
        candidateOf offer.candidateUserId offer.candidateDeviceId offer.candidateLeaf
      if current.any fun current ↦ keyLe current request.candidate then (true, s)
      else
        (true, s.put { offer with
          candidateUserId := some request.candidate.userId
          candidateDeviceId := some request.candidate.deviceId
          candidateLeaf := some request.candidate.leaf
          status := .requested })

/-- The offer names a candidate. -/
def names (offer : HostHandoffPlaintextPayload) (userId deviceId : String) (leaf : ℕ) : Bool :=
  offer.candidateUserId.map Subtype.val = some userId &&
    offer.candidateDeviceId.map Subtype.val = some deviceId && offer.candidateLeaf = some leaf

def acceptInformational (accepted : HostHandoffAcceptedPlaintextPayload)
    (senderUserId createdAt : String) : Bool × HandoffState :=
  match s.offer accepted.offerId with
  | none => (false, s)
  | some offer =>
    if offer.fromUserId ≠ senderUserId || offer.status ∉ [.requested, .accepted] ||
        !names offer accepted.host.userId.1 accepted.host.deviceId.1 accepted.host.leaf then
      (false, s)
    else
      (true, s.put { offer with
        status := .accepted
        acceptedByUserId := some accepted.host.userId.1
        acceptedAt := some createdAt })

/-- The checks of `accept_committed` on an offer. -/
def commits (offer : HostHandoffPlaintextPayload) (envelope : MlsRelayMessage)
    (auth : HostTransferAuthorization) : Bool :=
  offer.status ∈ [.requested, .accepted] && envelope.messageType = .commit &&
    envelope.commitEffect = some .hostHandoff && offer.fromUserId = auth.outgoingHostUserId &&
    envelope.senderUserId = auth.outgoingHostUserId &&
    envelope.senderDeviceId = auth.outgoingHostDeviceId &&
    names offer auth.nextHostUserId auth.nextHostDeviceId auth.nextHostLeaf &&
    envelope.nextHostUserId = some auth.nextHostUserId &&
    envelope.nextHostDeviceId = some auth.nextHostDeviceId &&
    envelope.id = auth.commitMessageId && envelope.roomId = auth.roomId &&
    envelope.epochHint = auth.parentEpoch

def acceptCommitted (envelope : MlsRelayMessage) : Bool × HandoffState :=
  match envelope.hostTransferAuthorization with
  | none => (false, s)
  | some auth =>
    match s.offer auth.transferId with
    | none => (false, s)
    | some offer =>
      if commits offer envelope auth then
        (true, s.put { offer with
          status := .accepted
          acceptedByUserId := some auth.nextHostUserId
          acceptedAt := some envelope.createdAt })
      else (false, s)

/-- The group has made the transfer of an authorization: the checks of `recover_host_transfer`. -/
def groupTransferred (group : HostGroupState) (envelope : MlsRelayMessage)
    (auth : HostTransferAuthorization) : Bool :=
  group.epoch = envelope.epochHint + 1 && group.hostLeaf = auth.nextHostLeaf &&
    group.hostDeviceId = auth.nextHostDeviceId && group.hostTransferId = some auth.transferId

def recoverHostTransfer (envelope : MlsRelayMessage) (group : HostGroupState) :
    Bool × HandoffState :=
  match envelope.hostTransferAuthorization with
  | none => (false, s)
  | some auth => if groupTransferred group envelope auth then s.acceptCommitted envelope else (false, s)

end HandoffState

end MultAIplayer.Cli
