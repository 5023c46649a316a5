import MultAIplayer.Cli.Handoff
import MultAIplayer.Lib.Machine
import MultAIplayer.Lib.Text

/-!
# Room events in the CLI

`open_room_event` takes an envelope of a room through `begin_incoming`, the MLS state, the checks of
what was opened and `finish_incoming`. Between them the process can stop, so each is a step of its
own; what is saved and the MLS state outlast the process, the rest does not.

The MLS library is ideal: it takes no ciphertext twice, and an outgoing Commit that it has staged is
applied once. Everything else that it says of a message is part of the step, as are the outcome of
a save and what a start finds wrong with the saved state.
-/

namespace MultAIplayer.Cli

/-! ### Messages -/

inductive ChatRole
  | human
  | codex
  | system
  deriving DecidableEq

structure ChatMessage where
  authorUserId : String
  role : ChatRole
  body : String
  deriving DecidableEq

structure CodexProposal where
  queueEventId : String
  queued : Bool
  requestedByUserId : String
  deriving DecidableEq

/-- What `RoomEvent::parse` makes of a plaintext. `other` is a kind that the protocol knows and the
CLI does not show. -/
inductive RoomEvent where
  | chatMessage (chat : ChatMessage)
  | codexQueue (proposal : CodexProposal)
  | codexEvent (turn : String)
  | codexActivity (activity : String)
  | hostHandoff (offer : HostHandoffPlaintextPayload)
  | hostHandoffRequest (request : HostHandoffRequestPlaintextPayload)
  | hostHandoffAccepted (accepted : HostHandoffAcceptedPlaintextPayload)
  | unsupported (kind : String)
  | other
  deriving DecidableEq

inductive ProjectedEvent where
  | chat (chat : ChatMessage)
  | codexProposal (proposal : CodexProposal)
  | codexTurn (turn : String)
  | codexActivity (activity : String)
  | hostHandoff (offer : HostHandoffPlaintextPayload)
  | hostHandoffRequest (request : HostHandoffRequestPlaintextPayload)
  | hostHandoffAccepted (accepted : HostHandoffAcceptedPlaintextPayload)
  | unsupported (kind : String)
  deriving DecidableEq

structure AuthenticatedData where
  version : ℕ
  epoch : ℕ
  messageId : String
  teamId : String
  roomId : String
  senderUserId : String
  senderDeviceId : String
  createdAt : String
  kind : String
  deriving DecidableEq

structure OpenedApplication where
  authenticatedData : AuthenticatedData
  payload : String
  deriving DecidableEq

inductive ChatError
  | invalidEncryptedMessage
  | mls
  | recoveryInterrupted
  | invalidRecoveryState
  deriving DecidableEq

/-! ### The recovery state -/

def maxHistoryEvents : ℕ := 100
def maxProcessedEnvelopes : ℕ := 1024
def maxRecoveryBytes : ℕ := 768 * 1024

structure RoomRecoveryState where
  processedEnvelopeIds : List String := []
  history : List ProjectedEvent := []
  pendingEnvelopeId : Option String := none
  codexThreadId : Option String := none
  handoffs : HandoffState := {}
  deriving DecidableEq

namespace RoomRecoveryState

variable (r : RoomRecoveryState)

@[grind =] def processed (id : String) : Bool := r.processedEnvelopeIds.contains id

@[grind =] def rememberProcessed (id : String) : RoomRecoveryState :=
  if r.processed id then r
  else
    let ids := r.processedEnvelopeIds ++ [id]
    { r with processedEnvelopeIds := if maxProcessedEnvelopes < ids.length then ids.drop 1 else ids }

def rememberHistory (event : ProjectedEvent) : RoomRecoveryState :=
  let history := r.history ++ [event]
  { r with history := if maxHistoryEvents < history.length then history.drop 1 else history }

/-- The mark of `begin_incoming`. -/
def mark (id : String) : RoomRecoveryState := { r with pendingEnvelopeId := some id }

/-- An envelope is remembered with what it projects. -/
def remember (id : String) (projected : Option ProjectedEvent) : RoomRecoveryState :=
  match projected with
  | some event => (r.rememberProcessed id).rememberHistory event
  | none => r.rememberProcessed id

/-- The ids that remembering an envelope drops. -/
def dropped (id : String) : List String :=
  r.processedEnvelopeIds.filter fun old ↦ !(r.rememberProcessed id).processed old

/-- The state with as much of the newest history as fits, for the length that `serde_json` gives a
state. -/
def fit (size : RoomRecoveryState → ℕ) : List ProjectedEvent → Option RoomRecoveryState
  | [] =>
    if size { r with history := [] } ≤ maxRecoveryBytes then some { r with history := [] } else none
  | event :: rest =>
    if size { r with history := event :: rest } ≤ maxRecoveryBytes then
      some { r with history := event :: rest }
    else fit size rest

end RoomRecoveryState

/-- The schema bound of `MlsRelayMessage.id`. -/
def validEnvelopeId (id : String) : Bool :=
  1 ≤ Text.utf16Length id && Text.utf16Length id ≤ 160

/-! ### The client -/

/-- Where `open_room_event` is. -/
inductive Opening where
  | idle
  /-- `begin_incoming` has saved its mark. -/
  | begun (envelope : MlsRelayMessage)
  /-- The MLS state has taken the message. -/
  | processed (envelope : MlsRelayMessage) (opened : Option OpenedApplication)
  /-- `recover_exact_local_host_transfer` is through for an own transfer. -/
  | recovered (envelope : MlsRelayMessage)
  deriving DecidableEq

structure RoomSession where
  room : RoomRecord
  recovery : RoomRecoveryState
  at_ : Opening := .idle

/-- What the MLS state has taken: ciphertexts of others, and own transfers that are staged. -/
structure MlsState where
  applied : List String := []
  staged : List String := []
  pending : List String := []

structure RoomClient where
  userId : String
  deviceId : String
  saved : Option RoomRecoveryState := none
  mls : MlsState := {}
  session : Option RoomSession := none
  /-- The ids that the bounded list of processed envelopes has dropped. The program does not keep
  them. -/
  forgotten : List String := []

inductive RoomAction where
  /-- `ChatRoomSession::new`; `valid` is what the checks of the saved state come to. -/
  | start (room : RoomRecord) (valid : Bool)
  /-- `open_room_event`, up to `begin_incoming` or to its return. `recovers` is the outcome of
  `publish_succeeded` for an own transfer. -/
  | receive (envelope : MlsRelayMessage) (recovers saves : Bool)
  /-- `process_incoming`: what the library makes of the ciphertext, if it takes it. Authenticated
  data that do not parse are `none`. -/
  | process (incoming : Option (Option (Option AuthenticatedData × String)))
  /-- The checks, and `finish_incoming`. `group` is what `group_snapshot` returns. -/
  | finish (group : Option HostGroupState) (saves : Bool)
  | updateRoom (room : RoomRecord)
  /-- An own transfer is staged and queued. -/
  | stage (id : String)
  /-- An own transfer is published and acknowledged outside of the room's log. -/
  | acknowledge (id : String)
  /-- The process stops. -/
  | crash

inductive RoomLogEvent where
  | started
  | startFailed (error : ChatError)
  /-- The MLS state has taken a ciphertext. -/
  | applied (ciphertext : String)
  /-- The MLS state has merged a staged transfer. -/
  | transferred (id : String)
  | projected (envelope : MlsRelayMessage) (event : ProjectedEvent)
  | saveFailed
  | returned (envelope : MlsRelayMessage) (result : Except ChatError (Option ProjectedEvent))
  | crashed
  deriving DecidableEq

namespace RoomClient

variable (size : RoomRecoveryState → ℕ) (parse : String → String → Option RoomEvent)
  (c : RoomClient)

/-- The recovery state that a session starts from. -/
def savedRecovery : RoomRecoveryState := c.saved.getD {}

def start (room : RoomRecord) (valid : Bool) : RoomClient × List RoomLogEvent :=
  if c.session.isSome then (c, [])
  else if !valid then (c, [.startFailed .invalidRecoveryState])
  else if c.savedRecovery.pendingEnvelopeId.isSome then (c, [.startFailed .recoveryInterrupted])
  else ({ c with session := some { room, recovery := c.savedRecovery } }, [.started])

/-- `open_room_event` returns. -/
def returns (envelope : MlsRelayMessage) (result : Except ChatError (Option ProjectedEvent)) :
    RoomClient × List RoomLogEvent :=
  ({ c with session := c.session.map fun session ↦ { session with at_ := .idle } },
    [.returned envelope result])

/-- `persist_recovery`, and what follows a save that succeeds. The state in memory is cut to what
fits before it is saved. -/
def persistThen (session : RoomSession) (saves : Bool) (envelope : MlsRelayMessage)
    (next : RoomClient → RoomClient × List RoomLogEvent) : RoomClient × List RoomLogEvent :=
  match session.recovery.fit size session.recovery.history with
  | none =>
    let emptied := { session.recovery with history := [] }
    let (c', events) := { c with session := some { session with recovery := emptied } }.returns
      envelope (.error .invalidRecoveryState)
    (c', .saveFailed :: events)
  | some recovery =>
    let kept := some { session with recovery }
    if saves then next { c with session := kept, saved := some recovery }
    else
      let (c', events) := { c with session := kept }.returns envelope (.error .mls)
      (c', .saveFailed :: events)

/-- The end of `open_room_event`: `recovery` remembers the envelope, and `forgets` what it has
dropped for it. -/
def conclude (session : RoomSession) (recovery : RoomRecoveryState) (forgets : List String)
    (envelope : MlsRelayMessage) (projected : Option ProjectedEvent) (saves : Bool) :
    RoomClient × List RoomLogEvent :=
  c.persistThen size { session with recovery } saves envelope fun c' ↦
    let (c'', events) := { c' with forgotten := c'.forgotten ++ forgets }.returns envelope
      (.ok projected)
    (c'', (projected.map (RoomLogEvent.projected envelope)).toList ++ events)

/-- An envelope of this device. -/
def isOwn (envelope : MlsRelayMessage) : Bool :=
  envelope.senderUserId = c.userId && envelope.senderDeviceId = c.deviceId

/-- How `open_room_event` goes on after its guards. -/
inductive Route where
  | skips
  | rejects (error : ChatError)
  | ownTransfer
  | ownEcho
  | begins
  deriving DecidableEq

/-- The guards of `open_room_event`, the last one that of `begin_incoming`. An envelope is a Commit
or an application message. -/
@[grind =] def route (session : RoomSession) (envelope : MlsRelayMessage) : Route :=
  if envelope.teamId ≠ session.room.teamId || envelope.roomId ≠ session.room.id then .skips
  else if session.recovery.processed envelope.id then .skips
  else if !validEnvelopeId envelope.id then .rejects .invalidEncryptedMessage
  else if c.isOwn envelope then
    if envelope.commitEffect.isSome then .ownTransfer else .ownEcho
  else if !Text.isCanonicalBase64 envelope.mlsMessage then .rejects .invalidEncryptedMessage
  else if session.recovery.pendingEnvelopeId.isSome then .rejects .recoveryInterrupted
  else .begins

/-- `recover_exact_local_host_transfer`: a transfer that is still queued is applied. -/
def recoverExact (session : RoomSession) (envelope : MlsRelayMessage) (recovers : Bool) :
    RoomClient × List RoomLogEvent :=
  let recovered := some { session with at_ := .recovered envelope }
  if envelope.id ∈ c.mls.pending then
    if recovers then
      ({ c with
          mls := { c.mls with pending := c.mls.pending.erase envelope.id }
          session := recovered },
        [.transferred envelope.id])
    else c.returns envelope (.error .mls)
  else ({ c with session := recovered }, [])

/-- `begin_incoming`. -/
def begin (session : RoomSession) (envelope : MlsRelayMessage) (saves : Bool) :
    RoomClient × List RoomLogEvent :=
  c.persistThen size { session with recovery := session.recovery.mark envelope.id } saves envelope
    fun c' ↦ ({ c' with session := c'.session.map fun session ↦
      { session with at_ := .begun envelope } }, [])

@[grind =] def receive (envelope : MlsRelayMessage) (recovers saves : Bool) :
    RoomClient × List RoomLogEvent :=
  match c.session with
  | none => (c, [])
  | some session =>
    if session.at_ ≠ .idle then (c, [])
    else
      match c.route session envelope with
      | .skips => c.returns envelope (.ok none)
      | .rejects error => c.returns envelope (.error error)
      | .ownTransfer => c.recoverExact session envelope recovers
      | .ownEcho =>
        c.conclude size session (session.recovery.remember envelope.id none)
          (session.recovery.dropped envelope.id) envelope none saves
      | .begins => c.begin size session envelope saves

/-- What `process_incoming` of the client makes of what the library says: a message with
authenticated data that do not parse is an error, after the library has taken it. -/
def openedOf : Option (Option AuthenticatedData × String) →
    Except ChatError (Option OpenedApplication)
  | none => .ok none
  | some (some authenticatedData, payload) => .ok (some { authenticatedData, payload })
  | some (none, _) => .error .mls

def process (incoming : Option (Option (Option AuthenticatedData × String))) :
    RoomClient × List RoomLogEvent :=
  match c.session with
  | none => (c, [])
  | some session =>
    match session.at_, incoming with
    | .begun envelope, none => c.returns envelope (.error .mls)
    | .begun envelope, some message =>
      if envelope.mlsMessage ∈ c.mls.applied then c.returns envelope (.error .mls)
      else
        let c' := { c with mls := { c.mls with applied := c.mls.applied ++ [envelope.mlsMessage] } }
        match openedOf message with
        | .ok opened =>
          ({ c' with session := some { session with at_ := .processed envelope opened } },
            [.applied envelope.mlsMessage])
        | .error error =>
          let (c'', events) := c'.returns envelope (.error error)
          (c'', .applied envelope.mlsMessage :: events)
    | _, _ => (c, [])

/-- `envelope_from_active_host`. -/
def fromActiveHost (room : RoomRecord) (envelope : MlsRelayMessage) : Bool :=
  room.hostUserId = some envelope.senderUserId &&
    room.activeHostDeviceId = some envelope.senderDeviceId && room.hostStatus = .active

/-- `recover_host_transfer`, with the offers after it. An offer that is accepted has a candidate, so
the ids that the authorization names are not empty. -/
def recoverTransfer (handoffs : HandoffState) (envelope : MlsRelayMessage)
    (group : Option HostGroupState) : Except ChatError (ProjectedEvent × HandoffState) :=
  match envelope.hostTransferAuthorization, group with
  | none, _ => .error .invalidEncryptedMessage
  | some _, none => .error .mls
  | some auth, some group =>
    match handoffs.recoverHostTransfer envelope group with
    | (false, _) => .error .invalidEncryptedMessage
    | (true, handoffs) =>
      if h : auth.nextHostUserId ≠ "" ∧ auth.nextHostDeviceId ≠ "" then
        .ok (.hostHandoffAccepted
          { offerId := auth.transferId
            host := { userId := ⟨_, h.1⟩, deviceId := ⟨_, h.2⟩, leaf := auth.nextHostLeaf } },
          handoffs)
      else .error .invalidEncryptedMessage

/-- The authenticated data are those of the envelope. -/
def authenticates (data : AuthenticatedData) (envelope : MlsRelayMessage) : Bool :=
  data.version = 1 && data.epoch = envelope.epochHint && data.messageId = envelope.id &&
    data.teamId = envelope.teamId && data.roomId = envelope.roomId &&
    data.senderUserId = envelope.senderUserId && data.senderDeviceId = envelope.senderDeviceId &&
    data.createdAt = envelope.createdAt

/-- What a room event comes to for its sender, or none if the sender may not say it. -/
def project (room : RoomRecord) (handoffs : HandoffState) (envelope : MlsRelayMessage)
    (data : AuthenticatedData) : RoomEvent → Option (ProjectedEvent × HandoffState)
  | .chatMessage chat =>
    if chat.authorUserId = data.senderUserId &&
        (chat.role = .human || fromActiveHost room envelope) then
      some (.chat chat, handoffs)
    else none
  | .codexQueue proposal =>
    if proposal.queueEventId = data.messageId &&
        ((proposal.queued && proposal.requestedByUserId = data.senderUserId) ||
          (!proposal.queued && fromActiveHost room envelope)) then
      some (.codexProposal proposal, handoffs)
    else none
  | .codexEvent turn =>
    if fromActiveHost room envelope then some (.codexTurn turn, handoffs) else none
  | .codexActivity activity =>
    if fromActiveHost room envelope then some (.codexActivity activity, handoffs) else none
  | .hostHandoff offer =>
    if fromActiveHost room envelope && offer.fromUserId = envelope.senderUserId then
      some (.hostHandoff offer, handoffs.rememberOffer offer)
    else none
  | .hostHandoffRequest request =>
    if request.candidate.userId.1 = envelope.senderUserId &&
        request.candidate.deviceId.1 = envelope.senderDeviceId then
      match handoffs.requestCandidate request with
      | (true, handoffs) => some (.hostHandoffRequest request, handoffs)
      | (false, _) => none
    else none
  | .hostHandoffAccepted accepted =>
    match handoffs.acceptInformational accepted envelope.senderUserId envelope.createdAt with
    | (true, handoffs) => some (.hostHandoffAccepted accepted, handoffs)
    | (false, _) => none
  | .unsupported kind => some (.unsupported kind, handoffs)
  | .other => some (.unsupported data.kind, handoffs)

/-- The checks between `process_incoming` and `finish_incoming`: what is projected, and the offers
after it. -/
def projection (room : RoomRecord) (handoffs : HandoffState) (envelope : MlsRelayMessage)
    (opened : Option OpenedApplication) (group : Option HostGroupState) :
    Except ChatError (Option ProjectedEvent × HandoffState) :=
  match envelope.messageType, opened with
  | .commit, _ =>
    if envelope.commitEffect.isSome then
      (recoverTransfer handoffs envelope group).map fun (event, handoffs) ↦ (some event, handoffs)
    else .ok (none, handoffs)
  | .application, none => .ok (none, handoffs)
  | .application, some opened =>
    match (if authenticates opened.authenticatedData envelope then
        (parse opened.authenticatedData.kind opened.payload).bind
          (project room handoffs envelope opened.authenticatedData)
      else none) with
    | some (event, handoffs) => .ok (some event, handoffs)
    | none => .error .invalidEncryptedMessage

/-- The state that `finish_incoming` saves: the envelope is remembered and the mark is gone. -/
def finished (recovery : RoomRecoveryState) (handoffs : HandoffState) (envelope : MlsRelayMessage)
    (projected : Option ProjectedEvent) : RoomRecoveryState :=
  { { recovery with handoffs }.remember envelope.id projected with pendingEnvelopeId := none }

def finish (group : Option HostGroupState) (saves : Bool) : RoomClient × List RoomLogEvent :=
  match c.session with
  | none => (c, [])
  | some session =>
    match session.at_ with
    | .processed envelope opened =>
      match projection parse session.room session.recovery.handoffs envelope opened group with
      | .error error => c.returns envelope (.error error)
      | .ok (projected, handoffs) =>
        if session.recovery.pendingEnvelopeId ≠ some envelope.id then
          c.returns envelope (.error .recoveryInterrupted)
        else
          c.conclude size session (finished session.recovery handoffs envelope projected)
            (session.recovery.dropped envelope.id) envelope projected saves
    | .recovered envelope =>
      match recoverTransfer session.recovery.handoffs envelope group with
      | .error error => c.returns envelope (.error error)
      | .ok (event, handoffs) =>
        c.conclude size session ({ session.recovery with handoffs }.remember envelope.id (some event))
          (session.recovery.dropped envelope.id) envelope (some event) saves
    | .idle | .begun _ => (c, [])

def updateRoom (room : RoomRecord) : RoomClient × List RoomLogEvent :=
  match c.session with
  | none => (c, [])
  | some session =>
    if session.at_ = .idle && room.id = session.room.id && room.teamId = session.room.teamId then
      ({ c with session := some { session with room } }, [])
    else (c, [])

/-- Ids of transfers are digests, so that none is staged twice. -/
def stage (id : String) : RoomClient × List RoomLogEvent :=
  if id ∈ c.mls.staged then (c, [])
  else ({ c with mls := { c.mls with
    staged := c.mls.staged ++ [id], pending := c.mls.pending ++ [id] } }, [])

def acknowledge (id : String) : RoomClient × List RoomLogEvent :=
  if id ∈ c.mls.pending then
    ({ c with mls := { c.mls with pending := c.mls.pending.erase id } }, [.transferred id])
  else (c, [])

@[grind =] def step (c : RoomClient) : RoomAction → RoomClient × List RoomLogEvent
  | .start room valid => c.start room valid
  | .receive envelope recovers saves => c.receive size envelope recovers saves
  | .process incoming => c.process incoming
  | .finish group saves => c.finish size parse group saves
  | .updateRoom room => c.updateRoom room
  | .stage id => c.stage id
  | .acknowledge id => c.acknowledge id
  | .crash => ({ c with session := none }, [.crashed])

end RoomClient

end MultAIplayer.Cli
