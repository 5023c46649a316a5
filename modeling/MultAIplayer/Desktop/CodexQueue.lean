import MultAIplayer.Desktop.CodexRuntime
import MultAIplayer.Lib.JsonDecode
import MultAIplayer.Protocol.RelayMessages

/-!
# Codex queue events

What a replica does with a `codex.queue` event of another member (`routeActivityMessage.ts`): the
schema, the check of the requester against the authenticated sender, and the reducers.

## Whose turn an event may touch

`Respects` says what an event of a member may do to a room's runtime: take or change only that
member's turns and approval, unless the member is the active host, and clear an approval only when
it is the one that the event names. An event that announces a turn always respects it
(`respects_enqueue`). An event that takes a turn out of the queue does exactly when it takes its own
(`applyTo_respects_iff`): the handler compares the turn id and nothing else, and it
clears the pending approval without looking at it.
-/

namespace MultAIplayer.Desktop

/-! ### The event and its schema -/

def maxShortTextChars : ℕ := 512
def maxMediumTextChars : ℕ := 4096
def maxLongTextChars : ℕ := 120000

inductive CodexQueueAction
  | queued
  | cancelled
  | coalesced
  | promoted
  | dropped
  deriving DecidableEq

def CodexQueueAction.text : CodexQueueAction → String
  | .queued => "queued"
  | .cancelled => "cancelled"
  | .coalesced => "coalesced"
  | .promoted => "promoted"
  | .dropped => "dropped"

/-- `event.action === "queued" || event.action === "promoted"`. -/
def CodexQueueAction.announces : CodexQueueAction → Bool
  | .queued => true
  | .promoted => true
  | _ => false

structure CodexQueuePlaintextPayload where
  queueEventId : String
  turnId : String
  action : CodexQueueAction
  requestedBy : String
  requestedByUserId : String
  triggerMessageId : Option String := none
  reason : Option String := none
  queuePosition : Option ℕ := none
  queueSize : ℕ
  createdAt : String
  deriving DecidableEq

/-- `z.string().datetime()`. -/
def datetime? : Json → Option String
  | .str s => if (IsoDate.parse s).isSome then some s else none
  | _ => none

namespace CodexQueuePlaintextPayload

def actions : List (String × CodexQueueAction) :=
  [CodexQueueAction.queued, .cancelled, .coalesced, .promoted, .dropped].map fun a ↦ (a.text, a)

/-- The schema `CodexQueuePlaintextPayload`; the last line is its refinement. -/
def safeParse (v : Json) : Option CodexQueuePlaintextPayload := do
  let _ ← Json.required (Json.literal? [("codex.queue", ())]) "eventType" v
  let queueEventId ← Json.required (Json.string? 1 maxEnvelopeIdChars) "queueEventId" v
  let turnId ← Json.required (Json.string? 1 maxEnvelopeIdChars) "turnId" v
  let action ← Json.required (Json.literal? actions) "action" v
  let requestedBy ← Json.required (Json.string? 1 maxDisplayNameChars) "requestedBy" v
  let requestedByUserId ← Json.required (Json.string? 1 maxUserIdChars) "requestedByUserId" v
  let triggerMessageId ← Json.optional (Json.string? 1 maxEnvelopeIdChars) "triggerMessageId" v
  let reason ← Json.optional (Json.string? 0 maxMediumTextChars) "reason" v
  let queuePosition ← Json.optional (Json.int? 1 maxCodexQueueSize) "queuePosition" v
  let queueSize ← Json.required (Json.int? 0 maxCodexQueueSize) "queueSize" v
  let createdAt ← Json.required datetime? "createdAt" v
  if action.announces && queuePosition.isNone then none
  else some { queueEventId, turnId, action, requestedBy, requestedByUserId, triggerMessageId,
              reason, queuePosition, queueSize, createdAt }

end CodexQueuePlaintextPayload

/-! ### Routing -/

/-- A relay message with the kind that MLS authenticated. -/
structure RoutedMlsMessage extends MlsRelayMessage where
  kind : String
  deriving DecidableEq

/-- What the routing of Codex messages reads and writes. -/
structure AppStoreState where
  rooms : List RoomRecord
  codexRuntimeByRoom : CodexRuntimeByRoom := fun _ ↦ {}
  hostMessageByRoom : String → Option String := fun _ ↦ none

namespace AppStoreState

variable (store : AppStoreState)

/-- An empty message removes the key. -/
def setHostMessageForRoom (roomId message : String) : AppStoreState :=
  { store with
    hostMessageByRoom := fun r ↦
      if r = roomId then (if message = "" then none else some message)
      else store.hostMessageByRoom r }

def updateCodexRuntime (roomId : String) (update : CodexRuntimeRoomState → CodexRuntimeRoomState) :
    AppStoreState :=
  { store with
    codexRuntimeByRoom := updateCodexRuntimeForRoom store.codexRuntimeByRoom roomId update }

def findEnvelopeRoom (roomId : String) : Option RoomRecord :=
  store.rooms.find? (·.id = roomId)

end AppStoreState

/-- `isEnvelopeFromActiveRoomHost`; an empty host id counts as none. -/
def isEnvelopeFromActiveRoomHost (room : Option RoomRecord) (envelope : RoutedMlsMessage) : Bool :=
  room.any fun r ↦ r.hostStatus = .active && r.hostUserId = some envelope.senderUserId &&
    r.activeHostDeviceId = some envelope.senderDeviceId && envelope.senderUserId ≠ "" &&
    envelope.senderDeviceId ≠ ""

def isAuthoritativeHostEnvelope (envelope : RoutedMlsMessage) (store : AppStoreState) : Bool :=
  isEnvelopeFromActiveRoomHost (store.findEnvelopeRoom envelope.roomId) envelope

/-- `plaintextUserMatchesEnvelope`. -/
def plaintextUserMatchesEnvelope (envelope : RoutedMlsMessage) (plaintextUserId : String) : Bool :=
  plaintextUserId = envelope.senderUserId

/-- The turn that an announcement puts into the queue. -/
def CodexQueuePlaintextPayload.turn (event : CodexQueuePlaintextPayload) (roomId : String) :
    QueuedCodexTurn where
  roomId := roomId
  turnId := event.turnId
  requestedBy := event.requestedBy
  requestedByUserId := event.requestedByUserId
  queuedAt := event.createdAt
  triggerMessageId := event.triggerMessageId

/-- The reducers that an event runs on its room's runtime. -/
def CodexQueuePlaintextPayload.applyTo (event : CodexQueuePlaintextPayload) (roomId : String)
    (runtime : CodexRuntimeRoomState) : CodexRuntimeRoomState :=
  if event.action.announces then runtime.enqueueCodexApproval (event.turn roomId)
  else ((runtime.removeQueuedCodexApproval event.turnId).setPendingCodexApproval none)
    |>.setApprovalVisible false

/-- The message about an event that the room shows. -/
def CodexQueuePlaintextPayload.hostMessage (event : CodexQueuePlaintextPayload) : String :=
  if event.action.announces then event.requestedBy ++ " proposed a Codex turn for host approval."
  else event.reason.getD (event.requestedBy ++ "'s Codex turn was " ++ event.action.text ++ ".")

def handleCodexQueueEvent (event : CodexQueuePlaintextPayload) (roomId : String)
    (store : AppStoreState) : AppStoreState :=
  (store.updateCodexRuntime roomId (event.applyTo roomId)).setHostMessageForRoom roomId
    event.hostMessage

/-- The event that a plaintext carries, when the schema accepts it and the sender is its
requester. -/
def acceptedQueueEvent (envelope : RoutedMlsMessage) (plaintext : Json) :
    Option CodexQueuePlaintextPayload :=
  (CodexQueuePlaintextPayload.safeParse plaintext).filter fun event ↦
    plaintextUserMatchesEnvelope envelope event.requestedByUserId

/-- The branch of `routeCodexActivity` for the kind `codex.queue`; a plaintext that does not decode
throws before anything happens. -/
def routeCodexQueue (envelope : RoutedMlsMessage) (store : AppStoreState)
    (decrypt : Option Json) : AppStoreState :=
  match decrypt.bind (acceptedQueueEvent envelope) with
  | some event => handleCodexQueueEvent event envelope.roomId store
  | none => store

theorem routeCodexQueue_of_accepted {envelope : RoutedMlsMessage} {store : AppStoreState}
    {decrypt : Option Json} {event : CodexQueuePlaintextPayload}
    (h : decrypt.bind (acceptedQueueEvent envelope) = some event) :
    routeCodexQueue envelope store decrypt =
      handleCodexQueueEvent event envelope.roomId store := by
  unfold routeCodexQueue
  rw [h]

@[simp] theorem handleCodexQueueEvent_runtime (event : CodexQueuePlaintextPayload)
    (roomId : String) (store : AppStoreState) :
    (handleCodexQueueEvent event roomId store).codexRuntimeByRoom roomId =
      event.applyTo roomId (store.codexRuntimeByRoom roomId) :=
  updateCodexRuntimeForRoom_self _ _ _

theorem handleCodexQueueEvent_runtime_of_ne {event : CodexQueuePlaintextPayload}
    {roomId r : String} {store : AppStoreState} (h : r ≠ roomId) :
    (handleCodexQueueEvent event roomId store).codexRuntimeByRoom r =
      store.codexRuntimeByRoom r :=
  updateCodexRuntimeForRoom_of_ne h

/-! ### Whose turns and approvals an event touches -/

/-- What an event of a member that names a turn may do to a room's runtime. -/
structure Respects (host : Prop) (userId turnId : String)
    (before after : CodexRuntimeRoomState) : Prop where
  /-- Turns of others stay, in their order and with their requesters. -/
  turns : host ∨ after.queuedApprovals.ofOthers userId = before.queuedApprovals.ofOthers userId
  /-- No approval is put in place. -/
  not_set : ∀ p, after.pendingApproval = some p → before.pendingApproval = some p
  /-- Only the approval of the named turn is cleared. -/
  cleared : ∀ p, before.pendingApproval = some p → after.pendingApproval = none →
    p.turnId = turnId
  /-- The approval of another member's turn stays in place and in view. -/
  kept : host ∨ ∀ p, before.pendingApproval = some p → p.requestedByUserId ≠ userId →
    after.pendingApproval = some p ∧ after.approvalVisible = before.approvalVisible

theorem Respects.refl (host : Prop) (userId turnId : String) (runtime : CodexRuntimeRoomState) :
    Respects host userId turnId runtime runtime where
  turns := .inr rfl
  not_set _ h := h
  cleared p hp hnone := by rw [hp] at hnone; cases hnone
  kept := .inr fun _ hp _ ↦ ⟨hp, rfl⟩

/-- A member that announces a turn touches nobody else's. -/
theorem respects_enqueue {host : Prop} {userId : String} {runtime : CodexRuntimeRoomState}
    {turn : QueuedCodexTurn} (hown : turn.requestedByUserId = userId) :
    Respects host userId turn.turnId runtime (runtime.enqueueCodexApproval turn) := by
  unfold CodexRuntimeRoomState.enqueueCodexApproval
  split
  · exact .refl _ _ _ _
  · exact
      { turns := .inr (TurnQueue.ofOthers_enqueue hown)
        not_set := fun _ h ↦ h
        cleared := fun p hp hnone ↦ by
          rw [show runtime.pendingApproval = none from hnone] at hp
          cases hp
        kept := .inr fun _ hp _ ↦ ⟨hp, rfl⟩ }

/-- What a removal needs, on top of the turn id that the handler compares. -/
def TakesItsOwn (host : Prop) (event : CodexQueuePlaintextPayload)
    (runtime : CodexRuntimeRoomState) : Prop :=
  (host ∨ ∀ t ∈ runtime.queuedApprovals.turns, t.turnId = event.turnId →
    t.requestedByUserId = event.requestedByUserId) ∧
  ∀ p, runtime.pendingApproval = some p → p.turnId = event.turnId ∧
    (host ∨ p.requestedByUserId = event.requestedByUserId)

/-- **When an event respects the others.** An announcement always does; a removal exactly when the
turn it names and the approval that is pending are the sender's to take. -/
theorem applyTo_respects_iff {host : Prop} (event : CodexQueuePlaintextPayload) (roomId : String)
    (runtime : CodexRuntimeRoomState) :
    Respects host event.requestedByUserId event.turnId runtime (event.applyTo roomId runtime) ↔
      (event.action.announces = false → TakesItsOwn host event runtime) := by
  unfold CodexQueuePlaintextPayload.applyTo
  cases hact : event.action.announces with
  | true =>
    rw [if_pos rfl]
    have hown : (event.turn roomId).requestedByUserId = event.requestedByUserId := rfl
    exact iff_of_true (respects_enqueue hown) nofun
  | false =>
    rw [if_neg (by decide)]
    constructor
    · intro h _
      refine ⟨h.turns.imp_right TurnQueue.ofOthers_remove_eq_iff.mp, fun p hp ↦
        ⟨h.cleared p hp rfl, ?_⟩⟩
      refine h.kept.imp_right fun hkept ↦ ?_
      by_contra hother
      exact nomatch (hkept p hp hother).1
    · intro h
      obtain ⟨hturns, hpending⟩ := h rfl
      refine
        { turns := hturns.imp_right TurnQueue.ofOthers_remove_eq_iff.mpr
          not_set := nofun
          cleared := fun p hp _ ↦ (hpending p hp).1
          kept := ?_ }
      rcases Classical.em host with hhost | hmember
      · exact .inl hhost
      · refine .inr fun p hp hother ↦ ?_
        exact absurd ((hpending p hp).2.resolve_left hmember) hother

/-- What the routing of one plaintext may do to a replica. -/
def RespectsOthers (envelope : RoutedMlsMessage) (decrypt : Option Json)
    (before after : AppStoreState) : Prop :=
  (∀ event, decrypt.bind (acceptedQueueEvent envelope) = some event →
    Respects (isAuthoritativeHostEnvelope envelope before = true) envelope.senderUserId event.turnId
      (before.codexRuntimeByRoom envelope.roomId) (after.codexRuntimeByRoom envelope.roomId)) ∧
  (decrypt.bind (acceptedQueueEvent envelope) = none → after = before) ∧
  ∀ roomId ≠ envelope.roomId, after.codexRuntimeByRoom roomId = before.codexRuntimeByRoom roomId

theorem acceptedQueueEvent_user {envelope : RoutedMlsMessage} {decrypt : Option Json}
    {event : CodexQueuePlaintextPayload}
    (h : decrypt.bind (acceptedQueueEvent envelope) = some event) :
    event.requestedByUserId = envelope.senderUserId := by
  obtain ⟨plaintext, -, haccepted⟩ := Option.bind_eq_some_iff.mp h
  exact of_decide_eq_true (Option.filter_eq_some_iff.mp haccepted).2

/-- A room that Hana hosts, in which Alice's first turn awaits approval and her second one is
queued. -/
def aliceWaits : AppStoreState where
  rooms := [{ id := "room", teamId := "team", name := "Room", host := "Hana",
              hostUserId := some "github:hana", activeHostDeviceId := some "hana-device",
              hostStatus := .active, approvalPolicy := .askEveryTurn }]
  codexRuntimeByRoom := fun _ ↦
    { approvalVisible := true
      pendingApproval := some
        { turnId := "turn-1", roomId := "room", requestedBy := "Alice",
          requestedByUserId := "github:alice", queuedAt := "2026-01-01T00:00:00.000Z" }
      queuedApprovals := TurnQueue.empty.enqueue
        { turnId := "turn-2", roomId := "room", requestedBy := "Alice",
          requestedByUserId := "github:alice", queuedAt := "2026-01-01T00:00:01.000Z" } }

/-- A queue event that Mallory sends and MLS authenticates as Mallory's. -/
def fromMallory : RoutedMlsMessage where
  id := "message-1"
  teamId := "team"
  roomId := "room"
  senderDeviceId := "mallory-device"
  senderUserId := "github:mallory"
  createdAt := "2026-01-01T00:00:02.000Z"
  messageType := .application
  epochHint := 1
  mlsMessage := "AAAA"
  kind := "codex.queue"

/-- Mallory cancels a turn that is not hers. -/
def mallorysCancellation : Json :=
  .obj (Json.fields [("eventType", some (.str "codex.queue")), ("queueEventId", some (.str "q-1")),
    ("turnId", some (.str "turn-2")), ("action", some (.str "cancelled")),
    ("requestedBy", some (.str "Mallory")), ("requestedByUserId", some (.str "github:mallory")),
    ("queueSize", some (.num 0)), ("createdAt", some (.str "2026-01-01T00:00:02.000Z"))])

/-- The event that the schema reads from it. -/
def mallorysEvent : CodexQueuePlaintextPayload where
  queueEventId := "q-1"
  turnId := "turn-2"
  action := .cancelled
  requestedBy := "Mallory"
  requestedByUserId := "github:mallory"
  queueSize := 0
  createdAt := "2026-01-01T00:00:02.000Z"

theorem acceptedQueueEvent_mallorysCancellation :
    (some mallorysCancellation).bind (acceptedQueueEvent fromMallory) = some mallorysEvent := by
  decide

end MultAIplayer.Desktop
