import MultAIplayer.Lib.Machine
import MultAIplayer.Mls.HostedGroup
import MultAIplayer.Relay.AcceptedEpochs

/-!
# The host's outbox and the relay's epoch window

A desktop drains the MLS outbox of a room into the relay (`mlsOutboxDrain.ts`): it lists the items,
makes a relay message of each, publishes it and tells the engine of the answer. The relay accepts an
application message only up to two epochs behind the Commits that it has accepted, and the desktop
drops a message that it refuses as expired.

The machine is the host of one room: its engine with every call and failure, what it has listed and
sent, and the relay with its other requests. A message that was sent may arrive late, twice, out of
order or never, and may come from a listing that the outbox has since left behind, so that the order
of the drain is one of the orders of a run. While the device stays the host, none of the application
messages that it holds is ever outside the window (`held_application_within_window`).
-/

namespace MultAIplayer

open Mls

/-! ### From the outbox to the relay -/

/-- What the drain asks of the platform. -/
structure DrainPlatform where
  /-- `parseMlsAuthenticatedData(decodeUtf8(bytes))`. -/
  parseMlsAuthenticatedData : Bytes → Option ApplicationAuthenticatedData
  /-- How the native side encodes a payload. -/
  base64 : Bytes → String
  /-- `sign_host_transfer`: signature and public key, or nothing when it fails. -/
  signHostTransfer : HostTransferAuthorizationPayload → Option (String × String)

/-- The room and the device that the drain publishes for. -/
structure DrainIdentity where
  teamId : String
  userId : String
  deviceId : String
  deriving DecidableEq

/-- The items that `publishDirectedOutboxItem` delivers itself. -/
def Mls.OutboxItem.isDirected (item : OutboxItem) : Bool :=
  match item.metadata with
  | some (.welcome _) | some (.inviteResponse _ _) => true
  | _ => false

/-- `host_transfer_authorization`, or nothing when it fails. -/
def Mls.Engine.hostTransferAuthorization {K : Type} (e : Engine K) (roomId commitMessageId : String) :
    Option HostTransferAuthorizationPayload :=
  if !validRoom roomId then none
  else
    match e.outbox.get commitMessageId with
    | none => none
    | some item =>
      if item.roomId != roomId || item.kind != .handoff then none
      else
        match item.metadata with
        | some (.hostTransfer authorization) =>
          if authorization.roomId != roomId || authorization.commitMessageId != commitMessageId ||
              authorization.parentEpoch + 1 != item.epoch ||
              authorization.outgoingHostUserId != e.selfUserId ||
              authorization.outgoingHostDeviceId != e.selfDeviceId then none
          else some authorization
        | _ => none

namespace DrainPlatform

variable (D : DrainPlatform) {K : Type} (e : Engine K) (identity : DrainIdentity)

/-- `authorizeMlsHostTransfer`. -/
def authorizeMlsHostTransfer (roomId commitMessageId : String) :
    Option HostTransferAuthorization :=
  (e.hostTransferAuthorization roomId commitMessageId).bind fun authorization ↦
    (D.signHostTransfer authorization).map fun (signatureDer, publicKeySpkiDer) ↦
      { authorization with signatureDer, publicKeySpkiDer }

/-- `applicationRelayMessage`, `none` when it throws. -/
@[grind =]
def applicationRelayMessage (item : OutboxItem) (roomId : String) (authenticatedData : Bytes) :
    Option MlsRelayMessage :=
  match D.parseMlsAuthenticatedData authenticatedData with
  | none => none
  | some data =>
    if data.messageId != item.id || data.roomId != roomId then none
    else some
      { id := item.id
        teamId := data.teamId
        roomId := data.roomId
        senderUserId := data.senderUserId
        senderDeviceId := data.senderDeviceId
        createdAt := data.createdAt
        messageType := .application
        epochHint := data.epoch
        mlsMessage := D.base64 item.payload }

/-- The Commit that `relayMessageForOutboxItem` makes of an item. -/
def commitRelayMessage (item : OutboxItem) (roomId createdAt : String) : MlsRelayMessage where
  id := item.id
  teamId := identity.teamId
  roomId := roomId
  senderUserId := identity.userId
  senderDeviceId := identity.deviceId
  createdAt := createdAt
  messageType := .commit
  epochHint := item.parentEpoch
  mlsMessage := D.base64 item.payload

/-- `relayMessageForOutboxItem`, `none` when it throws. -/
@[grind =] def relayMessageForOutboxItem (item : OutboxItem) (roomId createdAt : String) :
    Option MlsRelayMessage :=
  match item.metadata with
  | some (.application authenticatedData) => D.applicationRelayMessage item roomId authenticatedData
  | some (.hostTransfer _) =>
    (D.authorizeMlsHostTransfer e roomId item.id).map fun transfer ↦
      { D.commitRelayMessage identity item roomId createdAt with
        commitEffect := some .hostHandoff
        nextHostUserId := some transfer.nextHostUserId
        nextHostDeviceId := some transfer.nextHostDeviceId
        hostTransferAuthorization := some transfer }
  | _ => some (D.commitRelayMessage identity item roomId createdAt)

variable {D e identity} {item : OutboxItem} {roomId createdAt : String} {message : MlsRelayMessage}

theorem relayMessage_roomId
    (h : D.relayMessageForOutboxItem e identity item roomId createdAt = some message) :
    message.roomId = roomId := by
  unfold relayMessageForOutboxItem at h
  split at h
  · unfold applicationRelayMessage at h
    split at h
    · cases h
    · split at h
      · cases h
      · rename_i hdata
        cases h
        simp only [Bool.or_eq_true, bne_iff_ne, not_or, not_not] at hdata
        exact hdata.2
  · obtain ⟨transfer, -, rfl⟩ := Option.map_eq_some_iff.mp h
    rfl
  · cases h
    rfl

/-- A Commit names the epoch that its item is built on. -/
theorem relayMessage_commit
    (h : D.relayMessageForOutboxItem e identity item roomId createdAt = some message)
    (hcommit : message.messageType = .commit) :
    message.epochHint = item.parentEpoch ∧ ∀ bytes, item.metadata ≠ some (.application bytes) := by
  unfold relayMessageForOutboxItem at h
  split at h
  · unfold applicationRelayMessage at h
    split at h
    · cases h
    · split at h
      · cases h
      · cases h
        cases hcommit
  · rename_i hmetadata
    obtain ⟨transfer, -, rfl⟩ := Option.map_eq_some_iff.mp h
    exact ⟨rfl, fun bytes ↦ by rw [hmetadata]; simp⟩
  · rename_i hmetadata _
    cases h
    exact ⟨rfl, hmetadata⟩

/-- An application message names the epoch in its authenticated data. -/
theorem relayMessage_application {bytes : Bytes} (hmetadata : item.metadata = some (.application bytes))
    (h : D.relayMessageForOutboxItem e identity item roomId createdAt = some message) :
    message.messageType = .application ∧
      ∃ data, D.parseMlsAuthenticatedData bytes = some data ∧ message.epochHint = data.epoch := by
  unfold relayMessageForOutboxItem at h
  rw [hmetadata] at h
  simp only at h
  unfold applicationRelayMessage at h
  split at h
  · cases h
  · rename_i data hdata
    split at h
    · cases h
    · cases h
      exact ⟨rfl, data, hdata, rfl⟩

end DrainPlatform

/-! ### The machine -/

/-- The host of a room, what its drains have listed and sent, and the relay. -/
structure HostedRoom (K : Type) where
  engine : Engine K
  listed : List OutboxItem := []
  sent : List MlsRelayMessage := []
  relay : Coordinator := {}

/-- What can happen. -/
inductive HostedAction
  | call (op : EngineOp) (call : Call)
  /-- A drain lists the outbox. -/
  | list
  /-- A drain sends a listed item of a room, when it is not directed and its message can be made. -/
  | send (index : ℕ) (roomId createdAt : String)
  /-- The relay handles a publish frame. -/
  | publish (message : MlsRelayMessage) (now : Instant) (fault : WriteFault)
      (fits remainsAuthorized : Bool)
  /-- The relay handles another request. -/
  | request (request : Request) (now : Instant) (fault : WriteFault)
      (session : Option AuthSession) (deviceSessions : InsertionMap String DeviceSessionRecord)
      (deviceSessionToken : Option String)
  /-- The relay is started again, with what it loads. -/
  | startRelay (relay : Coordinator)

/-- What the host and the relay run on. -/
structure HostedWorld (K : Type) where
  lib : Libraries K
  drain : DrainPlatform
  platform : Platform
  identity : DrainIdentity

namespace HostedRoom

variable {K : Type} (W : HostedWorld K) (s : HostedRoom K)

/-- Handle a request in one step, since a save returns or throws at once. -/
def handleRequest (request : Request) (now : Instant) (fault : WriteFault)
    (session : Option AuthSession) (deviceSessions : InsertionMap String DeviceSessionRecord)
    (deviceSessionToken : Option String) : Coordinator :=
  match request.handle ⟨W.platform, now, s.relay.store.toRecords, session, deviceSessions,
      deviceSessionToken⟩ with
  | .answer _ => s.relay
  | .commit commit => (s.relay.perform W.platform.config now fault commit.transaction).1

/-- The message that a drain of a room sends for a listed item. -/
def messageOf (index : ℕ) (roomId createdAt : String) : Option MlsRelayMessage :=
  (s.listed[index]?).bind fun item ↦
    if item.roomId != roomId || item.isDirected then none
    else W.drain.relayMessageForOutboxItem s.engine W.identity item roomId createdAt

@[grind =] def step : HostedAction → HostedRoom K × List PublishOutcome
  | .call op call => ({ s with engine := (s.engine.perform W.lib op call).1 }, [])
  | .list => ({ s with listed := s.listed ++ s.engine.outbox.values }, [])
  | .send index roomId createdAt =>
    ({ s with sent := s.sent ++ (s.messageOf W index roomId createdAt).toList }, [])
  | .publish message now fault fits remainsAuthorized =>
    let result := W.platform.publishForRoom now fault fits remainsAuthorized message s.relay
    ({ s with relay := result.1 }, [result.2])
  | .request request now fault session deviceSessions deviceSessionToken =>
    ({ s with
        relay := s.handleRequest W request now fault session deviceSessions deviceSessionToken }, [])
  | .startRelay relay => ({ s with relay }, [])

/-- The device stays the host of a room: for its engine, which neither leaves the room nor joins it,
and for the relay, which takes Commits of the room from this device only. No Commit names the device
as its sender that the device has not sent, and a relay that is started again loads no room that is
further than it was. -/
structure StaysHost (roomId : String) (s : HostedRoom K) (action : HostedAction) : Prop where
  host : HostOf W.lib s.engine roomId
  relayHost : ∀ room, s.relay.store.rooms.get roomId = some room → ∀ userId deviceId,
    room.isActiveHost userId deviceId = true →
      userId = W.identity.userId ∧ deviceId = W.identity.deviceId
  keeps : ∀ op call, action = .call op call → op.keepsRoom s.engine roomId = true
  own : ∀ message now fault fits remainsAuthorized,
    action = .publish message now fault fits remainsAuthorized → message.messageType = .commit →
      message.senderUserId = W.identity.userId → message.senderDeviceId = W.identity.deviceId →
        message ∈ s.sent
  loads : ∀ relay, action = .startRelay relay →
    relay.store.toRecords.RoomsWithin s.relay.store.toRecords

/-! ### The invariant -/

/-- An item that becomes a Commit on the relay. -/
def IsPublishedCommit (item : OutboxItem) : Prop :=
  item.isDirected = false ∧ ∀ bytes, item.metadata ≠ some (.application bytes)

/-- No Commit of the room, listed or sent, is built on a later epoch than a bound, and the relay is at
most one epoch past it. -/
structure CommitsWithin (roomId : String) (s : HostedRoom K) (bound : ℕ) : Prop where
  listed : ∀ item ∈ s.listed, item.roomId = roomId → IsPublishedCommit item →
    item.parentEpoch ≤ bound
  sent : ∀ message ∈ s.sent, message.roomId = roomId → message.messageType = .commit →
    message.epochHint ≤ bound
  accepted : s.relay.store.toRecords.acceptedEpoch roomId ≤ bound + 1

/-- No Commit of the room has been listed or sent, and the relay has accepted none. -/
structure NoCommits (roomId : String) (s : HostedRoom K) : Prop where
  listed : ∀ item ∈ s.listed, item.roomId = roomId → ¬IsPublishedCommit item
  sent : ∀ message ∈ s.sent, message.roomId = roomId → message.messageType ≠ .commit
  accepted : s.relay.store.toRecords.acceptedEpoch roomId = 0

/-- What holds in every state of a device that stays the host: its group is ahead of its Commits and
at most one epoch behind the relay. -/
structure Hosting (roomId : String) (s : HostedRoom K) : Prop where
  engine : Hosted W.lib s.engine roomId
  named : s.relay.store.toRecords.RoomsNamed
  grouped : ∀ st, s.engine.stored.get roomId = some st → s.CommitsWithin roomId st.epoch.number
  ungrouped : s.engine.stored.get roomId = none → s.NoCommits roomId

variable {W s} {roomId : String}

theorem NoCommits.within (h : s.NoCommits roomId) (bound : ℕ) : s.CommitsWithin roomId bound where
  listed := fun item hitem hroom hcommit ↦ (h.listed item hitem hroom hcommit).elim
  sent := fun message hmessage hroom hcommit ↦ (h.sent message hmessage hroom hcommit).elim
  accepted := by
    rw [h.accepted]
    exact Nat.zero_le _

theorem CommitsWithin.mono {bound bound' : ℕ} (h : s.CommitsWithin roomId bound)
    (hle : bound ≤ bound') : s.CommitsWithin roomId bound' where
  listed := fun item hitem hroom hcommit ↦ (h.listed item hitem hroom hcommit).trans hle
  sent := fun message hmessage hroom hcommit ↦ (h.sent message hmessage hroom hcommit).trans hle
  accepted := h.accepted.trans (by omega)

namespace Hosting

/-- A call of the engine. -/
theorem call (h : Hosting W roomId s) (hadvance : EpochsAdvance W.lib.toMlsRs)
    (hhost : HostOf W.lib s.engine roomId) {op : EngineOp}
    (hkeeps : op.keepsRoom s.engine roomId = true) (call : Call) :
    Hosting W roomId { s with engine := (s.engine.perform W.lib op call).1 } := by
  obtain ⟨hengine, hgrows⟩ := h.engine.step hadvance hhost hkeeps
  refine ⟨hengine, h.named, fun st hst ↦ ?_, fun hnone ↦ ?_⟩
  · cases hbefore : s.engine.stored.get roomId with
    | none =>
      have hno := h.ungrouped hbefore
      have hwithin : NoCommits roomId { s with engine := (s.engine.perform W.lib op call).1 } :=
        ⟨hno.listed, hno.sent, hno.accepted⟩
      exact hwithin.within _
    | some before =>
      obtain ⟨after, hafter, hle⟩ := hgrows before hbefore
      obtain rfl := Option.some.inj (hafter.symm.trans hst)
      have hwithin := (h.grouped before hbefore).mono hle
      exact ⟨hwithin.listed, hwithin.sent, hwithin.accepted⟩
  · cases hbefore : s.engine.stored.get roomId with
    | none =>
      have hno := h.ungrouped hbefore
      exact ⟨hno.listed, hno.sent, hno.accepted⟩
    | some before =>
      obtain ⟨after, hafter, -⟩ := hgrows before hbefore
      rw [hnone] at hafter
      cases hafter

theorem kind_of_isPublishedCommit (h : Hosting W roomId s) {k : String} {item : OutboxItem}
    (hget : s.engine.outbox.get k = some item) (hroom : item.roomId = roomId)
    (hcommit : IsPublishedCommit item) : item.kind ≠ .application ∧ ¬item.IsDenial := by
  refine ⟨fun hkind ↦ ?_, fun ⟨_, binding, mac, hmetadata⟩ ↦ ?_⟩
  · obtain ⟨data, hmetadata, -⟩ := h.engine.metadata k item hget hroom hkind
    exact hcommit.2 _ hmetadata
  · have hdirected := hcommit.1
    rw [OutboxItem.isDirected, hmetadata] at hdirected
    cases hdirected

/-- A drain lists the outbox. -/
theorem list (h : Hosting W roomId s) :
    Hosting W roomId { s with listed := s.listed ++ s.engine.outbox.values } := by
  refine ⟨h.engine, h.named, fun st hst ↦ ?_, fun hnone ↦ ?_⟩
  · have hwithin := h.grouped st hst
    refine ⟨fun item hitem hroom hcommit ↦ ?_, hwithin.sent, hwithin.accepted⟩
    rcases List.mem_append.mp hitem with hold | hnew
    · exact hwithin.listed item hold hroom hcommit
    · obtain ⟨k, hget⟩ := InsertionMap.mem_values_iff.mp hnew
      obtain ⟨hkind, hdenial⟩ := h.kind_of_isPublishedCommit hget hroom hcommit
      exact (h.engine.stored st hst).2.2 k item hget hroom hkind hdenial
  · have hno := h.ungrouped hnone
    refine ⟨fun item hitem hroom hcommit ↦ ?_, hno.sent, hno.accepted⟩
    rcases List.mem_append.mp hitem with hold | hnew
    · exact hno.listed item hold hroom hcommit
    · obtain ⟨k, hget⟩ := InsertionMap.mem_values_iff.mp hnew
      exact (h.kind_of_isPublishedCommit hget hroom hcommit).2 (h.engine.absent hnone k item hget hroom)

/-- A drain sends a listed item. -/
theorem send (h : Hosting W roomId s) (index : ℕ) (room createdAt : String) :
    Hosting W roomId
      { s with sent := s.sent ++ (s.messageOf W index room createdAt).toList } := by
  have hmade : ∀ message ∈ (s.messageOf W index room createdAt).toList, message.roomId = roomId →
      message.messageType = .commit → ∃ item ∈ s.listed, item.roomId = roomId ∧
        IsPublishedCommit item ∧ message.epochHint = item.parentEpoch := by
    intro message hmessage hroom hcommit
    obtain ⟨item, hitem, hmake⟩ := Option.bind_eq_some_iff.mp (Option.mem_toList.mp hmessage)
    split at hmake
    · cases hmake
    · rename_i hown
      simp only [Bool.or_eq_true, bne_iff_ne, not_or, not_not, Bool.not_eq_true] at hown
      obtain ⟨hhint, hmetadata⟩ := DrainPlatform.relayMessage_commit hmake hcommit
      refine ⟨item, List.mem_of_getElem? hitem, ?_, ⟨hown.2, hmetadata⟩, hhint⟩
      rw [hown.1, ← DrainPlatform.relayMessage_roomId hmake, hroom]
  refine ⟨h.engine, h.named, fun st hst ↦ ?_, fun hnone ↦ ?_⟩
  · have hwithin := h.grouped st hst
    refine ⟨hwithin.listed, fun message hmessage hroom hcommit ↦ ?_, hwithin.accepted⟩
    rcases List.mem_append.mp hmessage with hold | hnew
    · exact hwithin.sent message hold hroom hcommit
    · obtain ⟨item, hitem, hitemRoom, hpublished, hhint⟩ := hmade message hnew hroom hcommit
      rw [hhint]
      exact hwithin.listed item hitem hitemRoom hpublished
  · have hno := h.ungrouped hnone
    refine ⟨hno.listed, fun message hmessage hroom hcommit ↦ ?_, hno.accepted⟩
    rcases List.mem_append.mp hmessage with hold | hnew
    · exact hno.sent message hold hroom hcommit
    · obtain ⟨item, hitem, hitemRoom, hpublished, -⟩ := hmade message hnew hroom hcommit
      exact hno.listed item hitem hitemRoom hpublished

/-- The relay does what advances no room. -/
theorem relay (h : Hosting W roomId s) {relay : Coordinator}
    (hwithin : relay.store.toRecords.RoomsWithin s.relay.store.toRecords) :
    Hosting W roomId { s with relay } := by
  have hle := hwithin.acceptedEpoch_le roomId
  refine ⟨h.engine, hwithin.named, fun st hst ↦ ?_, fun hnone ↦ ?_⟩
  · have hbefore := h.grouped st hst
    exact ⟨hbefore.listed, hbefore.sent, hle.trans hbefore.accepted⟩
  · have hbefore := h.ungrouped hnone
    exact ⟨hbefore.listed, hbefore.sent, Nat.le_zero.mp (hbefore.accepted ▸ hle)⟩

/-- The relay accepts a message, or does not. -/
theorem publish (h : Hosting W roomId s) {message : MlsRelayMessage} {now : Instant}
    {fault : WriteFault} {fits remainsAuthorized : Bool}
    (hhost : ∀ room, s.relay.store.rooms.get roomId = some room → ∀ userId deviceId,
      room.isActiveHost userId deviceId = true →
        userId = W.identity.userId ∧ deviceId = W.identity.deviceId)
    (hown : message.messageType = .commit → message.senderUserId = W.identity.userId →
      message.senderDeviceId = W.identity.deviceId → message ∈ s.sent) :
    Hosting W roomId { s with
      relay := (W.platform.publishForRoom now fault fits remainsAuthorized message s.relay).1 } := by
  obtain hwithin | ⟨hcommit, hhint, ⟨room, hroom, hactive⟩, hnamed, haccepted⟩ :=
    @Platform.acceptedEpoch_publishForRoom W.platform now fault fits remainsAuthorized message s.relay
      h.named
  · exact h.relay hwithin
  · have hroomId := haccepted roomId
    by_cases hsame : message.roomId = roomId
    · subst hsame
      rw [if_pos rfl] at hroomId
      obtain ⟨huser, hdevice⟩ := hhost room hroom _ _ hactive
      have hsent := hown hcommit huser hdevice
      refine ⟨h.engine, hnamed, fun st hst ↦ ?_, fun hnone ↦ ?_⟩
      · have hbefore := h.grouped st hst
        refine ⟨hbefore.listed, hbefore.sent, ?_⟩
        have hbound := hbefore.sent message hsent rfl hcommit
        exact hroomId.trans_le (by omega)
      · exact absurd hcommit ((h.ungrouped hnone).sent message hsent rfl)
    · rw [if_neg (Ne.symm hsame)] at hroomId
      refine ⟨h.engine, hnamed, fun st hst ↦ ?_, fun hnone ↦ ?_⟩
      · have hbefore := h.grouped st hst
        exact ⟨hbefore.listed, hbefore.sent, hroomId.trans_le hbefore.accepted⟩
      · have hbefore := h.ungrouped hnone
        exact ⟨hbefore.listed, hbefore.sent, hroomId.trans hbefore.accepted⟩

theorem request (h : Hosting W roomId s) (request : Request) (now : Instant) (fault : WriteFault)
    (session : Option AuthSession) (deviceSessions : InsertionMap String DeviceSessionRecord)
    (deviceSessionToken : Option String) :
    Hosting W roomId { s with
      relay := s.handleRequest W request now fault session deviceSessions deviceSessionToken } := by
  apply h.relay
  unfold handleRequest
  split
  · exact h.named
  · rename_i commit hcommit
    exact Coordinator.roomsWithin_perform h.named (Request.advancesNoRoom_handle h.named hcommit)

/-- **One step.** -/
theorem step (h : Hosting W roomId s) (hadvance : EpochsAdvance W.lib.toMlsRs)
    {action : HostedAction} (hstays : StaysHost W roomId s action) :
    Hosting W roomId (s.step W action).1 := by
  cases action with
  | call op call => exact h.call hadvance hstays.host (hstays.keeps op call rfl) call
  | list => exact h.list
  | send index room createdAt => exact h.send index room createdAt
  | publish message now fault fits remainsAuthorized =>
    exact h.publish hstays.relayHost (hstays.own message now fault fits remainsAuthorized rfl)
  | request request now fault session deviceSessions deviceSessionToken =>
    exact h.request request now fault session deviceSessions deviceSessionToken
  | startRelay relay => exact h.relay (hstays.loads relay rfl)

/-- **A whole run.** -/
theorem run (h : Hosting W roomId s) (hadvance : EpochsAdvance W.lib.toMlsRs)
    {actions : List HostedAction}
    (hrun : Machine.Along (HostedRoom.step W) (StaysHost W roomId) s actions) :
    Hosting W roomId (Machine.run (HostedRoom.step W) s actions).1 := by
  have hstep : ∀ (s : HostedRoom K) (action : HostedAction), Hosting W roomId s →
      StaysHost W roomId s action → Hosting W roomId (HostedRoom.step W s action).1 :=
    fun _ _ h hstays ↦ h.step hadvance hstays
  exact Machine.run_state_invariant hstep h hrun

/-- A device whose database is empty hosts a room that the relay has no Commit of. -/
theorem initial {relay : Coordinator} (hnamed : relay.store.toRecords.RoomsNamed)
    (haccepted : relay.store.toRecords.acceptedEpoch roomId = 0) :
    Hosting W roomId
      { engine := Engine.initial W.identity.deviceId W.identity.userId, relay := relay } where
  engine := Hosted.initial _ _ _ _
  named := hnamed
  grouped := fun _ hst ↦ by cases hst
  ungrouped := fun _ ↦ ⟨fun _ h ↦ absurd h List.not_mem_nil, fun _ h ↦ absurd h List.not_mem_nil,
    haccepted⟩

end Hosting

/-! ### What the host holds -/

/-- **The window never expires what the host holds.** While a device stays the host of a room, every
application message of the room in its outbox is of the current epoch or the one before, by the
loaded group as by the stored one, and whenever its message reaches the relay it is not refused as
expired. -/
theorem held_application_within_window (hadvance : EpochsAdvance W.lib.toMlsRs)
    (hparse : ∀ data parsed, W.drain.parseMlsAuthenticatedData
      (W.lib.encodeAuthenticatedData data) = some parsed → parsed = data)
    {start : HostedRoom K} (hstart : Hosting W roomId start) {actions : List HostedAction}
    (hrun : Machine.Along (step W) (StaysHost W roomId) start actions) {k : String}
    {item : OutboxItem}
    (hget : (Machine.run (step W) start actions).1.engine.outbox.get k = some item)
    (hroom : item.roomId = roomId) (hkind : item.kind = .application) :
    (∀ g, (Machine.run (step W) start actions).1.engine.groups.get roomId = some g →
      g.currentEpoch - 1 ≤ item.epoch) ∧
    (∀ st, (Machine.run (step W) start actions).1.engine.stored.get roomId = some st →
      st.epoch.number - 1 ≤ item.epoch) ∧
    ∀ createdAt message, W.drain.relayMessageForOutboxItem
        (Machine.run (step W) start actions).1.engine W.identity item roomId createdAt =
          some message →
      ∀ now fault fits remainsAuthorized text,
        (W.platform.publishForRoom now fault fits remainsAuthorized message
          (Machine.run (step W) start actions).1.relay).2 ≠
            .failed (.refused ⟨.applicationEpochExpired, text⟩) := by
  have h := hstart.run hadvance hrun
  generalize (Machine.run (step W) start actions).1 = s at h hget ⊢
  refine ⟨fun g hg ↦ ?_, fun st hst ↦ ?_, fun createdAt message hmake now fault fits
    remainsAuthorized text hexpired ↦ ?_⟩
  · have hnumber := ((h.engine.loaded g hg).2.1 k item hget hroom hkind).1
    rw [Group.currentEpoch]
    omega
  · have hnumber := ((h.engine.stored st hst).2.1 k item hget hroom hkind).1
    omega
  · cases hstored : s.engine.stored.get roomId with
    | none => exact (h.engine.absent hstored k item hget hroom).not_application hkind
    | some st =>
      have hnumber := ((h.engine.stored st hstored).2.1 k item hget hroom hkind).1
      have haccepted := (h.grouped st hstored).accepted
      obtain ⟨data, hmetadata, hepoch⟩ := h.engine.metadata k item hget hroom hkind
      obtain ⟨-, parsed, hparsed, hhint⟩ := DrainPlatform.relayMessage_application hmetadata hmake
      obtain rfl := hparse data parsed hparsed
      have hfar := (Platform.publishForRoom_eq_expired hexpired).2
      rw [DrainPlatform.relayMessage_roomId hmake, hhint, hepoch] at hfar
      omega

/-! ### Staying the host, checked -/

/-- A test of `StaysHost` for the steps that start no relay. -/
def staysHost (W : HostedWorld K) (roomId : String) (s : HostedRoom K) (action : HostedAction) :
    Bool :=
  ((s.engine.groups.get roomId).all fun g ↦
    match validateHost W.lib.serde g.epoch.roster g.epoch.extensions with
    | .ok host => host.hostLeaf = g.selfIndex
    | .error _ => false) &&
  ((s.relay.store.rooms.get roomId).all fun room ↦
    room.hostUserId = some W.identity.userId &&
      room.activeHostDeviceId = some W.identity.deviceId) &&
  match action with
  | .call op _ => op.keepsRoom s.engine roomId
  | .publish message _ _ _ _ => s.sent.contains message
  | .startRelay _ => false
  | _ => true

theorem staysHost_sound {action : HostedAction} (h : staysHost W roomId s action = true) :
    StaysHost W roomId s action := by
  unfold staysHost at h
  rw [Bool.and_eq_true, Bool.and_eq_true] at h
  obtain ⟨⟨hhost, hrelay⟩, haction⟩ := h
  refine ⟨fun g hg ↦ ?_, fun room hroom userId deviceId hactive ↦ ?_, fun op call heq ↦ ?_,
    fun message now fault fits remainsAuthorized heq _ _ _ ↦ ?_, fun relay heq ↦ ?_⟩
  · rw [hg, Option.all_some] at hhost
    split at hhost
    · rename_i host hvalid
      exact ⟨host, hvalid, by simpa using hhost⟩
    · cases hhost
  · rw [hroom, Option.all_some] at hrelay
    simp only [Bool.and_eq_true, decide_eq_true_eq] at hrelay
    simp only [RoomRecord.isActiveHost, hrelay.1, hrelay.2, Bool.and_eq_true, decide_eq_true_eq,
      Option.some.injEq] at hactive
    exact ⟨hactive.1.2.symm, hactive.2.symm⟩
  · subst heq
    exact haction
  · subst heq
    exact List.contains_iff_mem.mp haction
  · subst heq
    cases haction

end HostedRoom

/-! ### A message that is older than the Commit that overtakes it -/

namespace Mls.Plain

/-- The authenticated data in the order of its fields. -/
def dataFields (data : ApplicationAuthenticatedData) : List (String × Option Json) :=
  [("version", some (.num data.version)), ("epoch", some (.num data.epoch)),
    ("messageId", some (.str data.messageId)), ("teamId", some (.str data.teamId)),
    ("roomId", some (.str data.roomId)), ("kind", some (.str data.kind)),
    ("senderUserId", some (.str data.senderUserId)),
    ("senderDeviceId", some (.str data.senderDeviceId)), ("createdAt", some (.str data.createdAt))]

/-- The authenticated data as UTF-8. -/
def dataJson (data : ApplicationAuthenticatedData) : Bytes :=
  (Json.stringify (.obj (Json.fields (dataFields data)))).toByteArray.data.toList

theorem dataJson_injective : Function.Injective dataJson := by
  intro a b h
  have htext := String.toByteArray_inj.mp (ByteArray.ext (Array.toList_inj.mp h))
  have hkeys : (dataFields a).map Prod.fst = ["version", "epoch", "messageId", "teamId", "roomId",
    "kind", "senderUserId", "senderDeviceId", "createdAt"] := rfl
  have hfields : dataFields a = dataFields b :=
    Json.fields_inj rfl (by rw [hkeys]; decide) (JsonTerm.obj.inj (Json.stringify_injective htext))
  simp only [dataFields, List.cons.injEq, Prod.mk.injEq, true_and, and_true, Option.some.injEq,
    JsonTerm.num.injEq, JsonTerm.str.injEq] at hfields
  obtain ⟨⟨version, messageId, teamId, roomId, kind, userId, deviceId, createdAt⟩, epoch⟩ := a
  simp_all

/-- What the host writes before the Commit that adds Bob is accepted. -/
def greeting : ApplicationAuthenticatedData where
  version := 1
  epoch := 0
  messageId := "message-1"
  teamId := "team-1"
  roomId := "room-1"
  kind := "chat"
  senderUserId := "1"
  senderDeviceId := "mac-1"
  createdAt := "2026-01-01T00:00:00.000Z"

/-- Alice's device, a reader that knows the greeting, and a relay that does not hash. -/
def hostedWorld : HostedWorld ℕ where
  lib := { library with encodeAuthenticatedData := dataJson }
  drain :=
    { parseMlsAuthenticatedData := fun bytes ↦ if bytes = dataJson greeting then some greeting else none
      base64 := library.digest
      signHostTransfer := fun _ ↦ none }
  platform := ⟨{}, id, id, fun _ _ _ ↦ true, fun _ ↦ none⟩
  identity := ⟨"team-1", "1", "mac-1"⟩

/-- The relay with Alice's room. -/
def hostedRelay : Coordinator where
  store := (({} : RelayStore).setTeam ⟨"team-1", "Team", 0, none, none, none⟩).setRoom
    { id := "room-1"
      teamId := "team-1"
      acceptedMlsEpoch := some 0
      name := "Room"
      host := "Alice"
      hostUserId := some "1"
      activeHostDeviceId := some "mac-1"
      hostStatus := .active
      approvalPolicy := .askEveryTurn }

def hostedStart : HostedRoom ℕ where
  engine := Engine.initial "mac-1" "1"
  relay := hostedRelay

/-- The Commit that adds Bob, as the relay gets it. -/
def additionMessage : MlsRelayMessage where
  id := library.digest [7]
  teamId := "team-1"
  roomId := "room-1"
  senderDeviceId := "mac-1"
  senderUserId := "1"
  createdAt := "2026-01-01T00:00:01.000Z"
  messageType := .commit
  epochHint := 0
  mlsMessage := library.digest [7]

/-- Alice adds Bob, writes a greeting while the Commit is pending, and sends the Commit, which is
accepted. -/
def overtaking : List HostedAction :=
  [.call (.createGroup "room-1") {},
    .call (.addMember "room-1" (credentialJson bob) none) { entropy := 7 },
    .call (.encryptApplication "room-1" "message-1" [1] greeting.toApplicationAuthenticatedDataInput)
      { entropy := 3 },
    .list,
    .send 0 "room-1" "2026-01-01T00:00:01.000Z",
    .publish additionMessage 1767225601000 .none true true,
    .call (.publishSucceeded "room-1" (library.digest [7])) {}]

theorem hosting_hostedStart : HostedRoom.Hosting hostedWorld "room-1" hostedStart := by
  refine HostedRoom.Hosting.initial (fun k room hroom ↦ ?_) (by decide +kernel)
  have hget : (InsertionMap.empty.set "room-1" _).get k = some room := hroom
  rw [InsertionMap.get_set] at hget
  split_ifs at hget with hk
  · rw [← Option.some.inj hget, hk]
    exact ⟨rfl, Nat.zero_le _⟩
  · cases hget

/-- The greeting is still held at the next epoch, and the relay would take it. -/
theorem held_application_within_window_overtaking :
    ∃ item, (Machine.run (HostedRoom.step hostedWorld) hostedStart
        overtaking).1.engine.outbox.get "message-1" = some item ∧
      (∀ g, (Machine.run (HostedRoom.step hostedWorld) hostedStart
        overtaking).1.engine.groups.get "room-1" = some g → g.currentEpoch - 1 ≤ item.epoch) ∧
      ∀ createdAt message, hostedWorld.drain.relayMessageForOutboxItem
          (Machine.run (HostedRoom.step hostedWorld) hostedStart overtaking).1.engine
          hostedWorld.identity item "room-1" createdAt = some message →
        ∀ text, (hostedWorld.platform.publishForRoom 1767225602000 .none true true message
          (Machine.run (HostedRoom.step hostedWorld) hostedStart overtaking).1.relay).2 ≠
            .failed (.refused ⟨.applicationEpochExpired, text⟩) := by
  have hitem : ((Machine.run (HostedRoom.step hostedWorld) hostedStart
      overtaking).1.engine.outbox.get "message-1").any (fun item ↦
        item.roomId = "room-1" && item.kind = .application) = true := by
    decide +kernel
  obtain ⟨item, hget, hown⟩ := (Option.any_eq_true _ _).mp hitem
  simp only [Bool.and_eq_true, decide_eq_true_eq] at hown
  have hparse : ∀ data parsed, hostedWorld.drain.parseMlsAuthenticatedData
      (hostedWorld.lib.encodeAuthenticatedData data) = some parsed → parsed = data := by
    intro data parsed hparsed
    have hknown : (if dataJson data = dataJson greeting then some greeting else none) =
      some parsed := hparsed
    split_ifs at hknown with heq
    rw [dataJson_injective heq, ← Option.some.inj hknown]
  have hrun : Machine.Along (HostedRoom.step hostedWorld) (fun s action ↦
      HostedRoom.staysHost hostedWorld "room-1" s action = true) hostedStart overtaking := by
    decide +kernel
  obtain ⟨hloaded, -, hpublish⟩ := HostedRoom.held_application_within_window
    ⟨epochsAdvance_plain.built, epochsAdvance_plain.applied⟩ hparse hosting_hostedStart
    (hrun.mono fun _ _ ↦ HostedRoom.staysHost_sound) hget hown.1 hown.2
  exact ⟨item, hget, hloaded, fun createdAt message hmake text ↦
    hpublish createdAt message hmake _ _ _ _ text⟩

end Mls.Plain

end MultAIplayer
