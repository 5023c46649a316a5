import MultAIplayer.Relay.Domain
import MultAIplayer.Relay.Persistence
import Mathlib.Data.List.Sort

/-!
# Publishing into a room

The decisive part of `publishForRoom` in `ws/fanout.ts`: everything between the await of
`reclaimDurableCapacity` and the broadcast. It runs without interruption, because saves return or
throw at once.

## Deciding, staging, saving

`decidePublish` asks the records and changes nothing. Only when it lets a message through is
anything staged, and a save that throws is followed by `rollbackPublish`.

Digests and signature verification are parameters (`Platform`): what the relay computes from them
is modelled, what they compute is not.
-/

namespace MultAIplayer

/-! ### Errors -/

inductive RelayPublishErrorCode
  | staleEpoch
  | applicationEpochExpired
  | notActiveHost
  | invalidMessage
  | notJoined
  deriving DecidableEq

/-- `RelayPublishError`. -/
structure RelayPublishError where
  code : RelayPublishErrorCode
  message : String
  deriving DecidableEq

namespace RelayPublishError

def authorizationChanged : RelayPublishError :=
  ⟨.notJoined, "Publishing authorization changed while the message was queued."⟩

def roomUnavailable : RelayPublishError :=
  ⟨.notJoined, "Room is archived, deleted, or unavailable."⟩

def idAlreadyBound : RelayPublishError :=
  ⟨.invalidMessage, "Message id is already bound to different MLS bytes or metadata."⟩

def competingCommit : RelayPublishError :=
  ⟨.staleEpoch, "A competing Commit already advanced this room epoch."⟩

end RelayPublishError

/-- What `publishForRoom` throws. -/
inductive PublishError
  | refused (error : RelayPublishError)
  | roomNotFound
  | capacityExceeded
  | persistenceUnavailable
  deriving DecidableEq

/-- What `publishForRoom` decides before it stages anything. -/
inductive PublishDecision
  | retry
  | refuse (error : PublishError)
  | stage (room : RoomRecord)
  deriving DecidableEq

/-- How `publishForRoom` ends: `true`, `false`, or an error. -/
inductive PublishOutcome
  | accepted
  | retried
  | failed (error : PublishError)
  deriving DecidableEq

/-! ### Retries -/

/-- `retryDigest`. -/
def Platform.retryDigest (P : Platform) (message : MlsRelayMessage) : String :=
  match message.messageType with
  | .application => P.sha256 message.stringify
  | .commit => P.sha256 message.commitText

/-- `sameRetry`. -/
def sameRetry (previous next : MlsRelayMessage) : Bool :=
  if previous.messageType = .application ∨ next.messageType = .application then
    previous.stringify = next.stringify
  else previous.commitText = next.commitText

/-- The key of an accepted message receipt. -/
def receiptKey (key : RoomKey) (messageId : String) : String := key ++ "\x00" ++ messageId

/-! ### Authority -/

/-- The text that a host signs: the authorization without its signature and public key. -/
def HostTransferAuthorization.signedText (a : HostTransferAuthorization) : String :=
  Json.stringify (.obj (Json.fields a.signedFields))

/-- `validHostTransferAuthorization`. -/
def Platform.validHostTransferAuthorization (P : Platform) (r : Records) (room : RoomRecord)
    (message : MlsRelayMessage) : Bool :=
  match message.hostTransferAuthorization,
      r.getDevice message.senderUserId message.senderDeviceId with
  | some auth, some device =>
    auth.roomId = message.roomId && auth.parentEpoch = message.epochHint &&
      auth.outgoingHostUserId = message.senderUserId &&
      auth.outgoingHostDeviceId = message.senderDeviceId &&
      message.nextHostUserId = some auth.nextHostUserId &&
      message.nextHostDeviceId = some auth.nextHostDeviceId &&
      room.hostUserId = some auth.outgoingHostUserId &&
      room.activeHostDeviceId = some auth.outgoingHostDeviceId &&
      r.hasTeamMember room.teamId auth.nextHostUserId &&
      (r.getDevice auth.nextHostUserId auth.nextHostDeviceId).isSome &&
      auth.publicKeySpkiDer = device.signaturePublicKey &&
      P.sha256OfBase64 message.mlsMessage = auth.commitMessageId &&
      P.verifyHostTransfer auth.signedText device.signaturePublicKey auth.signatureDer
  | _, _ => false

/-- `validatePublishAuthority`: the error that it throws, if any. -/
def Platform.validatePublishAuthority (P : Platform) (r : Records) (room : RoomRecord)
    (message : MlsRelayMessage) (acceptedEpoch : ℕ) : Option RelayPublishError :=
  if message.messageType = .commit ∧ message.epochHint ≠ acceptedEpoch then
    some ⟨.staleEpoch, "Commit epoch " ++ toString message.epochHint ++
      " is stale; accepted epoch is " ++ toString acceptedEpoch ++ "."⟩
  else if message.messageType = .application ∧ acceptedEpoch < message.epochHint then
    some ⟨.staleEpoch, "Application epoch " ++ toString message.epochHint ++
      " is ahead of accepted epoch " ++ toString acceptedEpoch ++ "."⟩
  else if message.messageType = .application ∧ 2 < acceptedEpoch - message.epochHint then
    some ⟨.applicationEpochExpired, "Application epoch " ++ toString message.epochHint ++
      " is outside the retained window at epoch " ++ toString acceptedEpoch ++ "."⟩
  else if message.messageType = .commit ∧
      !room.isActiveHost message.senderUserId message.senderDeviceId then
    some ⟨.notActiveHost, "Only the active host device may publish an MLS Commit."⟩
  else if message.isHostHandoff ∧ !P.validHostTransferAuthorization r room message then
    some ⟨.notActiveHost, "Host transfer authorization is invalid or unauthenticated."⟩
  else none

/-! ### Deciding -/

/-- What `publishForRoom` decides about a message, given whether its author still may publish. -/
def Platform.decidePublish (P : Platform) (r : Records) (remainsAuthorized : Bool)
    (message : MlsRelayMessage) : PublishDecision :=
  let key := roomKey message.teamId message.roomId
  if !remainsAuthorized then .refuse (.refused .authorizationChanged)
  else if !r.isActiveRoom message.teamId message.roomId then .refuse (.refused .roomUnavailable)
  else
    match r.acceptedMessageReceipts.get (receiptKey key message.id) with
    | some receipt =>
      if receipt.digest = P.retryDigest message then .retry else .refuse (.refused .idAlreadyBound)
    | none =>
      match (r.mlsBacklogOf key).find? (·.id = message.id) with
      | some replay =>
        if sameRetry replay message then .retry else .refuse (.refused .idAlreadyBound)
      | none =>
        match r.rooms.get message.roomId with
        | none => .refuse .roomNotFound
        | some room =>
          match P.validatePublishAuthority r room message (room.acceptedMlsEpoch.getD 0) with
          | some error => .refuse (.refused error)
          | none => .stage room

/-! ### Staging -/

/-- `roomAfterCommit`. -/
def roomAfterCommit (room : RoomRecord) (message : MlsRelayMessage) (acceptedEpoch : ℕ) :
    RoomRecord :=
  if message.isHostHandoff then
    { room with
      acceptedMlsEpoch := some (acceptedEpoch + 1)
      host := message.nextHostUserId.getD ""
      hostUserId := message.nextHostUserId
      activeHostDeviceId := message.nextHostDeviceId
      hostStatus := .active }
  else { room with acceptedMlsEpoch := some (acceptedEpoch + 1) }

/-- The receipt of an accepted message. -/
def Platform.receiptFor (P : Platform) (now : Instant) (key : RoomKey) (message : MlsRelayMessage) :
    AcceptedMessageReceipt where
  roomKey := key
  messageId := message.id
  messageType := message.messageType
  senderUserId := message.senderUserId
  senderDeviceId := message.senderDeviceId
  parentEpoch := message.epochHint
  digest := P.retryDigest message
  acceptedAt := now

def acceptedReceiptRetentionDays : ℕ := 180

def maxAcceptedReceiptsPerPool : ℕ := 4096

/-- Whether a receipt is older than the relay keeps receipts. -/
def isOutdatedReceipt (now : Instant) (receipt : AcceptedMessageReceipt) : Bool :=
  receipt.acceptedAt < now - (acceptedReceiptRetentionDays * millisecondsPerDay : ℕ)

/-- The ids of the oldest entries of a list, all but the last `maximum`. -/
def idsBeyond {β : Type} (maximum : ℕ) (l : List (String × β)) : List String :=
  (l.take (l.length - maximum)).map Prod.fst

/-- The receipts that `pruneAcceptedReceipts` deletes: those of the room that are outdated, and the
oldest of the Commits and of each sender's applications. -/
def receiptsToPrune (now : Instant) (key : RoomKey)
    (receipts : InsertionMap String AcceptedMessageReceipt) : List String :=
  let roomReceipts := (receipts.entries.filter fun e ↦ e.2.roomKey = key).insertionSort
    fun a b ↦ a.2.acceptedAt ≤ b.2.acceptedAt
  let live := roomReceipts.filter fun e ↦ !isOutdatedReceipt now e.2
  let commits := live.filter fun e ↦ e.2.messageType = .commit
  let applications := live.filter fun e ↦ e.2.messageType = .application
  let senders := (applications.map (·.2.senderUserId)).dedup
  (roomReceipts.filter fun e ↦ isOutdatedReceipt now e.2).map Prod.fst ++
    idsBeyond maxAcceptedReceiptsPerPool commits ++
    senders.flatMap fun sender ↦ idsBeyond maxAcceptedReceiptsPerPool
      (applications.filter fun e ↦ e.2.senderUserId = sender)

/-- `pruneAcceptedReceipts`. -/
def pruneAcceptedReceipts (now : Instant) (key : RoomKey) (s : RelayStore) : RelayStore :=
  let pruned := receiptsToPrune now key s.acceptedMessageReceipts
  s.deleteWhere .acceptedMessageReceipts fun id _ ↦ id ∈ pruned

/-- The backlog of a room after a message. -/
def Platform.backlogAfter (P : Platform) (now : Instant) (r : Records) (key : RoomKey)
    (message : MlsRelayMessage) : List MlsRelayMessage :=
  pruneMlsBacklog P.config now (r.mlsBacklogOf key ++ [message])

/-- The ids of the previous backlog that the new backlog does not retain. -/
def Platform.prunedIds (P : Platform) (now : Instant) (r : Records) (key : RoomKey)
    (message : MlsRelayMessage) : List String :=
  let retained := (P.backlogAfter now r key message).map (·.id)
  ((r.mlsBacklogOf key).filter fun m ↦ m.id ∉ retained).map (·.id)

/-- What a publish stages: the advanced room of a Commit, the backlog and the receipt. -/
@[grind =] def Platform.stagePublish (P : Platform) (now : Instant) (room : RoomRecord)
    (message : MlsRelayMessage) (s : RelayStore) : RelayStore :=
  let key := roomKey message.teamId message.roomId
  let backlog := P.backlogAfter now s.toRecords key message
  let s := if message.messageType = .commit then
    s.setRoom (roomAfterCommit room message (room.acceptedMlsEpoch.getD 0)) else s
  pruneAcceptedReceipts now key ((s.setMlsBacklog key backlog).set .acceptedMessageReceipts
    (receiptKey key message.id) (P.receiptFor now key message))

/-- What a publish puts back when its save throws. -/
def rollbackPublish (before : Records) (key : RoomKey) (oldRoom : RoomRecord) (s : RelayStore) :
    RelayStore :=
  let s := match before.mlsBacklog.get key with
    | some previous => s.setMlsBacklog key previous
    | none => s.delete .mlsBacklog key
  ((s.setRoom oldRoom).clear .acceptedMessageReceipts).setAll .acceptedMessageReceipts
    before.acceptedMessageReceipts.entries

/-! ### Publishing -/

/-- `saveMlsCommit` for a Commit, `saveMlsMessage` for an application message. -/
def Coordinator.savePublish (c : RelayConfig) (now : Instant) (fault : WriteFault) (key : RoomKey)
    (message : MlsRelayMessage) (prunedIds : List String) (b : Coordinator) :
    Coordinator × Option SaveError :=
  match message.messageType with
  | .commit => b.saveMlsCommit c now fault key message prunedIds
  | .application => b.saveMlsMessage c now fault key message prunedIds

/-- `publishForRoom`, from the check after the reclaim to the broadcast. Whether the staged records
fit the configured ceilings is up to the environment. -/
def Platform.publishForRoom (P : Platform) (now : Instant) (fault : WriteFault) (fits : Bool)
    (remainsAuthorized : Bool) (message : MlsRelayMessage) (b : Coordinator) :
    Coordinator × PublishOutcome :=
  let key := roomKey message.teamId message.roomId
  let before := b.store.toRecords
  match P.decidePublish before remainsAuthorized message with
  | .retry => (b, .retried)
  | .refuse error => (b, .failed error)
  | .stage room =>
    let staged := { b with store := P.stagePublish now room message b.store }
    let rollback := fun b : Coordinator ↦
      { b with store := rollbackPublish before key room b.store }
    if !fits then (rollback staged, .failed .capacityExceeded)
    else
      match staged.savePublish P.config now fault key message (P.prunedIds now before key message) with
      | (saved, none) => (saved, .accepted)
      | (saved, some .staleEpoch) => (rollback saved, .failed (.refused .competingCommit))
      | (saved, some .unavailable) => (rollback saved, .failed .persistenceUnavailable)

/-! ### What a decision says -/

namespace Platform

variable {P : Platform} {r : Records} {remainsAuthorized : Bool} {message : MlsRelayMessage}

/-- **What a message that is staged has passed.** -/
theorem decidePublish_eq_stage {room : RoomRecord}
    (h : P.decidePublish r remainsAuthorized message = .stage room) :
    remainsAuthorized = true ∧ r.isActiveRoom message.teamId message.roomId = true ∧
      r.acceptedMessageReceipts.get
        (receiptKey (roomKey message.teamId message.roomId) message.id) = none ∧
      (∀ m ∈ r.mlsBacklogOf (roomKey message.teamId message.roomId), m.id ≠ message.id) ∧
      r.rooms.get message.roomId = some room ∧
      P.validatePublishAuthority r room message (room.acceptedMlsEpoch.getD 0) = none := by
  unfold decidePublish at h
  dsimp only at h
  split_ifs at h with hauth hactive
  rw [Bool.not_eq_true, Bool.not_eq_false'] at hauth hactive
  split at h
  · split_ifs at h
  · rename_i hreceipt
    split at h
    · split_ifs at h
    · rename_i hbacklog
      split at h
      · cases h
      · rename_i hroom
        split at h
        · cases h
        · rename_i hvalid
          cases h
          refine ⟨hauth, hactive, hreceipt, fun m hm ↦ ?_, hroom, hvalid⟩
          simpa using List.find?_eq_none.mp hbacklog m hm

/-- What `validatePublishAuthority` has checked when it throws nothing, for a Commit. -/
theorem validatePublishAuthority_commit {room : RoomRecord} {acceptedEpoch : ℕ}
    (hcommit : message.messageType = .commit)
    (h : P.validatePublishAuthority r room message acceptedEpoch = none) :
    message.epochHint = acceptedEpoch ∧
      room.isActiveHost message.senderUserId message.senderDeviceId = true ∧
      (message.isHostHandoff = true → P.validHostTransferAuthorization r room message = true) := by
  unfold validatePublishAuthority at h
  split_ifs at h with hepoch _ _ hhost hhandoff
  simp_all

end Platform

/-! ### What a publish does -/

/-- The entities that a publish writes. -/
@[grind =] def IsPublishEntity (e : Entity) : Prop :=
  e = .rooms ∨ e = .mlsBacklog ∨ e = .acceptedMessageReceipts

section Staging

variable (P : Platform) (now : Instant) (room : RoomRecord) (message : MlsRelayMessage)
  (s : RelayStore)

@[simp] theorem rooms_pruneAcceptedReceipts (key : RoomKey) :
    (pruneAcceptedReceipts now key s).rooms = s.rooms := rfl

theorem acceptedMessageReceipts_pruneAcceptedReceipts (key : RoomKey) :
    (pruneAcceptedReceipts now key s).acceptedMessageReceipts =
      s.acceptedMessageReceipts.deleteAll (receiptsToPrune now key s.acceptedMessageReceipts) := by
  simp only [InsertionMap.deleteAll, decide_not]
  rfl

@[simp] theorem roomAfterCommit_id (acceptedEpoch : ℕ) :
    (roomAfterCommit room message acceptedEpoch).id = room.id := by
  unfold roomAfterCommit
  split_ifs <;> rfl

theorem rooms_stagePublish : (P.stagePublish now room message s).rooms =
    if message.messageType = .commit then
      s.rooms.set room.id (roomAfterCommit room message (room.acceptedMlsEpoch.getD 0))
    else s.rooms := by
  unfold Platform.stagePublish
  dsimp only
  rw [rooms_pruneAcceptedReceipts]
  split_ifs
  · rw [← roomAfterCommit_id room message]
    rfl
  · rfl

theorem mlsBacklog_stagePublish : (P.stagePublish now room message s).mlsBacklog =
    s.mlsBacklog.set (roomKey message.teamId message.roomId)
      (P.backlogAfter now s.toRecords (roomKey message.teamId message.roomId) message) := by
  unfold Platform.stagePublish
  dsimp only
  split_ifs <;> rfl

/-- The receipts after a publish, before they are pruned. -/
def Platform.receiptsAfter (r : Records) : InsertionMap String AcceptedMessageReceipt :=
  r.acceptedMessageReceipts.set (receiptKey (roomKey message.teamId message.roomId) message.id)
    (P.receiptFor now (roomKey message.teamId message.roomId) message)

theorem acceptedMessageReceipts_stagePublish :
    (P.stagePublish now room message s).acceptedMessageReceipts =
      (P.receiptsAfter now message s.toRecords).deleteAll
        (receiptsToPrune now (roomKey message.teamId message.roomId)
          (P.receiptsAfter now message s.toRecords)) := by
  unfold Platform.stagePublish
  dsimp only
  rw [acceptedMessageReceipts_pruneAcceptedReceipts]
  split_ifs <;> rfl

theorem collection_stagePublish {e : Entity} (he : ¬IsPublishEntity e) :
    (P.stagePublish now room message s).collection e = s.collection e := by
  have hne : e ≠ .rooms ∧ e ≠ .mlsBacklog ∧ e ≠ .acceptedMessageReceipts := by
    simpa [IsPublishEntity] using he
  unfold Platform.stagePublish
  dsimp only
  split_ifs <;> cases e <;> first | rfl | simp at hne

end Staging

@[simp] theorem Coordinator.toRecords_savePublish (c : RelayConfig) (now : Instant)
    (fault : WriteFault) (key : RoomKey) (message : MlsRelayMessage) (prunedIds : List String)
    (b : Coordinator) :
    (b.savePublish c now fault key message prunedIds).1.store.toRecords = b.store.toRecords := by
  unfold savePublish
  cases message.messageType
  · exact toRecords_saveMlsMessage c now fault key message prunedIds b
  · exact toRecords_saveMlsCommit c now fault key message prunedIds b

/-- **A rollback puts back what was staged**, over any store that holds the same as the staged one. -/
theorem rollbackPublish_agrees (P : Platform) (now : Instant) {room : RoomRecord}
    {message : MlsRelayMessage} {before s : RelayStore}
    (hroom : before.rooms.get room.id = some room)
    (hs : s.toRecords = (P.stagePublish now room message before).toRecords) :
    (rollbackPublish before.toRecords (roomKey message.teamId message.roomId) room
      s).toRecords.Agrees before.toRecords := by
  intro e k
  have hcollection : ∀ f, s.collection f = (P.stagePublish now room message before).collection f :=
    fun f ↦ by rw [hs]
  by_cases he : IsPublishEntity e
  · obtain rfl | rfl | rfl := he
    · have hrooms : (rollbackPublish before.toRecords (roomKey message.teamId message.roomId) room
          s).rooms = s.rooms.set room.id room := by
        unfold rollbackPublish
        cases before.mlsBacklog.get (roomKey message.teamId message.roomId) <;> rfl
      have hstaged : s.rooms = _ := (hcollection .rooms).trans
        (rooms_stagePublish P now room message before)
      change (rollbackPublish _ _ _ _).rooms.get k = before.rooms.get k
      rw [hrooms, hstaged, InsertionMap.get_set]
      by_cases hk : k = room.id
      · rw [if_pos hk, hk, hroom]
      · rw [if_neg hk]
        split_ifs
        · exact InsertionMap.get_set_of_ne _ _ hk
        · rfl
    · have hstaged : s.mlsBacklog = _ := (hcollection .mlsBacklog).trans
        (mlsBacklog_stagePublish P now room message before)
      unfold rollbackPublish
      cases hprevious : before.mlsBacklog.get (roomKey message.teamId message.roomId) with
      | none =>
        change (s.mlsBacklog.delete _).get k = before.mlsBacklog.get k
        rw [hstaged, InsertionMap.get_delete, InsertionMap.get_set]
        split_ifs with hk
        · rw [hk, hprevious]
        · rfl
      | some previous =>
        change (s.mlsBacklog.set _ previous).get k = before.mlsBacklog.get k
        rw [hstaged, InsertionMap.get_set, InsertionMap.get_set]
        split_ifs with hk
        · rw [hk, hprevious]
        · rfl
    · have hreceipts : (rollbackPublish before.toRecords (roomKey message.teamId message.roomId)
          room s).acceptedMessageReceipts =
          InsertionMap.empty.setAll before.acceptedMessageReceipts.entries := by
        unfold rollbackPublish
        cases before.mlsBacklog.get (roomKey message.teamId message.roomId) <;> rfl
      change (rollbackPublish _ _ _ _).acceptedMessageReceipts.get k =
        before.acceptedMessageReceipts.get k
      rw [hreceipts, InsertionMap.get_empty_setAll_entries]
  · have hkept : (rollbackPublish before.toRecords (roomKey message.teamId message.roomId) room
        s).collection e = s.collection e := by
      have hne : e ≠ .rooms ∧ e ≠ .mlsBacklog ∧ e ≠ .acceptedMessageReceipts := by
        simpa [IsPublishEntity] using he
      unfold rollbackPublish
      cases before.mlsBacklog.get (roomKey message.teamId message.roomId) <;> cases e <;>
        first | rfl | simp at hne
    rw [hkept, hcollection, collection_stagePublish _ _ _ _ _ he]

namespace Platform

/-- The coordinator with a message staged. -/
def stagedPublish (P : Platform) (now : Instant) (room : RoomRecord) (message : MlsRelayMessage)
    (b : Coordinator) : Coordinator :=
  { b with store := P.stagePublish now room message b.store }

/-- The coordinator with a staged message taken back. -/
def rolledBackPublish (before : Records) (room : RoomRecord) (message : MlsRelayMessage)
    (c : Coordinator) : Coordinator :=
  { c with
    store := rollbackPublish before (roomKey message.teamId message.roomId) room c.store }

/-- How the staged message is saved. -/
@[grind =] def savedPublish (P : Platform) (now : Instant) (fault : WriteFault) (room : RoomRecord)
    (message : MlsRelayMessage) (b : Coordinator) : Coordinator × Option SaveError :=
  (P.stagedPublish now room message b).savePublish P.config now fault
    (roomKey message.teamId message.roomId) message
    (P.prunedIds now b.store.toRecords (roomKey message.teamId message.roomId) message)

variable (P : Platform) (now : Instant) (fault : WriteFault) (fits remainsAuthorized : Bool)
  (message : MlsRelayMessage) (b : Coordinator)

/-- **What a publish can do**: refuse or recognise the message and change nothing; stage it and put
everything back; or stage it, save it and accept it. -/
theorem publishForRoom_cases :
    (P.publishForRoom now fault fits remainsAuthorized message b = (b, .retried) ∧
      P.decidePublish b.store.toRecords remainsAuthorized message = .retry) ∨
    (∃ error, P.publishForRoom now fault fits remainsAuthorized message b = (b, .failed error) ∧
      P.decidePublish b.store.toRecords remainsAuthorized message = .refuse error) ∨
    ∃ room, P.decidePublish b.store.toRecords remainsAuthorized message = .stage room ∧
      ((∃ c error, (c = P.stagedPublish now room message b ∨
          ∃ saveError, P.savedPublish now fault room message b = (c, some saveError)) ∧
        P.publishForRoom now fault fits remainsAuthorized message b =
          (rolledBackPublish b.store.toRecords room message c, .failed error)) ∨
      (fits = true ∧ ∃ c, P.savedPublish now fault room message b = (c, none) ∧
        P.publishForRoom now fault fits remainsAuthorized message b = (c, .accepted))) := by
  unfold publishForRoom
  dsimp only
  cases hdecide : P.decidePublish b.store.toRecords remainsAuthorized message with
  | retry => exact .inl ⟨rfl, rfl⟩
  | refuse error => exact .inr (.inl ⟨error, rfl, rfl⟩)
  | stage room =>
    refine .inr (.inr ⟨room, rfl, ?_⟩)
    cases fits with
    | false => exact .inl ⟨_, .capacityExceeded, .inl rfl, rfl⟩
    | true =>
      dsimp only
      rw [if_neg (by decide)]
      cases hsave : P.savedPublish now fault room message b with
      | mk c result =>
        have hsave' := hsave
        unfold savedPublish stagedPublish at hsave'
        rw [hsave']
        cases result with
        | none => exact .inr ⟨rfl, c, rfl, rfl⟩
        | some error =>
          cases error with
          | staleEpoch => exact .inl ⟨c, _, .inr ⟨_, rfl⟩, rfl⟩
          | unavailable => exact .inl ⟨c, _, .inr ⟨_, rfl⟩, rfl⟩

theorem toRecords_savedPublish (room : RoomRecord) :
    (P.savedPublish now fault room message b).1.store.toRecords =
      (P.stagePublish now room message b.store).toRecords := by
  rw [savedPublish, Coordinator.toRecords_savePublish]
  rfl

variable {P now fault fits remainsAuthorized message b}

/-- What a publish leaves in the store: the same, or what was staged for an accepted message. -/
theorem toRecords_publishForRoom_of_named
    (hnamed : ∀ room, b.store.rooms.get message.roomId = some room → room.id = message.roomId) :
    ((P.publishForRoom now fault fits remainsAuthorized message b).2 ≠ .accepted ∧
      (P.publishForRoom now fault fits remainsAuthorized message b).1.store.toRecords.Agrees
        b.store.toRecords) ∨
    ((P.publishForRoom now fault fits remainsAuthorized message b).2 = .accepted ∧
      ∃ room, P.decidePublish b.store.toRecords remainsAuthorized message = .stage room ∧
        (P.publishForRoom now fault fits remainsAuthorized message b).1.store.toRecords =
          (P.stagePublish now room message b.store).toRecords) := by
  obtain ⟨heq, -⟩ | ⟨error, heq, -⟩ | ⟨room, hdecide, hstaged⟩ := publishForRoom_cases
    P now fault fits remainsAuthorized message b
  · rw [heq]
    exact .inl ⟨nofun, Records.Agrees.refl _⟩
  · rw [heq]
    exact .inl ⟨nofun, Records.Agrees.refl _⟩
  · obtain ⟨c, error, hc, heq⟩ | ⟨-, c, hsave, heq⟩ := hstaged
    · rw [heq]
      refine .inl ⟨nofun, ?_⟩
      have hroom := (decidePublish_eq_stage hdecide).2.2.2.2.1
      rw [← hnamed room hroom] at hroom
      refine rollbackPublish_agrees P now hroom ?_
      obtain rfl | ⟨saveError, hsave⟩ := hc
      · rfl
      · rw [← toRecords_savedPublish P now fault, hsave]
    · rw [heq]
      refine .inr ⟨rfl, room, hdecide, ?_⟩
      rw [← toRecords_savedPublish P now fault, hsave]

theorem toRecords_publishForRoom (hkeyed : b.store.toRecords.Keyed) :
    ((P.publishForRoom now fault fits remainsAuthorized message b).2 ≠ .accepted ∧
      (P.publishForRoom now fault fits remainsAuthorized message b).1.store.toRecords.Agrees
        b.store.toRecords) ∨
    ((P.publishForRoom now fault fits remainsAuthorized message b).2 = .accepted ∧
      ∃ room, P.decidePublish b.store.toRecords remainsAuthorized message = .stage room ∧
        (P.publishForRoom now fault fits remainsAuthorized message b).1.store.toRecords =
          (P.stagePublish now room message b.store).toRecords) :=
  toRecords_publishForRoom_of_named fun _ hroom ↦ hkeyed.room_id hroom

end Platform

end MultAIplayer
