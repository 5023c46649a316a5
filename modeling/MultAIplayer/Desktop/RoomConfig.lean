import MultAIplayer.Lib.Machine
import MultAIplayer.Protocol.RelayMessages

/-!
# Room configuration snapshots

The active host sends the configuration of a room to its members as an encrypted snapshot
(`roomConfigSnapshot.ts`). A snapshot carries a revision and the epoch that it was made in; a member
takes it from the active host of its record if it is newer than what the member has.

Publishing awaits the encrypted store, the epoch, the encryption and the relay. Between any two of
these the store of the host, the group and the records of members can change, so each is a step of
its own, and what other code writes into a record is part of the step. The native side checks the
epoch, saves the configuration and encrypts it in one command.
-/

namespace MultAIplayer.Desktop

/-! ### Records -/

inductive CatalogSelectionPolicy
  | auto
  | pinned
  deriving DecidableEq

inductive CodexReasoningEffort
  | none
  | minimal
  | low
  | medium
  | high
  | xhigh
  | max
  deriving DecidableEq

inductive CodexSpeed
  | standard
  | fast
  deriving DecidableEq

inductive CodexSandboxLevel
  | readOnly
  | workspaceWrite
  | workspaceWriteNetwork
  | dangerFullAccess
  deriving DecidableEq

/-- The settings of a configuration. -/
structure RoomSettings where
  projectPath : String := ""
  codexModel : String := "gpt-5.6-sol"
  codexModelPolicy : CatalogSelectionPolicy := .auto
  codexReasoningEffort : CodexReasoningEffort := .medium
  codexReasoningEffortPolicy : CatalogSelectionPolicy := .auto
  codexRawReasoningEnabled : Bool := false
  codexSpeed : CodexSpeed := .standard
  codexServiceTierPolicy : CatalogSelectionPolicy := .auto
  codexSandboxLevel : CodexSandboxLevel := .workspaceWrite
  deriving DecidableEq

structure RoomConfig extends RoomSettings where
  configRevision : ℕ := 0
  configEpoch : ℕ := 0
  configPending : Bool := true
  deriving DecidableEq

structure ClientRoomRecord extends RoomRecord where
  config : RoomConfig := {}
  unread : ℕ := 0
  deriving DecidableEq

/-- `RoomConfigPlaintextPayload`. -/
structure RoomConfigPayload extends RoomSettings where
  configRevision : ℕ
  emittingEpoch : ℕ
  deriving DecidableEq

def maxProjectPathChars : ℕ := 2048
def maxCodexModelChars : ℕ := 80

/-- The schema `RoomConfigPlaintextPayload`. -/
@[grind =] def RoomConfigPayload.isValid (payload : RoomConfigPayload) : Bool :=
  0 < payload.configRevision && isCount payload.configRevision && isCount payload.emittingEpoch &&
    boundedString 1 maxProjectPathChars payload.projectPath &&
    boundedString 1 maxCodexModelChars payload.codexModel

/-- The envelope of a snapshot, with what `safeParse` makes of its plaintext. The epoch hint is the
epoch that MLS has authenticated. -/
structure ConfigEnvelope where
  senderUserId : String
  senderDeviceId : String
  epochHint : ℕ
  payload : Option RoomConfigPayload
  deriving DecidableEq

/-! ### The store -/

/-- `{ ...previous, ...room }` on the metadata that the relay knows; an absent key keeps its value. -/
def RoomRecord.over (room previous : RoomRecord) : RoomRecord :=
  { room with
    acceptedMlsEpoch := room.acceptedMlsEpoch <|> previous.acceptedMlsEpoch
    hostUserId := room.hostUserId <|> previous.hostUserId
    activeHostDeviceId := room.activeHostDeviceId <|> previous.activeHostDeviceId
    archivedAt := room.archivedAt <|> previous.archivedAt
    deletedAt := room.deletedAt <|> previous.deletedAt }

/-- `roomMlsConfig`; an empty model is the default one. -/
def roomMlsConfig (config : RoomConfig) : RoomConfig :=
  if config.codexModel = "" then
    { config with codexModel := ({} : RoomSettings).codexModel }
  else config

/-- `ensureRoomDefaults(room, previous)`, for a room with or without a configuration. -/
def ensureRoomDefaults (room : RoomRecord) (config : Option RoomConfig)
    (previous : ClientRoomRecord) : ClientRoomRecord where
  toRoomRecord := RoomRecord.over room previous.toRoomRecord
  config := match config.filter (·.projectPath ≠ "") with
    | some config => roomMlsConfig config
    | none => roomMlsConfig previous.config
  unread := previous.unread

/-- `replaceRoomRecord`, on the record of one room. -/
def replaceRoomRecord (existing : Option ClientRoomRecord) (room : ClientRoomRecord) :
    Option ClientRoomRecord :=
  if room.deletedAt.isSome then none
  else existing.map (ensureRoomDefaults room.toRoomRecord (some room.config))

/-! ### Snapshots -/

def roomConfigPayload (room : ClientRoomRecord) (emittingEpoch configRevision : ℕ) :
    RoomConfigPayload :=
  { room.config.toRoomSettings with configRevision, emittingEpoch }

@[grind =] def shouldApplyRoomConfig (room : ClientRoomRecord) (payload : RoomConfigPayload)
    (authenticatedEpoch : ℕ) : Bool :=
  if payload.emittingEpoch ≠ authenticatedEpoch then false
  else if authenticatedEpoch < room.config.configEpoch then false
  else room.config.configEpoch < authenticatedEpoch ||
    room.config.configRevision < payload.configRevision

def applyRoomConfig (room : ClientRoomRecord) (payload : RoomConfigPayload)
    (authenticatedEpoch : ℕ) : ClientRoomRecord :=
  if shouldApplyRoomConfig room payload authenticatedEpoch then
    { room with config :=
      { payload.toRoomSettings with
        configRevision := payload.configRevision
        configEpoch := authenticatedEpoch
        configPending := false } }
  else room

/-- `isEnvelopeFromActiveRoomHost`; an empty id counts as none. -/
def fromActiveRoomHost (room : RoomRecord) (envelope : ConfigEnvelope) : Bool :=
  room.hostStatus = .active && room.hostUserId = some envelope.senderUserId &&
    room.activeHostDeviceId = some envelope.senderDeviceId && envelope.senderUserId ≠ "" &&
    envelope.senderDeviceId ≠ ""

/-- `routeRoomConfig`. -/
def routeRoomConfig (record : Option ClientRoomRecord) (envelope : ConfigEnvelope) :
    Option ClientRoomRecord :=
  match envelope.payload.filter (·.isValid), record with
  | some payload, some room =>
    if fromActiveRoomHost room.toRoomRecord envelope then
      if shouldApplyRoomConfig room payload envelope.epochHint then
        replaceRoomRecord record (applyRoomConfig room payload envelope.epochHint)
      else record
    else record
  | _, _ => record

/-- `resolveRoomConfigForPublish`: a host that has lost the configuration takes the saved one. -/
def resolveRoomConfigForPublish (room : ClientRoomRecord) (persisted : Option RoomConfigPayload) :
    Option ClientRoomRecord :=
  if room.config.projectPath ≠ "" then some room
  else (persisted.filter (·.isValid)).map fun payload ↦
    { room with config :=
      { payload.toRoomSettings with
        configRevision := payload.configRevision
        configEpoch := payload.emittingEpoch
        configPending := false } }

/-- A character of a model name. -/
def isModelChar (c : Char) : Bool := c.isAlphanum || c ∈ ['.', '_', ':', '/', '-']

/-- `char::is_control`. -/
def isControl (c : Char) : Bool := c.toNat < 0x20 || (0x7f ≤ c.toNat && c.toNat < 0xa0)

/-- `bounded_text` of the native side, which counts bytes. -/
def boundedText (value : String) (max : ℕ) : Bool :=
  value ≠ "" && value.utf8ByteSize ≤ max && !value.toList.any isControl

/-- `validate_room_config_payload`; the choices are valid as they are. -/
def validateRoomConfigPayload (payload : RoomConfigPayload) : Bool :=
  payload.configRevision ≠ 0 && boundedText payload.projectPath 2048 &&
    boundedText payload.codexModel 80 &&
    (payload.codexModel.toList.head?.any Char.isAlphanum) &&
    payload.codexModel.toList.all isModelChar

/-! ### The host and a member -/

/-- Where `publishRoomConfigSnapshot` is. -/
inductive PublishTask where
  | captured (room : ClientRoomRecord) (incrementRevision : Bool)
  | resolved (room : ClientRoomRecord) (incrementRevision : Bool)
  /-- The payload is made; what follows is one native command. -/
  | prepared (room : ClientRoomRecord) (payload : RoomConfigPayload)
  /-- The snapshot is in the outbox. -/
  | sent (updated : ClientRoomRecord)

structure ConfigHost where
  userId : String
  deviceId : String
  record : Option ClientRoomRecord
  epoch : ℕ
  /-- The configuration in the encrypted store. -/
  persisted : Option RoomConfigPayload := none
  tasks : ℕ → Option PublishTask := fun _ ↦ none
  /-- The snapshots that have been encrypted. The program does not keep them. -/
  encrypted : List RoomConfigPayload := []

structure ConfigSystem where
  host : ConfigHost
  member : Option ClientRoomRecord

inductive ConfigAction where
  /-- Other code of the host writes the record. -/
  | update (record : Option ClientRoomRecord)
  /-- A Commit moves the group on. -/
  | commit
  | publish (task : ℕ) (room : ClientRoomRecord) (incrementRevision : Bool)
  | resolve (task : ℕ)
  | readEpoch (task : ℕ)
  | encrypt (task : ℕ) (encrypts : Bool)
  | acknowledge (task : ℕ) (acknowledged : Bool)
  | deliver (envelope : ConfigEnvelope)
  /-- The relay tells a member about the room. -/
  | relayUpdate (room : RoomRecord)

inductive ConfigEvent where
  | published (envelope : ConfigEnvelope) (payload : RoomConfigPayload)
  /-- A publication writes the host's record. -/
  | stored (before after : Option ClientRoomRecord)
  | delivered (envelope : ConfigEnvelope)
  | failed
  deriving DecidableEq

namespace ConfigHost

variable (h : ConfigHost)

def setTask (task : ℕ) (state : Option PublishTask) : ConfigHost :=
  { h with tasks := Function.update h.tasks task state }

def fails (task : ℕ) : ConfigHost × List ConfigEvent := (h.setTask task none, [.failed])

def publish (task : ℕ) (room : ClientRoomRecord) (incrementRevision : Bool) :
    ConfigHost × List ConfigEvent :=
  match h.tasks task with
  | some _ => (h, [])
  | none => (h.setTask task (some (.captured room incrementRevision)), [])

def resolve (task : ℕ) : ConfigHost × List ConfigEvent :=
  match h.tasks task with
  | some (.captured room incrementRevision) =>
    match resolveRoomConfigForPublish room h.persisted with
    | some room => (h.setTask task (some (.resolved room incrementRevision)), [])
    | none => h.fails task
  | _ => (h, [])

/-- `currentMlsEpoch`, and the payload for it. -/
def readEpoch (task : ℕ) : ConfigHost × List ConfigEvent :=
  match h.tasks task with
  | some (.resolved room incrementRevision) =>
    let revision :=
      if incrementRevision then room.config.configRevision + 1 else room.config.configRevision
    let payload := roomConfigPayload room h.epoch revision
    if payload.isValid then (h.setTask task (some (.prepared room payload)), [])
    else h.fails task
  | _ => (h, [])

/-- The command `mls_encrypt_application`. -/
@[grind =] def encrypt (task : ℕ) (encrypts : Bool) : ConfigHost × List ConfigEvent :=
  match h.tasks task with
  | some (.prepared room payload) =>
    if !validateRoomConfigPayload payload || payload.emittingEpoch ≠ h.epoch then h.fails task
    else
      let saved := { h with persisted := some payload }
      if encrypts then
        let updated := { room with config :=
          { room.config with
            configRevision := payload.configRevision
            configEpoch := payload.emittingEpoch
            configPending := false } }
        ({ saved with encrypted := h.encrypted ++ [payload] }.setTask task (some (.sent updated)),
          [.published
            { senderUserId := h.userId, senderDeviceId := h.deviceId, epochHint := h.epoch
              payload := some payload } payload])
      else saved.fails task
  | _ => (h, [])

/-- The relay has answered; the captured record is written back. -/
def acknowledge (task : ℕ) (acknowledged : Bool) : ConfigHost × List ConfigEvent :=
  match h.tasks task with
  | some (.sent updated) =>
    if acknowledged then
      let record := replaceRoomRecord h.record updated
      ({ h with record }.setTask task none, [.stored h.record record])
    else h.fails task
  | _ => (h, [])

end ConfigHost

namespace ConfigSystem

variable (s : ConfigSystem)

def ofHost (r : ConfigHost × List ConfigEvent) : ConfigSystem × List ConfigEvent :=
  ({ s with host := r.1 }, r.2)

/-- What a member makes of relay metadata; a deleted room is gone. -/
def relayUpdate (room : RoomRecord) : Option ClientRoomRecord :=
  if room.deletedAt.isSome then none else s.member.map (ensureRoomDefaults room none)

@[grind =] def step (s : ConfigSystem) : ConfigAction → ConfigSystem × List ConfigEvent
  | .update record => ({ s with host := { s.host with record } }, [])
  | .commit => ({ s with host := { s.host with epoch := s.host.epoch + 1 } }, [])
  | .publish task room incrementRevision => s.ofHost (s.host.publish task room incrementRevision)
  | .resolve task => s.ofHost (s.host.resolve task)
  | .readEpoch task => s.ofHost (s.host.readEpoch task)
  | .encrypt task encrypts => s.ofHost (s.host.encrypt task encrypts)
  | .acknowledge task acknowledged => s.ofHost (s.host.acknowledge task acknowledged)
  | .deliver envelope =>
    ({ s with member := routeRoomConfig s.member envelope }, [.delivered envelope])
  | .relayUpdate room => ({ s with member := s.relayUpdate room }, [])

end ConfigSystem

end MultAIplayer.Desktop
