import MultAIplayer.Mls.Storage

/-!
# The MLS engine

The loaded groups of a device and the operations on them. An operation returns the engine that it
leaves behind also when it fails: what it did to a loaded group before the failure stays.
-/

namespace MultAIplayer.Mls

inductive EngineErrorCategory where
  | storage
  | protocol
  | serialization
  | crypto
  | internal
  deriving DecidableEq

/-- The errors of the engine, without the rendered cause. -/
inductive EngineError where
  | invalidInput
  | failure (category : EngineErrorCategory) (operation : String)
  | groupNotFound
  | notHost
  | unexpectedMessage
  | requiresRejoin (operation : String)
  deriving DecidableEq

structure ApplicationAuthenticatedDataInput where
  version : ℕ
  messageId : String
  teamId : String
  roomId : String
  kind : String
  senderUserId : String
  senderDeviceId : String
  createdAt : String
  deriving DecidableEq

structure ApplicationAuthenticatedData extends ApplicationAuthenticatedDataInput where
  epoch : ℕ
  deriving DecidableEq

structure ApplicationOutput where
  senderLeaf : ℕ
  epoch : ℕ
  authenticatedData : Bytes
  payload : Bytes
  deriving DecidableEq

structure OutboundApplication where
  message : Bytes
  outboxId : String
  epoch : ℕ
  authenticatedData : Bytes
  deriving DecidableEq

structure OutboundCommit where
  message : Bytes
  outboxId : String
  parentEpoch : ℕ
  deriving DecidableEq

structure AddMemberOutput where
  commit : Bytes
  welcome : Bytes
  epoch : ℕ
  commitOutboxId : String
  welcomeOutboxId : String
  deriving DecidableEq

structure JoinAdmissionMetadata where
  inviteId : String
  teamId : String
  roomId : String
  requestId : String
  requesterUserId : String
  requesterDeviceId : String
  deriving DecidableEq

/-- What an admitted invite leaves behind. -/
structure InviteConsumption where
  capabilityHandle : String
  bindingHash : String
  keyPackageHash : String
  responseBinding : CapabilityBinding
  responseMac : String
  deriving DecidableEq

/-- What the addition of an invited member consumes. -/
def inviteConsumption (metadata : WelcomeRetryMetadata) (capabilityHandle bindingHash : String) :
    InviteConsumption :=
  ⟨capabilityHandle, bindingHash, metadata.keyPackageHash, metadata.responseBinding,
    metadata.responseMac⟩

/-- The libraries, and the JSON encoders of the engine's own records. -/
structure Libraries (K : Type) extends MlsRs K where
  encodeMetadata : OutboxMetadata → Bytes
  encodeAuthenticatedData : ApplicationAuthenticatedData → Bytes

def Libraries.encodedLength {K : Type} (lib : Libraries K) (metadata : OutboxMetadata) : ℕ :=
  (lib.encodeMetadata metadata).length

/-- `MlsEngine`. -/
structure Engine (K : Type) where
  groups : InsertionMap String (Group K) := .empty
  hosts : InsertionMap String HostContext := .empty
  pendingHosts : InsertionMap String HostContext := .empty
  selfDeviceId : String
  selfUserId : String
  storage : Storage K := {}

def maxMessage : ℕ := 1024 * 1024

def bounded (bytes : Bytes) : Bool := !bytes.isEmpty && bytes.length ≤ maxMessage

/-- `valid_room`, the same test as `validate_component`. -/
def validRoom (value : String) : Bool := validateComponent value

def validAuthenticatedText (value : String) (maxLen : ℕ) : Bool :=
  !value.isEmpty && Text.utf8Length value ≤ maxLen && value.toList.all fun c ↦ !Text.isControl c

namespace Engine

variable {K : Type} (lib : Libraries K) (call : Call) (e : Engine K)

def setGroup (roomId : String) (g : Group K) : Engine K :=
  { e with groups := e.groups.set roomId g }

def setStorage (storage : Storage K) : Engine K := { e with storage }

/-- The guard of the staged write is dropped. -/
def dropGuard : Engine K := e.setStorage e.storage.clearAllStaged

/-- `group.write_to_storage()` on a loaded group. -/
def writeToStorage (roomId : String) (g : Group K) : Except EngineError (Engine K) :=
  match e.storage.write call g with
  | .error _ => .error (.failure .storage "write_group_state")
  | .ok (storage, g) => .ok ((e.setStorage storage).setGroup roomId g)

/-- An operation that first finds out what it will do, and changes something only then. -/
def attempt {α β : Type} (prepared : Except EngineError α)
    (finish : α → Engine K × Except EngineError β) : Engine K × Except EngineError β :=
  match prepared with
  | .error error => (e, .error error)
  | .ok a => finish a

/-- A storage result as a result of the engine. -/
def storageFailure {α : Type} (category : EngineErrorCategory) (operation : String) :
    Except StoreError α → Except EngineError α
  | .error _ => .error (.failure category operation)
  | .ok value => .ok value

/-! ### Guards -/

def currentEpoch (roomId : String) : Except EngineError ℕ :=
  match e.groups.get roomId with
  | none => .error .groupNotFound
  | some g => .ok g.currentEpoch

def ensureHost (roomId : String) : Except EngineError Unit :=
  match e.hosts.get roomId with
  | none => .error .notHost
  | some host =>
    match e.groups.get roomId with
    | none => .error .groupNotFound
    | some g =>
      if host.hostDeviceId != e.selfDeviceId || g.selfIndex != host.hostLeaf then .error .notHost
      else .ok ()

def ensureApplicationOutboxDrained (roomId : String) : Except EngineError Unit :=
  match e.storage.hasRoomOutboxKind call roomId .application with
  | .error _ => .error (.failure .storage "check_application_outbox")
  | .ok true => .error .invalidInput
  | .ok false => .ok ()

/-- The guards of an operation that builds a Commit. -/
def ensureCanCommit (roomId : String) : Except EngineError Unit :=
  match e.ensureHost roomId with
  | .error error => .error error
  | .ok _ => e.ensureApplicationOutboxDrained call roomId

/-! ### Creating, joining and opening -/

/-- `stage_current_history_secret`. -/
def stageCurrentHistorySecret (roomId : String) (g : Group K) : Except EngineError (Engine K) :=
  match lib.exportHistorySecret g.epoch with
  | none => .error (.failure .crypto "derive_history_secret")
  | some secret =>
    match e.storage.stageHistorySecret roomId g.currentEpoch secret with
    | .error _ => .error (.failure .storage "stage_outbox_item")
    | .ok storage => .ok (e.setStorage storage)

def createGroup (roomId : String) : Engine K × Except EngineError ℕ :=
  if !validRoom roomId then (e, .error .invalidInput)
  else
    let host : HostContext := ⟨2, 0, e.selfDeviceId, none⟩
    match lib.create roomId (hostExtension lib.serde host) call.entropy with
    | none => (e, .error (.failure .protocol "create_group"))
    | some g =>
      match e.stageCurrentHistorySecret lib roomId g with
      | .error error => (e.dropGuard, .error error)
      | .ok staged =>
        match staged.writeToStorage call roomId g with
        | .error error => (e.dropGuard, .error error)
        | .ok written =>
          ({ written with hosts := e.hosts.set roomId host }.dropGuard, .ok g.currentEpoch)

/-- `join_welcome_internal`. -/
def joinWelcomeInternal (roomId : String) (welcome : Bytes)
    (receipt : Option (JoinAdmissionMetadata × String)) : Engine K × Except EngineError ℕ :=
  if !validRoom roomId || !bounded welcome then (e, .error .invalidInput)
  else
    match lib.header welcome with
    | none => (e, .error (.failure .serialization "decode_welcome_message"))
    | some header =>
      if header.cipherSuite != some mlsCiphersuiteId then (e, .error .invalidInput)
      else
        match lib.join welcome with
        | none => (e, .error (.failure .protocol "join_group"))
        | some g =>
          if g.groupId != roomId then (e, .error .invalidInput)
          else
            match g.validateHost lib.toMlsRs with
            | .error _ => (e, .error .invalidInput)
            | .ok host =>
              match e.stageCurrentHistorySecret lib roomId g with
              | .error error => (e.dropGuard, .error error)
              | .ok staged =>
                match stageJoin staged.storage g receipt with
                | .error _ => (e.dropGuard, .error (.failure .storage "stage_join_receipt"))
                | .ok storage =>
                  match (staged.setStorage storage).writeToStorage call roomId g with
                  | .error error => (e.dropGuard, .error error)
                  | .ok written =>
                    ({ written with hosts := e.hosts.set roomId host }.dropGuard,
                      .ok g.currentEpoch)
where
  stageJoin (storage : Storage K) (g : Group K) :
      Option (JoinAdmissionMetadata × String) → Except StoreError (Storage K)
    | none => .ok storage
    | some (admission, responseHash) => storage.stageJoinReceipt
        { inviteId := admission.inviteId
          teamId := admission.teamId
          roomId := admission.roomId
          requestId := admission.requestId
          requesterUserId := admission.requesterUserId
          requesterDeviceId := admission.requesterDeviceId
          responseHash
          epoch := g.currentEpoch }

def joinWelcome (roomId : String) (welcome : Bytes) : Engine K × Except EngineError ℕ :=
  e.joinWelcomeInternal lib call roomId welcome none

def joinWelcomeForInvite (welcome : Bytes) (admission : JoinAdmissionMetadata)
    (responseHash : String) : Engine K × Except EngineError ℕ :=
  if !validRoom admission.roomId then (e, .error .invalidInput)
  else
    match e.storage.joinReceipt call admission.requestId with
    | .error _ => (e, .error (.failure .storage "load_join_receipt"))
    | .ok (some receipt) =>
      if receipt.responseHash = responseHash && receipt.roomId = admission.roomId &&
          receipt.inviteId = admission.inviteId && receipt.teamId = admission.teamId &&
          receipt.requesterUserId = admission.requesterUserId &&
          receipt.requesterDeviceId = admission.requesterDeviceId then
        (e, .ok receipt.epoch)
      else (e, .error .invalidInput)
    | .ok none => e.joinWelcomeInternal lib call admission.roomId welcome (some (admission, responseHash))

def openGroup (roomId : String) : Engine K × Except EngineError ℕ :=
  if !validRoom roomId then (e, .error .invalidInput)
  else
    match e.storage.hasGroupSnapshot call roomId with
    | .error _ => (e, .error (.failure .storage "check_group_snapshot"))
    | .ok stored =>
      match if call.fault .loadGroup then none else e.storage.durable.groups.get roomId with
      | none =>
        (e, .error (if stored then .requiresRejoin "load_group" else .groupNotFound))
      | some state =>
        let g : Group K := { state with }
        match g.validateHost lib.toMlsRs with
        | .error _ => (e, .error (.failure .protocol "validate_stored_host_context"))
        | .ok host =>
          ({ e.setGroup roomId g with hosts := e.hosts.set roomId host }, .ok g.currentEpoch)

/-! ### Forgetting -/

/-- `clear_room_cache`. -/
def clearRoomCache (roomId : String) : Engine K :=
  { e with
    groups := e.groups.delete roomId
    hosts := e.hosts.delete roomId
    pendingHosts := e.pendingHosts.delete roomId }

def forgetGroup (roomId : String) : Engine K × Except EngineError Unit :=
  if !validRoom roomId then (e, .error .invalidInput)
  else
    e.attempt (storageFailure .storage "delete_room_records" (e.storage.deleteRoomRecords call roomId))
      fun storage ↦ ((e.setStorage storage).clearRoomCache roomId, .ok ())

/-- A group that does not open any more is forgotten. One that opens is open from then on. -/
def forgetCorruptGroup (roomId : String) : Engine K × Except EngineError Unit :=
  match e.openGroup lib call roomId with
  | (e, .error (.requiresRejoin _)) =>
    e.attempt (storageFailure .storage "delete_corrupt_group"
        (e.storage.deleteCorruptGroupRecords call roomId))
      fun storage ↦ ((e.setStorage storage).clearRoomCache roomId, .ok ())
  | (e, _) => (e, .error .invalidInput)

/-- The process ends and a new one starts on the same database. -/
@[grind =] def restart : Engine K :=
  { selfDeviceId := e.selfDeviceId
    selfUserId := e.selfUserId
    storage := e.storage.clearAllStaged }

/-! ### What an operation leaves alone -/

variable {lib call e} {e' : Engine K} {roomId : String}

/-- An attempt fails before it changes anything, or it finishes. -/
theorem attempt_cases {α β : Type} (prepared : Except EngineError α)
    (finish : α → Engine K × Except EngineError β) :
    (∃ error, prepared = .error error ∧ e.attempt prepared finish = (e, .error error)) ∨
      ∃ a, prepared = .ok a ∧ e.attempt prepared finish = finish a := by
  cases prepared with
  | error error => exact .inl ⟨error, rfl, rfl⟩
  | ok a => exact .inr ⟨a, rfl, rfl⟩

@[simp] theorem groups_dropGuard : e.dropGuard.groups = e.groups := rfl

@[simp] theorem hosts_dropGuard : e.dropGuard.hosts = e.hosts := rfl

@[simp] theorem groups_setStorage (s : Storage K) : (e.setStorage s).groups = e.groups := rfl

@[simp] theorem hosts_setStorage (s : Storage K) : (e.setStorage s).hosts = e.hosts := rfl

@[simp] theorem storage_setStorage (s : Storage K) : (e.setStorage s).storage = s := rfl

@[simp] theorem groups_setGroup (g : Group K) :
    (e.setGroup roomId g).groups = e.groups.set roomId g := rfl

@[simp] theorem hosts_setGroup (g : Group K) : (e.setGroup roomId g).hosts = e.hosts := rfl

@[simp] theorem storage_setGroup (g : Group K) : (e.setGroup roomId g).storage = e.storage := rfl

/-- A write changes the storage, and the group by what it no longer has to write. -/
theorem writeToStorage_eq_ok {g : Group K} (h : e.writeToStorage call roomId g = .ok e') :
    ∃ s, e.storage.write call g = .ok (s, g.written) ∧
      e' = (e.setStorage s).setGroup roomId g.written := by
  unfold writeToStorage at h
  split at h
  · cases h
  · rename_i s g' hwrite
    obtain ⟨rfl, -⟩ := Storage.write_eq_ok hwrite
    cases h
    exact ⟨s, hwrite, rfl⟩

end Engine

end MultAIplayer.Mls
