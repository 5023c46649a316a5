import MultAIplayer.Mls.Engine

/-!
# Operations on a room

Messages in and out, the three Commits of a host, and what becomes of an outbox item.

An operation first finds out what it needs, then changes the loaded group, then stages its records
and writes. Each is written as that: what it prepares, up to the mls-rs call that changes the group,
and how it finishes. What fails while it finishes, fails after the change.
-/

namespace MultAIplayer.Mls

namespace Engine

variable {K : Type} (lib : Libraries K) (call : Call) (e : Engine K)

/-- Some staged mutations, or the error of the first that failed. -/
def stageThenWrite (roomId : String) (g : Group K)
    (staged : Except EngineError (Storage K)) : Except EngineError (Engine K) :=
  match staged with
  | .error error => .error error
  | .ok storage => (e.setStorage storage).writeToStorage call roomId g

variable {call e} in
theorem stageThenWrite_eq_ok {e' : Engine K} {roomId : String} {g : Group K}
    {staged : Except EngineError (Storage K)} (h : e.stageThenWrite call roomId g staged = .ok e') :
    ∃ storage s, staged = .ok storage ∧ storage.write call g = .ok (s, g.written) ∧
      e' = (e.setStorage s).setGroup roomId g.written := by
  unfold stageThenWrite at h
  split at h
  · cases h
  · rename_i storage
    obtain ⟨s, hwrite, rfl⟩ := writeToStorage_eq_ok h
    exact ⟨storage, s, rfl, hwrite, rfl⟩

/-! ### Messages -/

/-- `persist_outbound_with_id`. -/
def persistOutboundWithId (roomId : String) (g : Group K) (item : OutboxItem) :
    Except EngineError (Engine K) :=
  e.stageThenWrite call roomId g
    (storageFailure .protocol "clear_pending_commit"
      (e.storage.stageOutbox call lib.encodedLength item))

def validApplicationInput (roomId messageId : String) (payload : Bytes)
    (input : ApplicationAuthenticatedDataInput) : Bool :=
  validRoom messageId && bounded payload && input.version = 1 && input.messageId = messageId &&
    input.roomId = roomId && validAuthenticatedText input.teamId 128 &&
    validAuthenticatedText input.kind 128 && validAuthenticatedText input.senderUserId 128 &&
    validAuthenticatedText input.senderDeviceId 128 && validAuthenticatedText input.createdAt 64

/-- The message, its authenticated data and the group that has encrypted it. -/
def prepareApplication (roomId messageId : String) (payload : Bytes)
    (input : ApplicationAuthenticatedDataInput) : Except EngineError (Bytes × Bytes × Group K) :=
  if !validApplicationInput roomId messageId payload input then .error .invalidInput
  else
    match e.storage.outboxItem call .checkApplicationOutbox messageId with
    | .error _ => .error (.failure .storage "check_application_outbox")
    | .ok (some _) => .error .invalidInput
    | .ok none =>
      match e.groups.get roomId with
      | none => .error .groupNotFound
      | some g =>
        let authenticatedData := lib.encodeAuthenticatedData { input with epoch := g.currentEpoch }
        if authenticatedData.length > 4096 then .error .invalidInput
        else
          match g.encryptApplicationMessage lib.toMlsRs payload authenticatedData call.entropy with
          | none => .error (.failure .protocol "encrypt_application")
          | some (message, g) => .ok (message, authenticatedData, g)

variable {lib call e} in
theorem prepareApplication_eq_ok {roomId messageId : String} {payload : Bytes}
    {input : ApplicationAuthenticatedDataInput} {message authenticatedData : Bytes} {g' : Group K}
    (h : e.prepareApplication lib call roomId messageId payload input =
      .ok (message, authenticatedData, g')) :
    ∃ g secrets, e.groups.get roomId = some g ∧ g' = g.withSecrets secrets ∧
      authenticatedData = lib.encodeAuthenticatedData { input with epoch := g.currentEpoch } := by
  unfold prepareApplication at h
  split at h
  · cases h
  split at h
  · cases h
  · cases h
  split at h
  · cases h
  rename_i g hgroup
  dsimp only at h
  split at h
  · cases h
  split at h
  · cases h
  · rename_i hencrypt
    cases h
    obtain ⟨⟨_, secrets⟩, -, hg⟩ := Option.map_eq_some_iff.mp hencrypt
    cases hg
    exact ⟨g, secrets, hgroup, rfl, rfl⟩

def finishApplication (roomId messageId : String) (message authenticatedData : Bytes)
    (g : Group K) : Engine K × Except EngineError OutboundApplication :=
  let changed := e.setGroup roomId g
  match changed.persistOutboundWithId lib call roomId g ⟨messageId, roomId, g.currentEpoch,
      .application, message, some (.application authenticatedData)⟩ with
  | .error error => (changed.dropGuard, .error error)
  | .ok written => (written.dropGuard, .ok ⟨message, messageId, g.currentEpoch, authenticatedData⟩)

def encryptApplication (roomId messageId : String) (payload : Bytes)
    (input : ApplicationAuthenticatedDataInput) : Engine K × Except EngineError OutboundApplication :=
  e.attempt (e.prepareApplication lib call roomId messageId payload input)
    fun (message, authenticatedData, g) ↦
      e.finishApplication lib call roomId messageId message authenticatedData g

/-- An accepted Commit of another member. -/
def applyReceivedCommit (roomId : String) (g : Group K) :
    Engine K × Except EngineError (Option ApplicationOutput) :=
  let changed := e.setGroup roomId g
  match g.validateHost lib.toMlsRs with
  | .error _ => (changed, .error (.failure .protocol "validate_commit_host_context"))
  | .ok next =>
    match lib.exportHistorySecret g.epoch with
    | none => (changed, .error (.failure .crypto "derive_history_secret"))
    | some secret =>
      match changed.stageThenWrite call roomId g (storageFailure .storage "stage_history_secret"
          (changed.storage.stageHistorySecret roomId g.currentEpoch secret)) with
      | .error error => (changed.dropGuard, .error error)
      | .ok written => ({ written with hosts := e.hosts.set roomId next }.dropGuard, .ok none)

/-- What is done with a message that mls-rs has processed. -/
def applyReceived (roomId : String) (hintedEpoch : Option ℕ) (received : ReceivedMessage)
    (g : Group K) : Engine K × Except EngineError (Option ApplicationOutput) :=
  let changed := e.setGroup roomId g
  match received with
  | .applicationMessage sender authenticatedData payload =>
    match changed.writeToStorage call roomId g with
    | .error error => (changed, .error error)
    | .ok written =>
      (written, .ok (some ⟨sender, hintedEpoch.getD g.currentEpoch, authenticatedData, payload⟩))
  | .commit => e.applyReceivedCommit lib call roomId g
  | .other => (changed, .error .unexpectedMessage)

/-- An unacknowledged Commit of this device in the outbox. -/
def isCommitEcho (roomId : String) (message : Bytes) (item : OutboxItem) : Bool :=
  item.roomId = roomId && item.kind.isCommit && item.payload = message

/-- Whether a message is an application message that is still in the outbox. -/
def isApplicationEcho (roomId : String) (message : Bytes) :
    Option ℕ → Except StoreError Bool
  | none => .ok false
  | some epoch =>
    (e.storage.outboxForRoomEpoch call roomId epoch).map fun items ↦
      items.any fun item ↦ item.kind = .application && item.payload = message

/-- What mls-rs makes of a message, or nothing for an echo. -/
def prepareIncoming (roomId : String) (message : Bytes) :
    Except EngineError (Option (Option ℕ × ReceivedMessage × Group K)) :=
  if !bounded message then .error .invalidInput
  else
    match e.storage.outboxItem call .loadIncomingOutbox (lib.digest message) with
    | .error _ => .error (.failure .storage "load_incoming_outbox")
    | .ok item =>
      -- the relay may replay our Commit before its acknowledgement, only publish_succeeded applies it
      if item.any (isCommitEcho roomId message) then .ok none
      else
        match lib.header message with
        | none => .error (.failure .serialization "decode_incoming_message")
        | some header =>
          match e.isApplicationEcho call roomId message header.epoch with
          | .error _ => .error (.failure .storage "load_epoch_outbox")
          | .ok true => .ok none
          | .ok false =>
            match e.groups.get roomId with
            | none => .error .groupNotFound
            | some g =>
              match g.processIncomingMessage lib.toMlsRs message with
              | none => .error (.failure .protocol "process_incoming_message")
              | some (received, g) => .ok (some (header.epoch, received, g))

variable {lib call e} in
theorem prepareIncoming_eq_ok {roomId : String} {message : Bytes} {hintedEpoch : Option ℕ}
    {received : ReceivedMessage} {g' : Group K}
    (h : e.prepareIncoming lib call roomId message = .ok (some (hintedEpoch, received, g'))) :
    ∃ g, e.groups.get roomId = some g ∧
      g.processIncomingMessage lib.toMlsRs message = some (received, g') ∧
      ∀ item, e.storage.durable.outbox.get (lib.digest message) = some item →
        isCommitEcho roomId message item = false := by
  unfold prepareIncoming at h
  split at h
  · cases h
  split at h
  · cases h
  rename_i item hitem
  split at h
  · cases h
  rename_i hecho
  split at h
  · cases h
  split at h
  · cases h
  · cases h
  split at h
  · cases h
  rename_i g hgroup
  split at h
  · cases h
  · rename_i hprocess
    cases h
    refine ⟨g, hgroup, hprocess, fun found hfound ↦ ?_⟩
    rw [Storage.access_eq_ok hitem, hfound] at hecho
    simpa using hecho

/-- What is done with a message that mls-rs has processed. -/
def finishIncoming (roomId : String) :
    Option (Option ℕ × ReceivedMessage × Group K) →
      Engine K × Except EngineError (Option ApplicationOutput)
  | none => (e, .ok none)
  | some (hintedEpoch, received, g) => e.applyReceived lib call roomId hintedEpoch received g

def processIncoming (roomId : String) (message : Bytes) :
    Engine K × Except EngineError (Option ApplicationOutput) :=
  e.attempt (e.prepareIncoming lib call roomId message) (e.finishIncoming lib call roomId)

/-! ### The Commits of a host -/

/-- The Commit of an operation that its guards allow, and the group that holds it as pending. -/
def prepareCommit (roomId : String) (guards : Except EngineError Unit) (proposals : ProposalBundle)
    (authenticatedData : Bytes) (stageLabel buildLabel : String) :
    Except EngineError (CommitOutput K × Group K) :=
  match guards with
  | .error error => .error error
  | .ok _ =>
    match e.groups.get roomId with
    | none => .error .groupNotFound
    | some g =>
      if !lib.acceptsProposals g.toGroupState proposals then .error (.failure .protocol stageLabel)
      else
        match g.buildCommit lib.toMlsRs proposals authenticatedData call.entropy with
        | none => .error (.failure .protocol buildLabel)
        | some built => .ok built

variable {lib call e} in
theorem prepareCommit_eq_ok {roomId : String} {guards : Except EngineError Unit}
    {proposals : ProposalBundle} {authenticatedData : Bytes} {stageLabel buildLabel : String}
    {output : CommitOutput K} {g' : Group K}
    (h : e.prepareCommit lib call roomId guards proposals authenticatedData stageLabel buildLabel =
      .ok (output, g')) :
    ∃ g, e.groups.get roomId = some g ∧
      g.buildCommit lib.toMlsRs proposals authenticatedData call.entropy = some (output, g') := by
  unfold prepareCommit at h
  split at h
  · cases h
  split at h
  · cases h
  rename_i g hgroup
  split at h
  · cases h
  split at h
  · cases h
  · rename_i hbuild
    cases h
    exact ⟨g, hgroup, hbuild⟩

/-- The records of a Commit are staged and written, under a guard of the staged write. -/
def finishCommit {α : Type} (roomId : String) (g : Group K)
    (persist : Engine K → Except EngineError (Engine K × α)) : Engine K × Except EngineError α :=
  let changed := e.setGroup roomId g
  match persist changed with
  | .error error => (changed.dropGuard, .error error)
  | .ok (written, value) => (written.dropGuard, .ok value)

/-- The Commit, its Welcome and the invite receipt of an addition. -/
def stageAddMember (roomId : String) (parentEpoch : ℕ) (commit welcome : Bytes)
    (welcomeMetadata : Option WelcomeRetryMetadata) (receipt : Option InviteConsumption) :
    Except EngineError (Storage K) :=
  let commitItem : OutboxItem := ⟨lib.digest commit, roomId, parentEpoch + 1, .add, commit,
    some (.commit parentEpoch)⟩
  let welcomeItem : OutboxItem := ⟨lib.digest welcome, roomId, parentEpoch + 1, .welcome, welcome,
    welcomeMetadata.map .welcome⟩
  match e.storage.stageOutbox call lib.encodedLength commitItem with
  | .error _ => .error (.failure .serialization "encode_outbox_metadata")
  | .ok storage =>
    match storage.stageOutbox call lib.encodedLength welcomeItem with
    | .error _ => .error (.failure .serialization "encode_outbox_metadata")
    | .ok storage =>
      match receipt with
      | none => .ok storage
      | some receipt =>
        storageFailure .storage "stage_invite_receipt" (storage.stageInviteReceipt
          { capabilityHandle := receipt.capabilityHandle
            bindingHash := receipt.bindingHash
            keyPackageHash := receipt.keyPackageHash
            epoch := parentEpoch + 1
            commitOutboxId := commitItem.id
            welcomeOutboxId := welcomeItem.id
            responseBinding := receipt.responseBinding
            responseMac := receipt.responseMac })

/-- A denied invite is not admitted. -/
def ensureNotDenied : Option InviteConsumption → Except EngineError Unit
  | none => .ok ()
  | some receipt =>
    match e.storage.deniedInviteReceipt call receipt.capabilityHandle with
    | .error _ => .error (.failure .storage "load_denied_invite_receipt")
    | .ok (some _) => .error .invalidInput
    | .ok none => .ok ()

/-- The KeyPackage of an addition. -/
def checkKeyPackage (keyPackage : Bytes) : Except EngineError Unit :=
  match lib.header keyPackage with
  | none => .error (.failure .serialization "decode_key_package")
  | some header =>
    if header.cipherSuite != some mlsCiphersuiteId then .error .invalidInput else .ok ()

/-- What an addition finds out before it touches the group. -/
def addMemberGuards (roomId : String) (keyPackage : Bytes) (receipt : Option InviteConsumption) :
    Except EngineError Unit :=
  match e.ensureCanCommit call roomId with
  | .error error => .error error
  | .ok _ =>
    if !bounded keyPackage then .error .invalidInput
    else
      match e.ensureNotDenied call receipt with
      | .error error => .error error
      | .ok _ => checkKeyPackage lib keyPackage

def prepareAddMember (roomId : String) (keyPackage : Bytes) (receipt : Option InviteConsumption) :
    Except EngineError (CommitOutput K × Group K) :=
  e.prepareCommit lib call roomId (e.addMemberGuards lib call roomId keyPackage receipt)
    { additions := [keyPackage] } [] "add_member" "build_add_commit"

/-- The records of an addition. -/
def persistAddMember (roomId : String) (welcomeMetadata : Option WelcomeRetryMetadata)
    (receipt : Option InviteConsumption) (g : Group K) (output : CommitOutput K) :
    Except EngineError (Engine K × AddMemberOutput) :=
  match output.welcomes.head? with
  | none => .error (.failure .internal "select_welcome_message")
  | some welcome =>
    (e.stageThenWrite call roomId g (e.stageAddMember lib call roomId g.currentEpoch output.message
      welcome welcomeMetadata receipt)).map fun written ↦
        (written, ⟨output.message, welcome, g.currentEpoch + 1, lib.digest output.message,
          lib.digest welcome⟩)

def addMemberInternal (roomId : String) (keyPackage : Bytes)
    (welcomeMetadata : Option WelcomeRetryMetadata) (receipt : Option InviteConsumption) :
    Engine K × Except EngineError AddMemberOutput :=
  e.attempt (e.prepareAddMember lib call roomId keyPackage receipt) fun (output, g) ↦
    e.finishCommit roomId g fun e ↦
      e.persistAddMember lib call roomId welcomeMetadata receipt g output

def addMemberWithWelcomeMetadata (roomId : String) (keyPackage : Bytes)
    (welcomeMetadata : Option WelcomeRetryMetadata) : Engine K × Except EngineError AddMemberOutput :=
  e.addMemberInternal lib call roomId keyPackage welcomeMetadata none

def addMember (roomId : String) (keyPackage : Bytes) :
    Engine K × Except EngineError AddMemberOutput :=
  e.addMemberWithWelcomeMetadata lib call roomId keyPackage none

def addMemberForInvite (roomId : String) (keyPackage : Bytes)
    (welcomeMetadata : WelcomeRetryMetadata) (capabilityHandle bindingHash : String) :
    Engine K × Except EngineError AddMemberOutput :=
  match e.storage.inviteReceipt call capabilityHandle with
  | .error _ => (e, .error (.failure .storage "load_invite_receipt"))
  | .ok (some _) => (e, .error .invalidInput)
  | .ok none => e.addMemberInternal lib call roomId keyPackage (some welcomeMetadata)
      (some (inviteConsumption welcomeMetadata capabilityHandle bindingHash))

/-- What a removal finds out before it touches the group. -/
def removeMemberGuards (roomId : String) (leaf : ℕ) : Except EngineError Unit :=
  match e.ensureCanCommit call roomId with
  | .error error => .error error
  | .ok _ =>
    if (e.hosts.get roomId).any fun host ↦ host.hostLeaf = leaf then .error .invalidInput
    else .ok ()

def prepareRemoveMember (roomId : String) (leaf : ℕ) :
    Except EngineError (CommitOutput K × Group K) :=
  e.prepareCommit lib call roomId (e.removeMemberGuards call roomId leaf) { removals := [leaf] } []
    "remove_member" "build_remove_commit"

/-- The record of a removal. -/
def persistRemoveMember (roomId : String) (g : Group K) (output : CommitOutput K) :
    Except EngineError (Engine K × OutboundCommit) :=
  let id := lib.digest output.message
  (e.persistOutboundWithId lib call roomId g ⟨id, roomId, g.currentEpoch + 1, .remove,
    output.message, some (.commit g.currentEpoch)⟩).map fun written ↦
      (written, ⟨output.message, id, g.currentEpoch⟩)

def removeMember (roomId : String) (leaf : ℕ) : Engine K × Except EngineError OutboundCommit :=
  e.attempt (e.prepareRemoveMember lib call roomId leaf) fun (output, g) ↦
    e.finishCommit roomId g fun e ↦ e.persistRemoveMember lib call roomId g output

/-- `roster_credential`. -/
def rosterCredential (g : Group K) (leaf : ℕ) : Except EngineError BasicAppCredential :=
  match Roster.memberWithIndex g.epoch.roster leaf with
  | none => .error (.failure .protocol "read_roster_member")
  | some member =>
    match member.basic with
    | none => .error .invalidInput
    | some bytes =>
      match validateCredential lib.serde bytes with
      | .error _ => .error (.failure .protocol "validate_member_credential")
      | .ok credential => .ok credential

def validTransferInput (nextDeviceId transferId : String) : Bool :=
  !nextDeviceId.isEmpty && Text.utf8Length nextDeviceId ≤ 128 && validId transferId

/-- What a handoff finds out before it touches the group. -/
def transferHostGuards (roomId : String) (nextLeaf : ℕ) (nextDeviceId transferId : String) :
    Except EngineError Unit :=
  match e.ensureCanCommit call roomId with
  | .error error => .error error
  | .ok _ =>
    if !validTransferInput nextDeviceId transferId then .error .invalidInput
    else
      match e.groups.get roomId with
      | none => .error .groupNotFound
      | some g =>
        match rosterCredential lib g nextLeaf with
        | .error error => .error error
        | .ok credential =>
          if credential.deviceId != nextDeviceId then .error .invalidInput else .ok ()

/-- The host context that a handoff sets. -/
def handoffRecord (nextLeaf : ℕ) (nextDeviceId transferId : String) : HostContext :=
  ⟨2, nextLeaf, nextDeviceId, some transferId⟩

def prepareTransferHost (roomId : String) (nextLeaf : ℕ) (nextDeviceId transferId : String) :
    Except EngineError (CommitOutput K × Group K) :=
  let record := handoffRecord nextLeaf nextDeviceId transferId
  e.prepareCommit lib call roomId
    (e.transferHostGuards lib call roomId nextLeaf nextDeviceId transferId)
    { groupContextExtensions := [hostExtension lib.serde record] }
    (lib.serde.encodeHostContext record) "stage_host_transfer" "sign_host_transfer"

/-- The record of a handoff, and the host that is to come. -/
def persistTransferHost (roomId : String) (record : HostContext) (transferId : String)
    (g : Group K) (output : CommitOutput K) : Except EngineError (Engine K × OutboundCommit) :=
  let id := lib.digest output.message
  match rosterCredential lib g record.hostLeaf with
  | .error error => .error error
  | .ok next =>
    let authorization : HostTransferAuthorizationPayload :=
      { version := 2
        transferId
        roomId
        commitMessageId := id
        parentEpoch := g.currentEpoch
        outgoingHostUserId := e.selfUserId
        outgoingHostDeviceId := e.selfDeviceId
        nextHostUserId := next.githubUserId
        nextHostDeviceId := record.hostDeviceId
        nextHostLeaf := record.hostLeaf }
    (e.stageThenWrite call roomId g (storageFailure .storage "stage_host_transfer_outbox"
      (e.storage.stageOutbox call lib.encodedLength ⟨id, roomId, g.currentEpoch + 1, .handoff,
        output.message, some (.hostTransfer authorization)⟩))).map fun written ↦
          ({ written with pendingHosts := e.pendingHosts.set roomId record },
            ⟨output.message, id, g.currentEpoch⟩)

def transferHost (roomId : String) (nextLeaf : ℕ) (nextDeviceId transferId : String) :
    Engine K × Except EngineError OutboundCommit :=
  e.attempt (e.prepareTransferHost lib call roomId nextLeaf nextDeviceId transferId)
    fun (output, g) ↦ e.finishCommit roomId g fun e ↦ e.persistTransferHost lib call roomId
      (handoffRecord nextLeaf nextDeviceId transferId) transferId g output

/-! ### The outbox -/

/-- The records of a Commit that the relay has accepted. -/
def stagePublished (roomId : String) (g : Group K) (messageId : String) :
    Except EngineError (Storage K) :=
  match lib.exportHistorySecret g.epoch with
  | none => .error (.failure .crypto "derive_history_secret")
  | some secret =>
    match e.storage.stageHistorySecret roomId g.currentEpoch secret with
    | .error _ => .error (.failure .storage "stage_history_secret")
    | .ok storage =>
      storageFailure .storage "stage_outbox_delete" (storage.stageOutboxDelete messageId)

/-- An outbox item of a room, as the operations that retire one look it up. -/
def loadRoomItem (a : StorageAccess) (operation roomId messageId : String) :
    Except EngineError OutboxItem :=
  match e.storage.outboxItem call a messageId with
  | .error _ => .error (.failure .storage operation)
  | .ok none => .error .invalidInput
  | .ok (some item) => if item.roomId != roomId then .error .invalidInput else .ok item

variable {call e} in
theorem loadRoomItem_eq_ok {a : StorageAccess} {operation roomId messageId : String}
    {item : OutboxItem} (h : e.loadRoomItem call a operation roomId messageId = .ok item) :
    e.storage.durable.outbox.get messageId = some item ∧ item.roomId = roomId := by
  unfold loadRoomItem at h
  split at h
  · cases h
  · cases h
  rename_i hload
  split at h
  · cases h
  · rename_i hroom
    cases h
    exact ⟨(Storage.access_eq_ok hload).symm, by simpa using hroom⟩

/-- An item is deleted at once, and the epoch of its room is returned. -/
def deleteItem (a : StorageAccess) (operation roomId messageId : String) :
    Engine K × Except EngineError ℕ :=
  e.attempt (storageFailure .storage operation (e.storage.deleteOutbox call a messageId))
    fun storage ↦ (e.setStorage storage, (e.setStorage storage).currentEpoch roomId)

/-- The group that has applied its pending Commit. -/
def preparePublish (roomId : String) (item : OutboxItem) : Except EngineError (Group K) :=
  match e.groups.get roomId with
  | none => .error .groupNotFound
  | some g =>
    if !g.hasPendingCommit || item.epoch != g.currentEpoch + 1 then .error .invalidInput
    else
      match g.applyPendingCommit lib.toMlsRs with
      | none => .error (.failure .protocol "apply_pending_commit")
      | some g => .ok g

variable {lib e} in
theorem preparePublish_eq_ok {roomId : String} {item : OutboxItem} {g' : Group K}
    (h : e.preparePublish lib roomId item = .ok g') :
    ∃ g pending, e.groups.get roomId = some g ∧ g.pending = some pending ∧
      item.epoch = g.currentEpoch + 1 ∧ g' = g.enterEpoch lib.toMlsRs pending.next := by
  unfold preparePublish at h
  split at h
  · cases h
  rename_i g hgroup
  split at h
  · cases h
  rename_i hguard
  split at h
  · cases h
  · rename_i happly
    cases h
    obtain ⟨pending, hpending, hg⟩ := Option.map_eq_some_iff.mp happly
    simp only [Bool.or_eq_true, not_or, bne_iff_ne, ne_eq, not_not] at hguard
    exact ⟨g, pending, hgroup, hpending, hguard.2, hg.symm⟩

def finishPublish (roomId messageId : String) (g : Group K) : Engine K × Except EngineError ℕ :=
  let changed := e.setGroup roomId g
  match changed.stageThenWrite call roomId g (changed.stagePublished lib roomId g messageId) with
  | .error error => (changed.dropGuard, .error error)
  | .ok written =>
    let written := { written with pendingHosts := e.pendingHosts.delete roomId }
    match g.validateHost lib.toMlsRs with
    | .error _ => (written.dropGuard, .error (.failure .protocol "validate_published_host_context"))
    | .ok host => ({ written with hosts := e.hosts.set roomId host }.dropGuard, .ok g.currentEpoch)

/-- The branch of a Commit in `publish_succeeded`. -/
def publishCommit (roomId : String) (item : OutboxItem) (messageId : String) :
    Engine K × Except EngineError ℕ :=
  e.attempt (e.preparePublish lib roomId item) (e.finishPublish lib call roomId messageId)

/-- The item that the relay confirms. -/
def preparePublished (roomId messageId : String) : Except EngineError OutboxItem :=
  if !validRoom roomId then .error .invalidInput
  else e.loadRoomItem call .loadPublishOutbox "load_publish_outbox" roomId messageId

variable {call e} in
theorem preparePublished_eq_ok {roomId messageId : String} {item : OutboxItem}
    (h : e.preparePublished call roomId messageId = .ok item) :
    e.storage.durable.outbox.get messageId = some item ∧ item.roomId = roomId := by
  unfold preparePublished at h
  split at h
  · cases h
  · exact loadRoomItem_eq_ok h

/-- Apply or retire an outbound message only after the relay confirms this exact id. -/
def publishSucceeded (roomId messageId : String) : Engine K × Except EngineError ℕ :=
  e.attempt (e.preparePublished call roomId messageId) fun item ↦
    if item.kind.isCommit then e.publishCommit lib call roomId item messageId
    else e.deleteItem call .deletePublishedOutbox "delete_published_outbox" roomId messageId

/-- Each of some outbox items is staged for deletion. -/
def stageOutboxDeletes : List OutboxItem → Storage K → Except EngineError (Storage K)
  | [], storage => .ok storage
  | item :: rest, storage =>
    match storage.stageOutboxDelete item.id with
    | .error _ => .error (.failure .storage "stage_outbox_delete")
    | .ok storage => stageOutboxDeletes rest storage

/-- What an addition that is given up takes with it: its invite receipt and its Welcomes. -/
def stageAddCleared (roomId : String) (item : OutboxItem) (messageId : String)
    (storage : Storage K) : Except EngineError (Storage K) :=
  match storage.inviteReceiptForCommit call messageId with
  | .error _ => .error (.failure .storage "load_commit_invite_receipt")
  | .ok receipt =>
    match stageReceiptDelete storage receipt with
    | .error _ => .error (.failure .storage "stage_invite_receipt_delete")
    | .ok storage =>
      match storage.outboxForRoomEpoch call roomId item.epoch with
      | .error _ => .error (.failure .storage "load_epoch_outbox")
      | .ok related =>
        stageOutboxDeletes (related.filter fun item ↦ item.kind = OutboxKind.welcome) storage
where
  stageReceiptDelete (storage : Storage K) :
      Option ConsumedInviteReceipt → Except StoreError (Storage K)
    | none => .ok storage
    | some receipt => storage.stageInviteReceiptDelete receipt.capabilityHandle

/-- The records of a Commit that is given up. -/
def stageCleared (roomId : String) (item : OutboxItem) (messageId : String) :
    Except EngineError (Storage K) :=
  match e.storage.stageOutboxDelete messageId with
  | .error _ => .error (.failure .storage "stage_outbox_delete")
  | .ok storage =>
    if item.kind = .add then stageAddCleared call roomId item messageId storage else .ok storage

/-- The item of a Commit that is given up, and the group that has forgotten it. -/
def prepareClear (roomId messageId : String) : Except EngineError (OutboxItem × Group K) :=
  if !validRoom roomId then .error .invalidInput
  else
    match e.loadRoomItem call .loadPendingCommitOutbox "load_pending_commit_outbox" roomId
        messageId with
    | .error error => .error error
    | .ok item =>
      if !item.kind.isCommit then .error .invalidInput
      else
        match e.groups.get roomId with
        | none => .error .groupNotFound
        | some g =>
          if !g.hasPendingCommit then .error .invalidInput else .ok (item, g.clearPendingCommit)

variable {call e} in
theorem prepareClear_eq_ok {roomId messageId : String} {item : OutboxItem} {g' : Group K}
    (h : e.prepareClear call roomId messageId = .ok (item, g')) :
    e.storage.durable.outbox.get messageId = some item ∧ item.roomId = roomId ∧
      item.kind.isCommit = true ∧ ∃ g, e.groups.get roomId = some g ∧
        g.hasPendingCommit = true ∧ g' = g.clearPendingCommit := by
  unfold prepareClear at h
  split at h
  · cases h
  split at h
  · cases h
  rename_i hload
  split at h
  · cases h
  rename_i hkind
  split at h
  · cases h
  rename_i g hgroup
  split at h
  · cases h
  · rename_i hpending
    cases h
    obtain ⟨hget, hroom⟩ := loadRoomItem_eq_ok hload
    exact ⟨hget, hroom, by simpa using hkind, g, hgroup, by simpa using hpending, rfl⟩

def finishClear (roomId messageId : String) (item : OutboxItem) (g : Group K) :
    Engine K × Except EngineError ℕ :=
  let changed := { e.setGroup roomId g with pendingHosts := e.pendingHosts.delete roomId }
  match changed.stageThenWrite call roomId g (changed.stageCleared call roomId item messageId) with
  | .error error => (changed.dropGuard, .error error)
  | .ok written => (written.dropGuard, .ok g.currentEpoch)

def clearPendingCommit (roomId messageId : String) : Engine K × Except EngineError ℕ :=
  e.attempt (e.prepareClear call roomId messageId) fun (item, g) ↦
    e.finishClear call roomId messageId item g

/-- The stale item that is retired. -/
def prepareRetire (roomId messageId : String) : Except EngineError OutboxItem :=
  if !validRoom roomId || !validRoom messageId then .error .invalidInput
  else
    match e.loadRoomItem call .loadStaleOutbox "load_stale_outbox" roomId messageId with
    | .error error => .error error
    | .ok item => if item.kind != .application then .error .invalidInput else .ok item

variable {call e} in
theorem prepareRetire_eq_ok {roomId messageId : String} {item : OutboxItem}
    (h : e.prepareRetire call roomId messageId = .ok item) :
    e.storage.durable.outbox.get messageId = some item ∧ item.roomId = roomId ∧
      item.kind = .application := by
  unfold prepareRetire at h
  split at h
  · cases h
  split at h
  · cases h
  rename_i hload
  split at h
  · cases h
  · rename_i hkind
    cases h
    obtain ⟨hget, hroom⟩ := loadRoomItem_eq_ok hload
    exact ⟨hget, hroom, by simpa using hkind⟩

def retireStaleApplication (roomId messageId : String) : Engine K × Except EngineError ℕ :=
  e.attempt (e.prepareRetire call roomId messageId) fun _ ↦
    e.deleteItem call .deleteStaleOutbox "delete_stale_outbox" roomId messageId

/-! ### Denying an invite -/

/-- An invite that is neither admitted nor denied yet. -/
def denyInviteGuards (capabilityHandle : String) : Except EngineError Unit :=
  match e.storage.inviteReceipt call capabilityHandle with
  | .error _ => .error (.failure .storage "load_invite_receipt")
  | .ok (some _) => .error .invalidInput
  | .ok none =>
    match e.storage.deniedInviteReceipt call capabilityHandle with
    | .error _ => .error (.failure .storage "load_denied_invite_receipt")
    | .ok (some _) => .error .invalidInput
    | .ok none => .ok ()

def prepareDenial (capabilityHandle bindingHash keyPackageHash : String)
    (responseBinding : CapabilityBinding) (responseMac : String) :
    Except EngineError (Storage K × String) :=
  match e.denyInviteGuards call capabilityHandle with
  | .error error => .error error
  | .ok _ =>
    let response : OutboxMetadata := .inviteResponse responseBinding responseMac
    let id := lib.digest (lib.encodeMetadata response)
    match e.currentEpoch responseBinding.roomId with
    | .error error => .error error
    | .ok epoch =>
      (storageFailure .storage "record_invite_denial" (e.storage.recordInviteDenial call
        lib.encodedLength
        { capabilityHandle
          bindingHash
          keyPackageHash
          responseOutboxId := id
          responseBinding
          responseMac }
        ⟨id, responseBinding.roomId, epoch, .inviteDenial, lib.encodeMetadata response,
          some response⟩)).map fun storage ↦ (storage, id)

def denyInvite (capabilityHandle bindingHash keyPackageHash : String)
    (responseBinding : CapabilityBinding) (responseMac : String) :
    Engine K × Except EngineError String :=
  e.attempt (e.prepareDenial lib call capabilityHandle bindingHash keyPackageHash responseBinding
    responseMac) fun (storage, id) ↦ (e.setStorage storage, .ok id)

end Engine

/-! ### A library without cryptography

Two devices, their JSON, and groups whose messages are single bytes: enough to run the engine. -/

namespace Plain

def ascii (s : String) : Bytes := s.toList.map fun c ↦ UInt8.ofNat c.toNat

def alice : BasicAppCredential := ⟨"1", "mac-1"⟩

def bob : BasicAppCredential := ⟨"2", "mac-2"⟩

def hostAlice : HostContext := ⟨2, 0, "mac-1", none⟩

def hostBob : HostContext := ⟨2, 1, "mac-2", some "offer_1"⟩

def credentialJson (c : BasicAppCredential) : Bytes :=
  ascii ("\x7b\"github_user_id\":\"" ++ c.githubUserId ++ "\",\"device_id\":\"" ++ c.deviceId ++
    "\"\x7d")

def hostJson (h : HostContext) : Bytes :=
  ascii ("\x7b\"version\":" ++ toString h.version ++ ",\"host_leaf\":" ++ toString h.hostLeaf ++
    ",\"host_device_id\":\"" ++ h.hostDeviceId ++ "\"" ++
    (h.transferId.elim "" fun transferId ↦ ",\"transfer_id\":\"" ++ transferId ++ "\"") ++ "\x7d")

def serde : Serde where
  credential bytes := [alice, bob].find? fun c ↦ credentialJson c = bytes
  hostContext bytes := [hostAlice, hostBob].find? fun h ↦ hostJson h = bytes
  encodeHostContext := hostJson

/-- Context changes, removals, then additions, whose KeyPackage is a credential here. -/
def applyProposals (epoch : EpochState ℕ) (proposals : ProposalBundle) : EpochState ℕ where
  number := epoch.number + 1
  roster := proposals.removals.foldl (fun roster leaf ↦ roster.set leaf none) epoch.roster ++
    proposals.additions.map fun keyPackage ↦ some ⟨some keyPackage⟩
  extensions := proposals.groupContextExtensions.getLastD epoch.extensions
  secrets := 0

def handoffToBob : ProposalBundle := { groupContextExtensions := [hostExtension serde hostBob] }

/-- The message 255 is a handoff by the first leaf; what is built or encrypted is the next random
byte. -/
def library : Libraries ℕ where
  serde := serde
  digest bytes := String.ofList (List.replicate 62 '0' ++
    [Nat.digitChar ((bytes.headD 0).toNat / 16), Nat.digitChar ((bytes.headD 0).toNat % 16)])
  header _ := some ⟨none, some mlsCiphersuiteId⟩
  createGroup _ extensions _ := some ⟨0, [some ⟨some (credentialJson alice)⟩], extensions, 0⟩
  joinGroup _ := none
  openMessage _ message :=
    if message = [255] then some (.commit (.existingMember 0) handoffToBob) else none
  applyCommit g _ proposals := some (some (applyProposals g.epoch proposals))
  acceptsProposals _ _ := true
  buildCommit g proposals _ entropy := some
    ⟨[UInt8.ofNat entropy], [[UInt8.ofNat (entropy + 1)]], applyProposals g.epoch proposals⟩
  encrypt epoch _ _ entropy := some ([UInt8.ofNat entropy], epoch.secrets + 1)
  exportHistorySecret epoch := some (List.replicate 32 (UInt8.ofNat epoch.number))
  priorEpoch epoch := [UInt8.ofNat epoch.number]
  encodeMetadata _ := [0]
  encodeAuthenticatedData _ := [0]

end Plain

end MultAIplayer.Mls
