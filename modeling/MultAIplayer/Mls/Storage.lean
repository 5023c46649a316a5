import MultAIplayer.Lib.InsertionMap
import MultAIplayer.Mls.Group
import Mathlib.Algebra.Ring.Nat

/-!
# Group storage

The encrypted database of a device: group snapshots with their prior epochs, and the application's
records. What an operation stages is committed by the next group-state write, in one transaction
with it.

Every record has its own collection here, under the part of its key that follows the kind. A
database access may fail: `Call.fault` says which ones do.
-/

namespace MultAIplayer.Mls

/-! ### Records -/

inductive OutboxKind where
  | application
  | welcome
  | inviteDenial
  | add
  | remove
  | handoff
  deriving DecidableEq

/-- The kinds whose payload is a Commit. -/
@[grind =] def OutboxKind.isCommit : OutboxKind → Bool
  | add | remove | handoff => true
  | _ => false

structure CapabilityBinding where
  version : ℕ
  phase : String
  inviteId : String
  teamId : String
  roomId : String
  keyEpoch : ℕ
  keyPackageHash : String
  requestId : String
  requestNonce : String
  requesterUserId : String
  requesterDeviceId : String
  hostUserId : String
  hostDeviceId : String
  expiresAt : String
  status : Option String
  decidedAt : Option String
  deriving DecidableEq

structure WelcomeRetryMetadata where
  inviteId : String
  requestId : String
  requesterUserId : String
  requesterDeviceId : String
  keyPackageId : String
  keyPackageHash : String
  responseBinding : CapabilityBinding
  responseMac : String
  deriving DecidableEq

structure HostTransferAuthorizationPayload where
  version : ℕ
  transferId : String
  roomId : String
  commitMessageId : String
  parentEpoch : ℕ
  outgoingHostUserId : String
  outgoingHostDeviceId : String
  nextHostUserId : String
  nextHostDeviceId : String
  nextHostLeaf : ℕ
  deriving DecidableEq

inductive OutboxMetadata where
  | application (authenticatedData : Bytes)
  | commit (parentEpoch : ℕ)
  | welcome (metadata : WelcomeRetryMetadata)
  | hostTransfer (authorization : HostTransferAuthorizationPayload)
  | inviteResponse (binding : CapabilityBinding) (mac : String)
  deriving DecidableEq

structure OutboxItem where
  id : String
  roomId : String
  epoch : ℕ
  kind : OutboxKind
  payload : Bytes
  metadata : Option OutboxMetadata
  deriving DecidableEq

structure ConsumedInviteReceipt where
  capabilityHandle : String
  bindingHash : String
  keyPackageHash : String
  epoch : ℕ
  commitOutboxId : String
  welcomeOutboxId : String
  responseBinding : CapabilityBinding
  responseMac : String
  deriving DecidableEq

structure ConsumedJoinReceipt where
  inviteId : String
  teamId : String
  roomId : String
  requestId : String
  requesterUserId : String
  requesterDeviceId : String
  responseHash : String
  epoch : ℕ
  deriving DecidableEq

structure DeniedInviteReceipt where
  capabilityHandle : String
  bindingHash : String
  keyPackageHash : String
  responseOutboxId : String
  responseBinding : CapabilityBinding
  responseMac : String
  deriving DecidableEq

structure RetainedSecret where
  expiresAtUnixSeconds : ℕ
  secret : Bytes
  deriving DecidableEq

/-- What is on disk. -/
structure Durable (K : Type) where
  groups : InsertionMap String (GroupState K) := .empty
  epochs : InsertionMap (String × ℕ) Bytes := .empty
  outbox : InsertionMap String OutboxItem := .empty
  inviteReceipts : InsertionMap String ConsumedInviteReceipt := .empty
  deniedInviteReceipts : InsertionMap String DeniedInviteReceipt := .empty
  joinReceipts : InsertionMap String ConsumedJoinReceipt := .empty
  historySecrets : InsertionMap (String × ℕ) RetainedSecret := .empty
  historyRetention : InsertionMap String ℕ := .empty

/-- What the next group-state write will commit. -/
structure Staged where
  outbox : List OutboxItem := []
  historySecret : Option (String × ℕ × Bytes) := none
  outboxDelete : List String := []
  inviteReceipts : List ConsumedInviteReceipt := []
  joinReceipts : List ConsumedJoinReceipt := []
  inviteReceiptDelete : List String := []
  deriving DecidableEq

/-- `AtomicGroupStateStorage`. -/
structure Storage (K : Type) where
  durable : Durable K := {}
  staged : Staged := {}

/-! ### Accesses that may fail -/

/-- The accesses to the database, by the operation that the crate names in their errors. -/
inductive StorageAccess where
  | checkApplicationOutbox
  | loadIncomingOutbox
  | loadEpochOutbox
  | loadPublishOutbox
  | deletePublishedOutbox
  | loadPendingCommitOutbox
  | loadCommitInviteReceipt
  | loadStaleOutbox
  | deleteStaleOutbox
  | loadInviteReceipt
  | loadDeniedInviteReceipt
  | loadJoinReceipt
  | stageOutbox (kind : OutboxKind)
  | writeGroupState
  | checkGroupSnapshot
  | loadGroup
  | deleteRoomRecords
  | deleteCorruptGroup
  | recordInviteDenial
  deriving DecidableEq

/-- What the environment decides for one call: which accesses fail, the time, and the random
numbers. -/
structure Call where
  fault : StorageAccess → Bool := fun _ ↦ false
  unixSeconds : ℕ := 0
  entropy : ℕ := 0

inductive StoreError where
  | sqlite
  | invalidValue
  | corruptValue
  deriving DecidableEq

def maxOutboxPayload : ℕ := 1024 * 1024
def defaultHistoryRetentionDays : ℕ := 30
def maxEpochRetention : ℕ := 3

def validateComponent (value : String) : Bool :=
  !value.isEmpty && Text.utf8Length value ≤ 128 && asciiIdChars ['-', '_'] value

def validateIdentityComponent (value : String) : Bool :=
  !value.isEmpty && Text.utf8Length value ≤ 128 && asciiIdChars ['-', '_', ':'] value

def OutboxItem.validateOutbox (encodedLength : OutboxMetadata → ℕ) (item : OutboxItem) : Bool :=
  validateComponent item.id && validateComponent item.roomId && !item.payload.isEmpty &&
    item.payload.length ≤ maxOutboxPayload &&
      item.metadata.all fun value ↦ encodedLength value ≤ 16384

namespace Storage

variable {K : Type} (call : Call) (s : Storage K)

/-! ### Reads -/

/-- One access to the database, after the key has been checked. -/
def access {α : Type} (a : StorageAccess) (keys : List String) (value : α) : Except StoreError α :=
  if !keys.all validateComponent then .error .invalidValue
  else if call.fault a then .error .sqlite
  else .ok value

def outboxItem (a : StorageAccess) (id : String) : Except StoreError (Option OutboxItem) :=
  access call a [id] (s.durable.outbox.get id)

def outboxForRoomEpoch (roomId : String) (epoch : ℕ) : Except StoreError (List OutboxItem) :=
  access call .loadEpochOutbox [roomId]
    (s.durable.outbox.values.filter fun item ↦ item.roomId = roomId && item.epoch = epoch)

def hasRoomOutboxKind (roomId : String) (kind : OutboxKind) : Except StoreError Bool :=
  access call .checkApplicationOutbox [roomId]
    (s.durable.outbox.values.any fun item ↦ item.roomId = roomId && item.kind = kind)

def inviteReceipt (handle : String) : Except StoreError (Option ConsumedInviteReceipt) :=
  access call .loadInviteReceipt [handle] (s.durable.inviteReceipts.get handle)

def deniedInviteReceipt (handle : String) : Except StoreError (Option DeniedInviteReceipt) :=
  access call .loadDeniedInviteReceipt [handle] (s.durable.deniedInviteReceipts.get handle)

def inviteReceiptForCommit (commitOutboxId : String) :
    Except StoreError (Option ConsumedInviteReceipt) :=
  access call .loadCommitInviteReceipt [commitOutboxId]
    (s.durable.inviteReceipts.values.find? fun receipt ↦ receipt.commitOutboxId = commitOutboxId)

def joinReceipt (requestId : String) : Except StoreError (Option ConsumedJoinReceipt) :=
  access call .loadJoinReceipt [requestId] (s.durable.joinReceipts.get requestId)

def hasGroupSnapshot (groupId : String) : Except StoreError Bool :=
  access call .checkGroupSnapshot [] (s.durable.groups.has groupId)

/-! ### Staging -/

/-- `StagedWriteGuard::drop`. -/
def clearAllStaged : Storage K := { s with staged := {} }

def stageOutbox (encodedLength : OutboxMetadata → ℕ) (item : OutboxItem) :
    Except StoreError (Storage K) :=
  if !item.validateOutbox encodedLength then .error .invalidValue
  else
    match s.outboxItem call (.stageOutbox item.kind) item.id with
    | .error error => .error error
    | .ok (some _) => .error .invalidValue
    | .ok none =>
      if s.staged.outbox.any fun existing ↦ existing.id = item.id then .error .invalidValue
      else .ok { s with staged.outbox := s.staged.outbox ++ [item] }

def stageOutboxDelete (id : String) : Except StoreError (Storage K) :=
  if !validateComponent id then .error .invalidValue
  else .ok { s with staged.outboxDelete := s.staged.outboxDelete ++ [id] }

def stageInviteReceipt (receipt : ConsumedInviteReceipt) : Except StoreError (Storage K) :=
  if !validateComponent receipt.capabilityHandle || !validateComponent receipt.commitOutboxId ||
      !validateComponent receipt.welcomeOutboxId ||
      Text.utf8Length receipt.bindingHash != 64 ||
      128 < Text.utf8Length receipt.keyPackageHash then
    .error .invalidValue
  else .ok { s with staged.inviteReceipts := s.staged.inviteReceipts ++ [receipt] }

def stageInviteReceiptDelete (handle : String) : Except StoreError (Storage K) :=
  if !validateComponent handle then .error .invalidValue
  else .ok { s with staged.inviteReceiptDelete := s.staged.inviteReceiptDelete ++ [handle] }

def isAsciiHexDigit (c : Char) : Bool :=
  c.isDigit || ('a' ≤ c && c ≤ 'f') || ('A' ≤ c && c ≤ 'F')

def stageJoinReceipt (receipt : ConsumedJoinReceipt) : Except StoreError (Storage K) :=
  if !validateComponent receipt.inviteId || !validateComponent receipt.teamId ||
      !validateComponent receipt.roomId || !validateComponent receipt.requestId ||
      !validateIdentityComponent receipt.requesterUserId ||
      !validateIdentityComponent receipt.requesterDeviceId ||
      Text.utf8Length receipt.responseHash != 64 ||
      !receipt.responseHash.toList.all isAsciiHexDigit then
    .error .invalidValue
  else .ok { s with staged.joinReceipts := s.staged.joinReceipts ++ [receipt] }

def stageHistorySecret (roomId : String) (epoch : ℕ) (secret : Bytes) :
    Except StoreError (Storage K) :=
  if !validateComponent roomId || secret.length != 32 then .error .invalidValue
  else .ok { s with staged.historySecret := some (roomId, epoch, secret) }

/-! ### The group-state write -/

/-- `INSERT INTO epoch`: an epoch that is there already, or whose id does not fit, fails. -/
def insertEpochs (groupId : String) (epochs : InsertionMap (String × ℕ) Bytes) :
    List EpochRecord → Except StoreError (InsertionMap (String × ℕ) Bytes)
  | [] => .ok epochs
  | epoch :: rest =>
    if 2 ^ 63 ≤ epoch.id || epochs.has (groupId, epoch.id) then .error .sqlite
    else insertEpochs groupId (epochs.set (groupId, epoch.id) epoch.data) rest

/-- `UPDATE epoch`: an epoch that is not there stays away. -/
def updateEpochs (groupId : String) (epochs : InsertionMap (String × ℕ) Bytes) :
    List EpochRecord → Except StoreError (InsertionMap (String × ℕ) Bytes)
  | [] => .ok epochs
  | epoch :: rest =>
    if 2 ^ 63 ≤ epoch.id then .error .sqlite
    else updateEpochs groupId
      (if epochs.has (groupId, epoch.id) then epochs.set (groupId, epoch.id) epoch.data else epochs)
      rest

/-- Only the newest prior epochs are kept. -/
def pruneEpochs (groupId : String) (inserts : List EpochRecord)
    (epochs : InsertionMap (String × ℕ) Bytes) : InsertionMap (String × ℕ) Bytes :=
  match inserts.getLast? with
  | none => epochs
  | some last =>
    if maxEpochRetention ≤ last.id then
      epochs.filter fun key _ ↦ !(key.1 = groupId && key.2 ≤ last.id - maxEpochRetention)
    else epochs

/-- `INSERT … ON CONFLICT(key) DO NOTHING` for each record. -/
def insertMissing {α : Type} (m : InsertionMap String α) : List (String × α) → InsertionMap String α
  | [] => m
  | (k, v) :: rest => insertMissing (if m.has k then m else m.set k v) rest

/-- The history secret of the transaction, under the retention policy of its room. -/
def writeHistorySecret (d : Durable K) :
    Option (String × ℕ × Bytes) → Except StoreError (Durable K)
  | none => .ok d
  | some (roomId, epoch, secret) =>
    let retentionDays := (d.historyRetention.get roomId).getD defaultHistoryRetentionDays
    if retentionDays < 1 || 365 < retentionDays then .error .sqlite
    else .ok { d with
      historyRetention := insertMissing d.historyRetention [(roomId, retentionDays)]
      historySecrets := d.historySecrets.set (roomId, epoch)
        ⟨min (call.unixSeconds + retentionDays * 86400) (2 ^ 64 - 1), secret⟩ }

/-- The transaction of `GroupStateStorage::write`. -/
def transaction (d : Durable K) (staged : Staged) (g : Group K) : Except StoreError (Durable K) :=
  match insertEpochs g.groupId d.epochs g.inserts with
  | .error error => .error error
  | .ok inserted =>
    match updateEpochs g.groupId inserted g.updates with
    | .error error => .error error
    | .ok updated =>
      match writeHistorySecret call { d with
          groups := d.groups.set g.groupId g.toGroupState
          epochs := pruneEpochs g.groupId g.inserts updated
          outbox := d.outbox.setAll (staged.outbox.map fun item ↦ (item.id, item))
          inviteReceipts := insertMissing d.inviteReceipts
            (staged.inviteReceipts.map fun receipt ↦ (receipt.capabilityHandle, receipt))
          joinReceipts := insertMissing d.joinReceipts
            (staged.joinReceipts.map fun receipt ↦ (receipt.requestId, receipt)) }
          staged.historySecret with
      | .error error => .error error
      | .ok d => .ok { d with
          outbox := d.outbox.deleteAll staged.outboxDelete
          inviteReceipts := d.inviteReceipts.deleteAll staged.inviteReceiptDelete }

/-- `group.write_to_storage()`: the group forgets the epochs that are stored now. -/
def write (g : Group K) : Except StoreError (Storage K × Group K) :=
  if call.fault .writeGroupState then .error .sqlite
  else
    match transaction call s.durable s.staged g with
    | .error error => .error error
    | .ok durable => .ok ({ durable }, { g with inserts := [], updates := [] })

/-! ### Transactions of their own -/

/-- `delete_outbox`, which commits at once. -/
def deleteOutbox (a : StorageAccess) (id : String) : Except StoreError (Storage K) :=
  match access call a [id] (s.durable.outbox.has id) with
  | .error error => .error error
  | .ok false => .error .invalidValue
  | .ok true => .ok { s with durable.outbox := s.durable.outbox.delete id }

/-- `delete_room_records_inner`: one room, and no sibling. -/
@[grind =] def withoutRoom (d : Durable K) (roomId : String) : Durable K where
  groups := d.groups.delete roomId
  epochs := d.epochs.filter fun key _ ↦ key.1 != roomId
  outbox := d.outbox.filter fun _ item ↦ item.roomId != roomId
  inviteReceipts := d.inviteReceipts.filter fun _ receipt ↦ receipt.responseBinding.roomId != roomId
  deniedInviteReceipts :=
    d.deniedInviteReceipts.filter fun _ receipt ↦ receipt.responseBinding.roomId != roomId
  joinReceipts := d.joinReceipts.filter fun _ receipt ↦ receipt.roomId != roomId
  historySecrets := d.historySecrets.filter fun key _ ↦ key.1 != roomId
  historyRetention := d.historyRetention.delete roomId

def deleteRoomRecords (roomId : String) : Except StoreError (Storage K) :=
  access call .deleteRoomRecords [roomId] { s with durable := withoutRoom s.durable roomId }

/-- `delete_corrupt_group_records`, for a group that is stored. -/
def deleteCorruptGroupRecords (roomId : String) : Except StoreError (Storage K) :=
  match access call .deleteCorruptGroup [roomId] (s.durable.groups.has roomId) with
  | .error error => .error error
  | .ok false => .error .invalidValue
  | .ok true => .ok { s with durable := withoutRoom s.durable roomId }

/-- `record_invite_denial`: the receipt and its response, neither of which may be there. -/
def recordInviteDenial (encodedLength : OutboxMetadata → ℕ) (receipt : DeniedInviteReceipt)
    (item : OutboxItem) : Except StoreError (Storage K) :=
  if !validateComponent receipt.capabilityHandle || !item.validateOutbox encodedLength ||
      Text.utf8Length receipt.bindingHash != 64 ||
      128 < Text.utf8Length receipt.keyPackageHash ||
      receipt.responseOutboxId != item.id then
    .error .invalidValue
  else if call.fault .recordInviteDenial ||
      s.durable.deniedInviteReceipts.has receipt.capabilityHandle || s.durable.outbox.has item.id then
    .error .sqlite
  else .ok { s with
    durable.deniedInviteReceipts :=
      s.durable.deniedInviteReceipts.set receipt.capabilityHandle receipt
    durable.outbox := s.durable.outbox.set item.id item }

end Storage

/-! ### What staging and writing change -/

variable {K : Type} {call : Call}

/-- A group as a successful write leaves it. -/
def Group.written (g : Group K) : Group K := { g with inserts := [], updates := [] }

@[simp] theorem Group.toGroupState_written (g : Group K) :
    g.written.toGroupState = g.toGroupState := rfl

namespace Storage

variable {s s' : Storage K} {encodedLength : OutboxMetadata → ℕ} {item : OutboxItem}

theorem access_eq_ok {α : Type} {a : StorageAccess} {keys : List String} {value value' : α}
    (h : access call a keys value = .ok value') : value' = value := by
  unfold access at h
  split at h
  · cases h
  split at h
  · cases h
  · cases h
    rfl

/-- The staged outbox items have new and distinct ids. -/
structure Fresh (s : Storage K) : Prop where
  new : ∀ item ∈ s.staged.outbox, s.durable.outbox.get item.id = none
  nodup : (s.staged.outbox.map OutboxItem.id).Nodup

theorem fresh_of_staged_eq (h : s.staged = {}) : s.Fresh := by
  constructor <;> simp [h]

theorem stageOutbox_eq_ok (h : s.stageOutbox call encodedLength item = .ok s') :
    s' = { s with staged.outbox := s.staged.outbox ++ [item] } ∧ (s.Fresh → s'.Fresh) := by
  unfold stageOutbox at h
  split at h
  · cases h
  split at h
  · cases h
  · cases h
  rename_i hmissing
  split at h
  · cases h
  rename_i hany
  cases h
  refine ⟨rfl, fun hfresh ↦ ⟨?_, ?_⟩⟩
  · intro other hother
    rcases List.mem_append.mp hother with hother | hother
    · exact hfresh.new other hother
    · cases List.mem_singleton.mp hother
      exact (access_eq_ok hmissing).symm
  · have hid : item.id ∉ s.staged.outbox.map OutboxItem.id := by simpa using hany
    change ((s.staged.outbox ++ [item]).map OutboxItem.id).Nodup
    rw [List.map_append, List.nodup_append]
    exact ⟨hfresh.nodup, List.nodup_singleton _, fun a ha b hb ↦ by
      rintro rfl
      exact hid (List.mem_singleton.mp hb ▸ ha)⟩

theorem stageOutboxDelete_eq_ok {id : String} (h : s.stageOutboxDelete id = .ok s') :
    s' = { s with staged.outboxDelete := s.staged.outboxDelete ++ [id] } := by
  unfold stageOutboxDelete at h
  split at h <;> cases h
  rfl

theorem stageInviteReceipt_eq_ok {receipt : ConsumedInviteReceipt}
    (h : s.stageInviteReceipt receipt = .ok s') :
    s' = { s with staged.inviteReceipts := s.staged.inviteReceipts ++ [receipt] } := by
  unfold stageInviteReceipt at h
  split at h <;> cases h
  rfl

theorem stageInviteReceiptDelete_eq_ok {handle : String}
    (h : s.stageInviteReceiptDelete handle = .ok s') :
    s' = { s with staged.inviteReceiptDelete := s.staged.inviteReceiptDelete ++ [handle] } := by
  unfold stageInviteReceiptDelete at h
  split at h <;> cases h
  rfl

theorem stageJoinReceipt_eq_ok {receipt : ConsumedJoinReceipt}
    (h : s.stageJoinReceipt receipt = .ok s') :
    s' = { s with staged.joinReceipts := s.staged.joinReceipts ++ [receipt] } := by
  unfold stageJoinReceipt at h
  split at h <;> cases h
  rfl

theorem stageHistorySecret_eq_ok {roomId : String} {epoch : ℕ} {secret : Bytes}
    (h : s.stageHistorySecret roomId epoch secret = .ok s') :
    s' = { s with staged.historySecret := some (roomId, epoch, secret) } := by
  unfold stageHistorySecret at h
  split at h <;> cases h
  rfl

theorem deleteCorruptGroupRecords_eq_ok {roomId : String}
    (h : s.deleteCorruptGroupRecords call roomId = .ok s') :
    s' = { s with durable := withoutRoom s.durable roomId } := by
  unfold deleteCorruptGroupRecords at h
  split at h <;> cases h
  rfl

theorem deleteOutbox_eq_ok {a : StorageAccess} {id : String}
    (h : s.deleteOutbox call a id = .ok s') :
    s' = { s with durable.outbox := s.durable.outbox.delete id } := by
  unfold deleteOutbox at h
  split at h <;> cases h
  rfl

theorem recordInviteDenial_eq_ok {receipt : DeniedInviteReceipt}
    (h : s.recordInviteDenial call encodedLength receipt item = .ok s') :
    s.durable.outbox.get item.id = none ∧ s' = { s with
      durable.deniedInviteReceipts :=
        s.durable.deniedInviteReceipts.set receipt.capabilityHandle receipt
      durable.outbox := s.durable.outbox.set item.id item } := by
  unfold recordInviteDenial at h
  split at h
  · cases h
  split at h
  · cases h
  · rename_i hnew
    cases h
    simp only [Bool.or_eq_true, not_or] at hnew
    exact ⟨InsertionMap.get_eq_none_of_not_has hnew.2, rfl⟩

theorem writeHistorySecret_eq_ok {d d' : Durable K} {secret : Option (String × ℕ × Bytes)}
    (h : writeHistorySecret call d secret = .ok d') : d'.groups = d.groups ∧ d'.outbox = d.outbox := by
  unfold writeHistorySecret at h
  split at h
  · cases h
    exact ⟨rfl, rfl⟩
  · dsimp only at h
    split at h <;> cases h
    exact ⟨rfl, rfl⟩

theorem transaction_eq_ok {d d' : Durable K} {staged : Staged} {g : Group K}
    (h : transaction call d staged g = .ok d') :
    d'.groups = d.groups.set g.groupId g.toGroupState ∧
      d'.outbox = (d.outbox.setAll (staged.outbox.map fun item ↦ (item.id, item))).deleteAll
        staged.outboxDelete := by
  unfold transaction at h
  split at h
  · cases h
  split at h
  · cases h
  split at h
  · cases h
  · rename_i hsecret
    cases h
    obtain ⟨hgroups, houtbox⟩ := writeHistorySecret_eq_ok hsecret
    exact ⟨hgroups, congrArg (·.deleteAll staged.outboxDelete) houtbox⟩

theorem write_eq_ok {g g' : Group K} (h : s.write call g = .ok (s', g')) :
    g' = g.written ∧ s'.staged = {} ∧ transaction call s.durable s.staged g = .ok s'.durable := by
  unfold write at h
  split at h
  · cases h
  split at h
  · cases h
  · rename_i htransaction
    cases h
    exact ⟨rfl, rfl, htransaction⟩

theorem groups_of_write {g g' : Group K} (h : s.write call g = .ok (s', g')) :
    s'.durable.groups = s.durable.groups.set g.groupId g.toGroupState :=
  (transaction_eq_ok (write_eq_ok h).2.2).1

theorem lookupEntry_outbox {items : List OutboxItem} (hitems : (items.map OutboxItem.id).Nodup)
    {k : String} {item : OutboxItem} :
    InsertionMap.lookupEntry k (items.map fun item ↦ (item.id, item)) = some item ↔
      item ∈ items ∧ item.id = k := by
  have hkeys : ((items.map fun item ↦ (item.id, item)).map Prod.fst).Nodup := by
    simpa [Function.comp_def] using hitems
  rw [InsertionMap.lookupEntry_eq_some_iff hkeys]
  aesop

/-- **The outbox after a write**: the new items, and what there was, less what was to be deleted. -/
theorem get_outbox_of_write {g g' : Group K} (hfresh : s.Fresh)
    (h : s.write call g = .ok (s', g')) {k : String} :
    s'.durable.outbox.get k = some item ↔ k ∉ s.staged.outboxDelete ∧
      (item ∈ s.staged.outbox ∧ item.id = k ∨ s.durable.outbox.get k = some item) := by
  rw [(transaction_eq_ok (write_eq_ok h).2.2).2, InsertionMap.get_deleteAll]
  have hkeys : ((s.staged.outbox.map fun item ↦ (item.id, item)).map Prod.fst).Nodup := by
    simpa [Function.comp_def] using hfresh.nodup
  rw [InsertionMap.get_setAll _ hkeys]
  by_cases hk : k ∈ s.staged.outboxDelete
  · simp [hk]
  · rw [if_neg hk, ← lookupEntry_outbox hfresh.nodup]
    cases hlookup : InsertionMap.lookupEntry k (s.staged.outbox.map fun item ↦ (item.id, item)) with
    | none => simp [hk]
    | some found =>
      obtain ⟨hmem, rfl⟩ := (lookupEntry_outbox hfresh.nodup).mp hlookup
      simp [hk, hfresh.new found hmem]

end Storage

end MultAIplayer.Mls
