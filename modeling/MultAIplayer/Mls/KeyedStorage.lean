import MultAIplayer.Lib.Like
import MultAIplayer.Mls.Storage
import Mathlib.Algebra.Ring.Nat

/-!
# The database of a device, row by row

The same database as in `Storage`, with the application's records as they lie on disk: rows of one
table under textual keys. What a row belongs to is told by its key, `history-secret:room:3`, or by
the room that its value names. Operations select the rows of a room in different ways: by the exact
key, by the text that the key begins with, and by SQL patterns (`Lib.Like`).

`RowOf` is what the exact deletion of a room deletes, and with it what the records of a room are.

## Values and the packages

A value is the record that its bytes decode to, or the bytes of no record. `Packages` is the
selection by prefix of the SQLite provider and SHA-256.

A call fails at the database statements that `fault` names, by their number in the operation; a
transaction counts as one statement, since it is rolled back whole.
-/

namespace MultAIplayer.Mls

structure StoredHistoryCiphertext where
  expiresAtUnixSeconds : ℕ
  ciphertext : Bytes
  deriving DecidableEq

structure PendingInviteRequest where
  capabilityUrlValue : String
  originalBinding : CapabilityBinding
  keyPackageId : String
  sealedRequest : String
  deriving DecidableEq

/-- What the bytes of a row decode to. -/
inductive RowValue where
  | retentionDays (days : ℕ)
  | retainedSecret (retained : RetainedSecret)
  | historyCiphertext (stored : StoredHistoryCiphertext)
  | outboxItem (item : OutboxItem)
  | inviteReceipt (receipt : ConsumedInviteReceipt)
  | deniedInviteReceipt (receipt : DeniedInviteReceipt)
  | joinReceipt (receipt : ConsumedJoinReceipt)
  | pendingInvite (request : PendingInviteRequest)
  | bytes (value : Bytes)
  deriving DecidableEq

namespace RowValue

def asRetentionDays : RowValue → Option ℕ
  | retentionDays days => some days
  | _ => none

def asRetainedSecret : RowValue → Option RetainedSecret
  | retainedSecret retained => some retained
  | _ => none

def asHistoryCiphertext : RowValue → Option StoredHistoryCiphertext
  | historyCiphertext stored => some stored
  | _ => none

def asOutboxItem : RowValue → Option OutboxItem
  | outboxItem item => some item
  | _ => none

def asInviteReceipt : RowValue → Option ConsumedInviteReceipt
  | inviteReceipt receipt => some receipt
  | _ => none

def asDeniedInviteReceipt : RowValue → Option DeniedInviteReceipt
  | deniedInviteReceipt receipt => some receipt
  | _ => none

def asJoinReceipt : RowValue → Option ConsumedJoinReceipt
  | joinReceipt receipt => some receipt
  | _ => none

def asPendingInvite : RowValue → Option PendingInviteRequest
  | pendingInvite request => some request
  | _ => none

/-- The bytes of a value that is stored as it is. -/
def asBytes : RowValue → Option Bytes
  | bytes value => some value
  | _ => none

end RowValue

/-- The selection of keys by the text they begin with, and SHA-256 in hexadecimal digits. -/
structure Packages where
  selects : String → String → Bool
  sha256 : Bytes → String

/-- `key.starts_with(text)`. -/
def startsWith (key text : String) : Bool := text.toList.isPrefixOf key.toList

@[simp] theorem startsWith_iff {key text : String} :
    startsWith key text = true ↔ text.toList <+: key.toList := List.isPrefixOf_iff_prefix

/-- What the provider says of its selection. -/
def Packages.SelectsByPrefix (packages : Packages) : Prop :=
  ∀ text key, packages.selects text key = startsWith key text

/-- The rows on disk. -/
structure Database (K : Type) where
  groups : InsertionMap String (GroupState K) := .empty
  epochs : InsertionMap (String × ℕ) Bytes := .empty
  kvs : InsertionMap String RowValue := .empty

/-- What the environment decides for one operation: the clock, which may stand before 1970, and the
statements that fail. -/
structure StorageCall where
  unixSeconds : Option ℕ := some 0
  fault : ℕ → Bool := fun _ ↦ false

/-- The rest of a call, after some of its statements. -/
def StorageCall.after (call : StorageCall) (n : ℕ) : StorageCall :=
  { call with fault := fun m ↦ call.fault (n + m) }

def defaultBlobKeyDays : ℕ := 30

/-- `now.saturating_add(days * 86_400)`. -/
@[grind =] def expiry (now days : ℕ) : ℕ := min (now + days * 86400) (2 ^ 64 - 1)

def validRetention (days : ℕ) : Bool := 1 ≤ days && days ≤ 365

/-! ### Keys -/

/-- What the keys of a room begin with, for a kind of record. -/
def roomKeys (kind roomId : String) : String := kind ++ ":" ++ roomId ++ ":"

def historySecretKey (roomId : String) (epoch : ℕ) : String :=
  roomKeys "history-secret" roomId ++ toString epoch

def historyKey (roomId : String) (epoch : ℕ) : String := roomKeys "history" roomId ++ toString epoch

def blobKeyName (packages : Packages) (roomId : String) (blobId : Bytes) (epoch : ℕ) : String :=
  roomKeys "blob-key" roomId ++ (toString epoch ++ ":" ++ packages.sha256 blobId)

def historyRetentionKey (roomId : String) : String := "history-retention:" ++ roomId

def roomConfigKey (roomId : String) : String := "room-config:" ++ roomId

def outboxKey (id : String) : String := "outbox:" ++ id

def inviteReceiptKey (handle : String) : String := "invite-receipt:" ++ handle

def inviteDenialReceiptKey (handle : String) : String := "invite-denial-receipt:" ++ handle

def joinReceiptKey (requestId : String) : String := "join-receipt:" ++ requestId

def pendingInviteKey (requestId : String) : String := "pending-invite:" ++ requestId

/-- `key LIKE ? ESCAPE '\'` for `{escape_like("kind:room:")}%`. -/
def likeEscaped (text key : String) : Bool :=
  Like.like '\\' (Like.escapeLike text.toList ++ ['%']) key.toList

/-- `key LIKE ? ESCAPE '\'` for `kind:{escape_like(room_id)}:%`. -/
def likeRoom (kind roomId key : String) : Bool :=
  Like.like '\\' (kind.toList ++ ':' :: (Like.escapeLike roomId.toList ++ [':', '%'])) key.toList

/-! ### The records of a room -/

inductive RoomDeletionMode where
  | legacyCorrupt
  | exact
  deriving DecidableEq

/-- `direct` of `delete_room_records_inner`. -/
@[grind =] def isDirect (mode : RoomDeletionMode) (roomId key : String) : Bool :=
  key = historyRetentionKey roomId || startsWith key (roomKeys "history-secret" roomId) ||
    startsWith key (roomKeys "blob-key" roomId) ||
      (mode = .exact &&
        (startsWith key (roomKeys "history" roomId) || key = roomConfigKey roomId))

/-- The room that a record under a key of its kind names. -/
def relatedRoom (mode : RoomDeletionMode) (key : String) (value : RowValue) :
    Except StoreError (Option String) :=
  let decoded {α : Type} (record : Option α) (room : α → String) :
      Except StoreError (Option String) :=
    match record with
    | none => .error .corruptValue
    | some record => .ok (some (room record))
  if startsWith key "outbox:" then decoded value.asOutboxItem OutboxItem.roomId
  else if startsWith key "join-receipt:" then decoded value.asJoinReceipt ConsumedJoinReceipt.roomId
  else if startsWith key "invite-receipt:" then
    decoded value.asInviteReceipt fun receipt ↦ receipt.responseBinding.roomId
  else if startsWith key "invite-denial-receipt:" then
    decoded value.asDeniedInviteReceipt fun receipt ↦ receipt.responseBinding.roomId
  else if mode = .exact && startsWith key "pending-invite:" then
    decoded value.asPendingInvite fun request ↦ request.originalBinding.roomId
  else .ok none

/-- Whether a row is one that the deletion of a room deletes. -/
def isRowOf (mode : RoomDeletionMode) (roomId key : String) (value : RowValue) : Bool :=
  isDirect mode roomId key ||
    match relatedRoom mode key value with
    | .ok (some room) => room = roomId
    | _ => false

/-- A record of a room. -/
def RowOf (roomId key : String) (value : RowValue) : Prop :=
  isRowOf .exact roomId key value = true

instance (roomId key : String) (value : RowValue) : Decidable (RowOf roomId key value) :=
  inferInstanceAs (Decidable (isRowOf .exact roomId key value = true))

/-! ### Operations -/

namespace Database

variable {K : Type} (packages : Packages) (call : StorageCall) (db : Database K)

/-- A row that is there until its expiry. -/
def readExpiring {α : Type} (key : String) (decode : RowValue → Option α) (expiresAt : α → ℕ)
    (content : α → Bytes) : Except StoreError (Option Bytes) × Database K :=
  if call.fault 0 then (.error .sqlite, db)
  else
    match db.kvs.get key with
    | none => (.ok none, db)
    | some value =>
      match decode value with
      | none => (.error .corruptValue, db)
      | some record =>
        match call.unixSeconds with
        | none => (.error .invalidValue, db)
        | some now =>
          if expiresAt record ≤ now then
            if call.fault 1 then (.error .sqlite, db)
            else (.ok none, { db with kvs := db.kvs.delete key })
          else (.ok (some (content record)), db)

/-- One statement on the rows, after the arguments have been checked. -/
def change (valid : Bool) (f : InsertionMap String RowValue → InsertionMap String RowValue) :
    Except StoreError Unit × Database K :=
  if !valid then (.error .invalidValue, db)
  else if call.fault 0 then (.error .sqlite, db)
  else (.ok (), { db with kvs := f db.kvs })

def historySecret (roomId : String) (epoch : ℕ) :
    Except StoreError (Option Bytes) × Database K :=
  if !validateComponent roomId then (.error .invalidValue, db)
  else db.readExpiring call (historySecretKey roomId epoch) RowValue.asRetainedSecret
    RetainedSecret.expiresAtUnixSeconds RetainedSecret.secret

/-- The secrets of a room under a new expiry, or nothing when a row among them is none. -/
@[grind =] def rescheduled (kvs : InsertionMap String RowValue) (roomId : String) (expiresAt : ℕ) :
    Option (List (String × RowValue)) :=
  let rows := kvs.entries.filter fun row ↦ likeEscaped (roomKeys "history-secret" roomId) row.1
  rows.mapM fun row ↦ row.2.asRetainedSecret.map fun retained ↦
    (row.1, RowValue.retainedSecret { retained with expiresAtUnixSeconds := expiresAt })

/-- `set_history_retention`: the policy of the room, and the expiry of the secrets it has. -/
def setHistoryRetention (roomId : String) (retentionDays : ℕ) :
    Except StoreError Unit × Database K :=
  if !validateComponent roomId || !validRetention retentionDays then (.error .invalidValue, db)
  else if call.fault 0 then (.error .sqlite, db)
  else
    match call.unixSeconds with
    | none => (.error .invalidValue, db)
    | some now =>
      let kvs := db.kvs.set (historyRetentionKey roomId) (.retentionDays retentionDays)
      match rescheduled kvs roomId (expiry now retentionDays) with
      | none => (.error .corruptValue, db)
      | some updates => (.ok (), { db with kvs := kvs.setAll updates })

def deleteHistoryEpoch (roomId : String) (epoch : ℕ) : Except StoreError Unit × Database K :=
  db.change call (validateComponent roomId) (·.delete (historySecretKey roomId epoch))

def putBlobKey (roomId : String) (blobId : Bytes) (epoch : ℕ) (key : Bytes) :
    Except StoreError Unit × Database K :=
  if !validateComponent roomId || blobId.isEmpty || 128 < blobId.length || key.length != 32 then
    (.error .invalidValue, db)
  else
    match call.unixSeconds with
    | none => (.error .invalidValue, db)
    | some now =>
      db.change call true (·.set (blobKeyName packages roomId blobId epoch)
        (.retainedSecret ⟨expiry now defaultBlobKeyDays, key⟩))

def blobKey (roomId : String) (blobId : Bytes) (epoch : ℕ) :
    Except StoreError (Option Bytes) × Database K :=
  if !validateComponent roomId || blobId.isEmpty || 128 < blobId.length then
    (.error .invalidValue, db)
  else db.readExpiring call (blobKeyName packages roomId blobId epoch) RowValue.asRetainedSecret
    RetainedSecret.expiresAtUnixSeconds RetainedSecret.secret

def deleteHistoryRecords (roomId : String) : Except StoreError Unit × Database K :=
  db.change call (validateComponent roomId) fun kvs ↦
    (kvs.filter fun key _ ↦ !likeRoom "history-secret" roomId key).filter
      fun key _ ↦ !likeRoom "history" roomId key

/-- The rows of a pattern that have expired, or nothing when one is no retained secret. -/
@[grind =] def expiredKeys (roomId : String) (now : ℕ) (kind : String) : Option (List String) :=
  let rows := db.kvs.entries.filter fun row : String × RowValue ↦ likeRoom kind roomId row.1
  let decoded := rows.mapM fun row ↦
    row.2.asRetainedSecret.map fun retained ↦ (row.1, retained.expiresAtUnixSeconds)
  decoded.map fun secrets ↦ (secrets.filter fun secret ↦ secret.2 ≤ now).map Prod.fst

def pruneExpiredMaterial (roomId : String) : Except StoreError Unit × Database K :=
  if !validateComponent roomId then (.error .invalidValue, db)
  else
    match call.unixSeconds with
    | none => (.error .invalidValue, db)
    | some now =>
      if call.fault 0 then (.error .sqlite, db)
      else
        match db.expiredKeys roomId now "history-secret", db.expiredKeys roomId now "blob-key" with
        | some secrets, some blobKeys =>
          if call.fault 1 then (.error .sqlite, db)
          else (.ok (), { db with kvs := db.kvs.deleteAll (secrets ++ blobKeys) })
        | _, _ => (.error .corruptValue, db)

def putHistoryCiphertext (roomId : String) (epoch : ℕ) (ciphertext : Bytes) (retentionDays : ℕ) :
    Except StoreError Unit × Database K :=
  if !validateComponent roomId || ciphertext.isEmpty || maxOutboxPayload < ciphertext.length ||
      !validRetention retentionDays then
    (.error .invalidValue, db)
  else
    match call.unixSeconds with
    | none => (.error .invalidValue, db)
    | some now =>
      db.change call true (·.set (historyKey roomId epoch)
        (.historyCiphertext ⟨expiry now retentionDays, ciphertext⟩))

def historyCiphertext (roomId : String) (epoch : ℕ) :
    Except StoreError (Option Bytes) × Database K :=
  if !validateComponent roomId then (.error .invalidValue, db)
  else db.readExpiring call (historyKey roomId epoch) RowValue.asHistoryCiphertext
    StoredHistoryCiphertext.expiresAtUnixSeconds StoredHistoryCiphertext.ciphertext

/-- `get_by_prefix`. -/
def getByPrefix (text : String) : List (String × RowValue) :=
  db.kvs.entries.filter fun row ↦ packages.selects text row.1

/-- The loop of `set_history_ciphertext_retention`: what was written stays when a later row fails. -/
def setCiphertextExpiry (call : StorageCall) (expiresAt : ℕ) :
    List (String × RowValue) → Database K → Except StoreError Unit × Database K
  | [], db => (.ok (), db)
  | (key, value) :: rest, db =>
    match value.asHistoryCiphertext with
    | none => (.error .corruptValue, db)
    | some stored =>
      if call.fault 0 then (.error .sqlite, db)
      else
        let written := RowValue.historyCiphertext { stored with expiresAtUnixSeconds := expiresAt }
        setCiphertextExpiry (call.after 1) expiresAt rest
          { db with kvs := db.kvs.set key written }

def setHistoryCiphertextRetention (roomId : String) (retentionDays : ℕ) :
    Except StoreError Unit × Database K :=
  if !validateComponent roomId || !validRetention retentionDays then (.error .invalidValue, db)
  else
    match call.unixSeconds with
    | none => (.error .invalidValue, db)
    | some now =>
      if call.fault 0 then (.error .sqlite, db)
      else setCiphertextExpiry (call.after 1) (expiry now retentionDays)
        (db.getByPrefix packages (roomKeys "history" roomId)) db

def deleteHistoryCiphertext (roomId : String) (epoch : ℕ) : Except StoreError Unit × Database K :=
  db.change call (validateComponent roomId) (·.delete (historyKey roomId epoch))

/-- `parse::<u64>()`: digits, with one plus sign before them or none. -/
def parseU64 (text : List Char) : Option ℕ :=
  let digits := match text with
    | '+' :: rest => rest
    | _ => text
  if digits.isEmpty || !digits.all Char.isDigit then none
  else
    let value := Nat.ofDigitChars 10 digits 0
    if value < 2 ^ 64 then some value else none

/-- The loop of `latest_history_ciphertext`: each epoch is read, and expired ones are deleted. -/
def latestCiphertext (roomId : String) (call : StorageCall) :
    List (String × RowValue) → Option (ℕ × Bytes) → Database K →
      Except StoreError (Option (ℕ × Bytes)) × Database K
  | [], latest, db => (.ok latest, db)
  | (key, _) :: rest, latest, db =>
    match parseU64 (key.toList.drop (roomKeys "history" roomId).length) with
    | none => latestCiphertext roomId call rest latest db
    | some epoch =>
      match db.historyCiphertext call roomId epoch with
      | (.error error, db) => (.error error, db)
      | (.ok none, db) => latestCiphertext roomId (call.after 2) rest latest db
      | (.ok (some ciphertext), db) =>
        latestCiphertext roomId (call.after 2) rest
          (if latest.all fun current ↦ current.1 < epoch then some (epoch, ciphertext) else latest) db

def latestHistoryCiphertext (roomId : String) :
    Except StoreError (Option (ℕ × Bytes)) × Database K :=
  if !validateComponent roomId then (.error .invalidValue, db)
  else if call.fault 0 then (.error .sqlite, db)
  else latestCiphertext roomId (call.after 1) (db.getByPrefix packages (roomKeys "history" roomId))
    none db

/-- `delete_by_prefix`. -/
def deleteAllHistoryCiphertexts (roomId : String) : Except StoreError Unit × Database K :=
  db.change call (validateComponent roomId)
    (·.filter fun key _ ↦ !packages.selects (roomKeys "history" roomId) key)

def putRoomConfig (roomId : String) (payload : Bytes) : Except StoreError Unit × Database K :=
  db.change call
    (validateComponent roomId && !payload.isEmpty && payload.length ≤ maxOutboxPayload)
    (·.set (roomConfigKey roomId) (.bytes payload))

def roomConfig (roomId : String) : Except StoreError (Option RowValue) × Database K :=
  if !validateComponent roomId then (.error .invalidValue, db)
  else if call.fault 0 then (.error .sqlite, db)
  else
    match db.kvs.get (roomConfigKey roomId) with
    | none => (.ok none, db)
    | some value =>
      if value.asBytes.any fun item ↦ item.isEmpty || maxOutboxPayload < item.length then
        if call.fault 1 then (.error .sqlite, db)
        else (.error .corruptValue, { db with kvs := db.kvs.delete (roomConfigKey roomId) })
      else (.ok (some value), db)

def deleteRoomConfig (roomId : String) : Except StoreError Unit × Database K :=
  db.change call (validateComponent roomId) (·.delete (roomConfigKey roomId))

/-- `enqueue`, which replaces what is there under the id. -/
@[grind =] def enqueue (encodedLength : OutboxMetadata → ℕ) (item : OutboxItem) :
    Except StoreError Unit × Database K :=
  db.change call (item.validateOutbox encodedLength) (·.set (outboxKey item.id) (.outboxItem item))

def acknowledge (id : String) : Except StoreError Unit × Database K :=
  db.change call (validateComponent id) (·.delete (outboxKey id))

def deleteOutbox (id : String) : Except StoreError Unit × Database K :=
  if !validateComponent id then (.error .invalidValue, db)
  else if call.fault 0 then (.error .sqlite, db)
  else if !db.kvs.has (outboxKey id) then (.error .invalidValue, db)
  else (.ok (), { db with kvs := db.kvs.delete (outboxKey id) })

def recordInviteDenial (encodedLength : OutboxMetadata → ℕ) (receipt : DeniedInviteReceipt)
    (item : OutboxItem) : Except StoreError Unit × Database K :=
  if !validateComponent receipt.capabilityHandle || !item.validateOutbox encodedLength ||
      Text.utf8Length receipt.bindingHash != 64 ||
      128 < Text.utf8Length receipt.keyPackageHash ||
      receipt.responseOutboxId != item.id then
    (.error .invalidValue, db)
  else if call.fault 0 || db.kvs.has (inviteDenialReceiptKey receipt.capabilityHandle) ||
      db.kvs.has (outboxKey item.id) then
    (.error .sqlite, db)
  else
    let kvs := db.kvs.set (inviteDenialReceiptKey receipt.capabilityHandle)
      (.deniedInviteReceipt receipt)
    (.ok (), { db with kvs := kvs.set (outboxKey item.id) (.outboxItem item) })

def completeJoinReceipt (roomId requestId : String) : Except StoreError Unit × Database K :=
  if !validateComponent roomId || !validateComponent requestId then (.error .invalidValue, db)
  else if call.fault 0 then (.error .sqlite, db)
  else
    match db.kvs.get (joinReceiptKey requestId) with
    | none => (.error .invalidValue, db)
    | some value =>
      match value.asJoinReceipt with
      | none => (.error .corruptValue, db)
      | some receipt =>
        if receipt.roomId != roomId then (.error .invalidValue, db)
        else if call.fault 1 then (.error .sqlite, db)
        else (.ok (), { db with kvs := db.kvs.delete (joinReceiptKey requestId) })

end Database

/-- `char::is_control`. -/
def isControlChar (c : Char) : Bool := c.toNat < 0x20 || (0x7f ≤ c.toNat && c.toNat < 0xa0)

/-- `encode_capability_binding`, as far as whether it encodes. -/
def CapabilityBinding.encodes (binding : CapabilityBinding) : Bool :=
  binding.version = 3 && (binding.phase = "request" || binding.phase = "response") &&
    ([binding.inviteId, binding.teamId, binding.roomId, binding.keyPackageHash, binding.requestId,
      binding.requestNonce, binding.requesterUserId, binding.requesterDeviceId, binding.hostUserId,
      binding.hostDeviceId, binding.expiresAt].all fun field ↦
        !field.isEmpty && Text.utf8Length field ≤ 256 && !field.toList.any isControlChar) &&
    (binding.phase != "request" || (binding.status.isNone && binding.decidedAt.isNone)) &&
    (binding.phase != "response" || (binding.status.isSome && binding.decidedAt.isSome))

/-- `validate_pending_invite_request`. -/
def PendingInviteRequest.validate (request : PendingInviteRequest) : Bool :=
  validateComponent request.originalBinding.requestId && validateComponent request.keyPackageId &&
    request.originalBinding.phase = "request" && request.originalBinding.status.isNone &&
    request.originalBinding.decidedAt.isNone && request.originalBinding.encodes &&
    Text.utf8Length request.capabilityUrlValue = 43 &&
    asciiIdChars ['-', '_'] request.capabilityUrlValue && !request.sealedRequest.isEmpty &&
    Text.utf8Length request.sealedRequest ≤ maxOutboxPayload

namespace Database

variable {K : Type} (packages : Packages) (call : StorageCall) (db : Database K)

def putPendingInviteRequest (request : PendingInviteRequest) :
    Except StoreError Unit × Database K :=
  let key := pendingInviteKey request.originalBinding.requestId
  if !request.validate then (.error .invalidValue, db)
  else if call.fault 0 then (.error .sqlite, db)
  else
    match db.kvs.get key with
    | some value =>
      match value.asPendingInvite with
      | none => (.error .corruptValue, db)
      | some existing => (if existing = request then .ok () else .error .invalidValue, db)
    | none =>
      if call.fault 1 then (.error .sqlite, db)
      else if 16 ≤ (db.getByPrefix packages "pending-invite:").length then
        (.error .invalidValue, db)
      else if call.fault 2 then (.error .sqlite, db)
      else (.ok (), { db with kvs := db.kvs.set key (.pendingInvite request) })

def deletePendingInviteRequest (requestId : String) : Except StoreError Unit × Database K :=
  db.change call (validateComponent requestId) (·.delete (pendingInviteKey requestId))

/-- `delete_room_records_inner`. A record that does not decode keeps the room. -/
def deleteRoomRecords (mode : RoomDeletionMode) (roomId : String) :
    Except StoreError Unit × Database K :=
  if !validateComponent roomId then (.error .invalidValue, db)
  else if call.fault 0 then (.error .sqlite, db)
  else if db.kvs.entries.any fun row ↦ !(relatedRoom mode row.1 row.2).isOk then
    (.error .corruptValue, db)
  else if mode = .legacyCorrupt && !db.groups.has roomId then (.error .invalidValue, db)
  else (.ok (), {
    groups := db.groups.delete roomId
    epochs := db.epochs.filter fun key _ ↦ key.1 != roomId
    kvs := db.kvs.filter fun key value ↦ !isRowOf mode roomId key value })

/-- The history secret of a transaction, under the retention policy of its room. -/
def writeHistorySecret (kvs : InsertionMap String RowValue) :
    Option (String × ℕ × Bytes) → Except StoreError (InsertionMap String RowValue)
  | none => .ok kvs
  | some (roomId, epoch, secret) =>
    let policy := match kvs.get (historyRetentionKey roomId) with
      | none => some defaultHistoryRetentionDays
      | some value => value.asRetentionDays
    match policy, call.unixSeconds with
    | some retentionDays, some now =>
      if !validRetention retentionDays then .error .sqlite
      else
        let kvs := Storage.insertMissing kvs
          [(historyRetentionKey roomId, .retentionDays retentionDays)]
        .ok (kvs.set (historySecretKey roomId epoch)
          (.retainedSecret ⟨expiry now retentionDays, secret⟩))
    | _, _ => .error .sqlite

/-- `GroupStateStorage::write`, for what is staged. -/
def write (staged : Staged) (g : Group K) : Except StoreError Unit × Database K :=
  if call.fault 0 then (.error .sqlite, db)
  else
    match Storage.insertEpochs g.groupId db.epochs g.inserts with
    | .error error => (.error error, db)
    | .ok inserted =>
      match Storage.updateEpochs g.groupId inserted g.updates with
      | .error error => (.error error, db)
      | .ok updated =>
        let outbox := db.kvs.setAll
          (staged.outbox.map fun item ↦ (outboxKey item.id, .outboxItem item))
        let invited := Storage.insertMissing outbox (staged.inviteReceipts.map fun receipt ↦
          (inviteReceiptKey receipt.capabilityHandle, .inviteReceipt receipt))
        let joined := Storage.insertMissing invited (staged.joinReceipts.map fun receipt ↦
          (joinReceiptKey receipt.requestId, .joinReceipt receipt))
        match writeHistorySecret call joined staged.historySecret with
        | .error error => (.error error, db)
        | .ok kvs =>
          let retired := kvs.deleteAll (staged.outboxDelete.map outboxKey)
          (.ok (), {
            groups := db.groups.set g.groupId g.toGroupState
            epochs := Storage.pruneEpochs g.groupId g.inserts updated
            kvs := retired.deleteAll (staged.inviteReceiptDelete.map inviteReceiptKey) })

end Database

end MultAIplayer.Mls
