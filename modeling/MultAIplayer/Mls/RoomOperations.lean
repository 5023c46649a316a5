import MultAIplayer.Mls.RoomIsolation

/-!
# Operations on a room, and the other rooms

Every operation that changes the database, and which rooms and records it is addressed to. The
operations of the engine change the database through these, each with the room that it is called
for.

`SameRecords` says that the records of another room, its group, epochs and expiry times included,
are as they were. That is so after every operation that finds its rows by their keys or by the room
they name (`sameRecords_of_not_selectsByPattern`).
-/

namespace MultAIplayer.Mls

inductive StorageOp (K : Type) where
  | historySecret (roomId : String) (epoch : ℕ)
  | setHistoryRetention (roomId : String) (retentionDays : ℕ)
  | deleteHistoryEpoch (roomId : String) (epoch : ℕ)
  | putBlobKey (roomId : String) (blobId : Bytes) (epoch : ℕ) (key : Bytes)
  | blobKey (roomId : String) (blobId : Bytes) (epoch : ℕ)
  | deleteHistoryRecords (roomId : String)
  | pruneExpiredMaterial (roomId : String)
  | putHistoryCiphertext (roomId : String) (epoch : ℕ) (ciphertext : Bytes) (retentionDays : ℕ)
  | historyCiphertext (roomId : String) (epoch : ℕ)
  | setHistoryCiphertextRetention (roomId : String) (retentionDays : ℕ)
  | deleteHistoryCiphertext (roomId : String) (epoch : ℕ)
  | latestHistoryCiphertext (roomId : String)
  | deleteAllHistoryCiphertexts (roomId : String)
  | putRoomConfig (roomId : String) (payload : Bytes)
  | roomConfig (roomId : String)
  | deleteRoomConfig (roomId : String)
  | enqueue (item : OutboxItem)
  | acknowledge (id : String)
  | deleteOutbox (id : String)
  | recordInviteDenial (receipt : DeniedInviteReceipt) (item : OutboxItem)
  | completeJoinReceipt (roomId requestId : String)
  | putPendingInviteRequest (request : PendingInviteRequest)
  | deletePendingInviteRequest (requestId : String)
  | deleteRoomRecords (mode : RoomDeletionMode) (roomId : String)
  | write (staged : Staged) (g : Group K)

namespace StorageOp

variable {K : Type} (packages : Packages) (encodedLength : OutboxMetadata → ℕ)

/-- The database after an operation, whether it succeeds or fails. -/
def perform (call : StorageCall) (db : Database K) : StorageOp K → Database K
  | historySecret roomId epoch => (db.historySecret call roomId epoch).2
  | setHistoryRetention roomId days => (db.setHistoryRetention call roomId days).2
  | deleteHistoryEpoch roomId epoch => (db.deleteHistoryEpoch call roomId epoch).2
  | putBlobKey roomId blobId epoch key => (db.putBlobKey packages call roomId blobId epoch key).2
  | blobKey roomId blobId epoch => (db.blobKey packages call roomId blobId epoch).2
  | deleteHistoryRecords roomId => (db.deleteHistoryRecords call roomId).2
  | pruneExpiredMaterial roomId => (db.pruneExpiredMaterial call roomId).2
  | putHistoryCiphertext roomId epoch ciphertext days =>
    (db.putHistoryCiphertext call roomId epoch ciphertext days).2
  | historyCiphertext roomId epoch => (db.historyCiphertext call roomId epoch).2
  | setHistoryCiphertextRetention roomId days =>
    (db.setHistoryCiphertextRetention packages call roomId days).2
  | deleteHistoryCiphertext roomId epoch => (db.deleteHistoryCiphertext call roomId epoch).2
  | latestHistoryCiphertext roomId => (db.latestHistoryCiphertext packages call roomId).2
  | deleteAllHistoryCiphertexts roomId => (db.deleteAllHistoryCiphertexts packages call roomId).2
  | putRoomConfig roomId payload => (db.putRoomConfig call roomId payload).2
  | roomConfig roomId => (db.roomConfig call roomId).2
  | deleteRoomConfig roomId => (db.deleteRoomConfig call roomId).2
  | enqueue item => (db.enqueue call encodedLength item).2
  | acknowledge id => (db.acknowledge call id).2
  | deleteOutbox id => (db.deleteOutbox call id).2
  | recordInviteDenial receipt item => (db.recordInviteDenial call encodedLength receipt item).2
  | completeJoinReceipt roomId requestId => (db.completeJoinReceipt call roomId requestId).2
  | putPendingInviteRequest request => (db.putPendingInviteRequest packages call request).2
  | deletePendingInviteRequest requestId => (db.deletePendingInviteRequest call requestId).2
  | deleteRoomRecords mode roomId => (db.deleteRoomRecords call mode roomId).2
  | write staged g => (db.write call staged g).2

/-- The rooms that an operation is given, in its arguments and in the records it is to write. -/
@[grind =] def roomIds : StorageOp K → List String
  | historySecret roomId _ | setHistoryRetention roomId _ | deleteHistoryEpoch roomId _
  | putBlobKey roomId _ _ _ | blobKey roomId _ _ | deleteHistoryRecords roomId
  | pruneExpiredMaterial roomId | putHistoryCiphertext roomId _ _ _ | historyCiphertext roomId _
  | setHistoryCiphertextRetention roomId _ | deleteHistoryCiphertext roomId _
  | latestHistoryCiphertext roomId | deleteAllHistoryCiphertexts roomId | putRoomConfig roomId _
  | roomConfig roomId | deleteRoomConfig roomId | completeJoinReceipt roomId _
  | deleteRoomRecords _ roomId => [roomId]
  | enqueue item => [item.roomId]
  | acknowledge _ | deleteOutbox _ | deletePendingInviteRequest _ => []
  | recordInviteDenial receipt item => [receipt.responseBinding.roomId, item.roomId]
  | putPendingInviteRequest request => [request.originalBinding.roomId]
  | write staged g =>
    g.groupId :: staged.historySecret.toList.map Prod.fst ++
      (staged.outbox.map OutboxItem.roomId ++
        (staged.inviteReceipts.map fun receipt ↦ receipt.responseBinding.roomId) ++
          staged.joinReceipts.map ConsumedJoinReceipt.roomId)

/-- The records that an operation overwrites or deletes by an id of theirs that names no room. -/
def recordKeys : StorageOp K → List String
  | enqueue item => [outboxKey item.id]
  | acknowledge id | deleteOutbox id => [outboxKey id]
  | deletePendingInviteRequest requestId => [pendingInviteKey requestId]
  | write staged _ =>
    staged.outbox.map (fun item ↦ outboxKey item.id) ++ staged.outboxDelete.map outboxKey ++
      staged.inviteReceiptDelete.map inviteReceiptKey
  | _ => []

/-- The operations that find their rows by a pattern. -/
def selectsByPattern : StorageOp K → Bool
  | setHistoryRetention .. | deleteHistoryRecords .. | pruneExpiredMaterial .. => true
  | _ => false

/-- An operation on one room, and not on another: the room is the only one it is given, and the ids
that it names are not those of the other's records. -/
structure AddressedTo (op : StorageOp K) (db : Database K) (roomId other : String) : Prop where
  rooms : ∀ room ∈ op.roomIds, room = roomId
  records : ∀ key ∈ op.recordKeys, NoRow other db.kvs key

end StorageOp

variable {K : Type}

/-- The records of a room are the same in two databases. -/
structure SameRecords (roomId : String) (db db' : Database K) : Prop where
  group : db'.groups.get roomId = db.groups.get roomId
  epochs : SameEpochs roomId db.epochs db'.epochs
  rows : SameRows roomId db.kvs db'.kvs

/-! ### Operations that stay inside their room -/

namespace SameRecords

variable {db db' db'' : Database K} {other : String}

theorem refl (other : String) (db : Database K) : SameRecords other db db :=
  ⟨rfl, fun _ ↦ rfl, SameRows.refl other db.kvs⟩

theorem trans (h : SameRecords other db db') (h' : SameRecords other db' db'') :
    SameRecords other db db'' :=
  ⟨h'.group.trans h.group, fun epoch ↦ (h'.epochs epoch).trans (h.epochs epoch),
    h.rows.trans h'.rows⟩

/-- A change of rows only. -/
theorem of_rows {kvs : InsertionMap String RowValue} (h : SameRows other db.kvs kvs) :
    SameRecords other db { db with kvs := kvs } :=
  ⟨rfl, fun _ ↦ rfl, h⟩

theorem change {call : StorageCall} {valid : Bool}
    {f : InsertionMap String RowValue → InsertionMap String RowValue}
    (h : SameRows other db.kvs (f db.kvs)) : SameRecords other db (db.change call valid f).2 := by
  unfold Database.change
  split
  · exact refl other db
  split
  · exact refl other db
  · exact of_rows h

theorem readExpiring {call : StorageCall} {α : Type} {key : String} {decode : RowValue → Option α}
    {expiresAt : α → ℕ} {content : α → Bytes} (hkey : NoRow other db.kvs key) :
    SameRecords other db (db.readExpiring call key decode expiresAt content).2 := by
  unfold Database.readExpiring
  split
  · exact refl other db
  split
  · exact refl other db
  split
  · exact refl other db
  split
  · exact refl other db
  split
  · split
    · exact refl other db
    · exact of_rows (SameRows.delete hkey)
  · exact refl other db

end SameRecords

/-- The keys of a room, none of which is one of another room. -/
structure Foreign (other key : String) : Prop where
  noRow : ∀ m, NoRow other m key
  notRow : ∀ value, ¬RowOf other key value

section Foreign

variable {a b : String} (ha : validateComponent a = true) (hb : validateComponent b = true)
  (hne : a ≠ b)

include ha hb hne

theorem notRow_of_rowOf {key : String} {value : RowValue} (h : RowOf a key value) :
    ¬RowOf b key value :=
  fun hother ↦ hne (RowOf.unique ha hb h hother)

theorem foreign_of_isDirect {key : String} (h : isDirect .exact a key = true) : Foreign b key :=
  have hnot : ∀ value, ¬RowOf b key value :=
    fun _ ↦ notRow_of_rowOf ha hb hne (rowOf_iff.mpr (.inl h))
  ⟨fun _ value _ ↦ hnot value, hnot⟩

theorem foreign_of_startsWith {kind key : String} (hkind : kind ∈ roomKinds)
    (h : startsWith key (roomKeys kind a) = true) : Foreign b key :=
  foreign_of_isDirect ha hb hne (isDirect_of_startsWith hkind h)

theorem foreign_roomKeys_append {kind : String} (hkind : kind ∈ roomKinds) (rest : String) :
    Foreign b (roomKeys kind a ++ rest) :=
  foreign_of_startsWith ha hb hne hkind (by simp)

theorem foreign_historyRetentionKey : Foreign b (historyRetentionKey a) :=
  foreign_of_isDirect ha hb hne (by simp [isDirect])

theorem foreign_roomConfigKey : Foreign b (roomConfigKey a) :=
  foreign_of_isDirect ha hb hne (by simp [isDirect])

end Foreign

/-! ### Records that name their room -/

theorem startsWith_append (text rest : String) : startsWith (text ++ rest) text = true := by
  rw [startsWith_iff, String.toList_append]
  exact List.prefix_append _ _

/-- A key begins with its own kind and with no other. -/
theorem startsWith_eq_false {key kind : String} (other : String) (hkey : kindOf key = kind.toList)
    (hother : ':' ∉ other.toList) (hne : other ≠ kind) : startsWith key (other ++ ":") = false := by
  rw [Bool.eq_false_iff]
  intro hstarts
  rw [kindOf_of_startsWith hother hstarts] at hkey
  exact hne (String.toList_inj.mp hkey)

theorem relatedRoom_outboxItem (mode : RoomDeletionMode) (id : String) (item : OutboxItem) :
    relatedRoom mode (outboxKey id) (.outboxItem item) = .ok (some item.roomId) := by
  have hkind : startsWith (outboxKey id) "outbox:" = true := startsWith_append _ _
  unfold relatedRoom
  dsimp only
  rw [if_pos hkind]
  rfl

theorem relatedRoom_joinReceipt (mode : RoomDeletionMode) (id : String)
    (receipt : ConsumedJoinReceipt) :
    relatedRoom mode (joinReceiptKey id) (.joinReceipt receipt) = .ok (some receipt.roomId) := by
  have hkind : startsWith (joinReceiptKey id) "join-receipt:" = true :=
    startsWith_append _ _
  have hkey : kindOf (joinReceiptKey id) = "join-receipt".toList :=
    kindOf_of_startsWith (by decide) hkind
  have houtbox : startsWith (joinReceiptKey id) "outbox:" = false :=
    startsWith_eq_false "outbox" hkey (by decide) (by decide)
  unfold relatedRoom
  dsimp only
  rw [houtbox, hkind]
  rfl

theorem relatedRoom_inviteReceipt (mode : RoomDeletionMode) (id : String)
    (receipt : ConsumedInviteReceipt) :
    relatedRoom mode (inviteReceiptKey id) (.inviteReceipt receipt) =
      .ok (some receipt.responseBinding.roomId) := by
  have hkind : startsWith (inviteReceiptKey id) "invite-receipt:" = true :=
    startsWith_append _ _
  have hkey : kindOf (inviteReceiptKey id) = "invite-receipt".toList :=
    kindOf_of_startsWith (by decide) hkind
  have houtbox : startsWith (inviteReceiptKey id) "outbox:" = false :=
    startsWith_eq_false "outbox" hkey (by decide) (by decide)
  have hjoin : startsWith (inviteReceiptKey id) "join-receipt:" = false :=
    startsWith_eq_false "join-receipt" hkey (by decide) (by decide)
  unfold relatedRoom
  dsimp only
  rw [houtbox, hjoin, hkind]
  rfl

theorem relatedRoom_deniedInviteReceipt (mode : RoomDeletionMode) (id : String)
    (receipt : DeniedInviteReceipt) :
    relatedRoom mode (inviteDenialReceiptKey id) (.deniedInviteReceipt receipt) =
      .ok (some receipt.responseBinding.roomId) := by
  have hkind : startsWith (inviteDenialReceiptKey id) "invite-denial-receipt:" = true :=
    startsWith_append _ _
  have hkey : kindOf (inviteDenialReceiptKey id) = "invite-denial-receipt".toList :=
    kindOf_of_startsWith (by decide) hkind
  have houtbox : startsWith (inviteDenialReceiptKey id) "outbox:" = false :=
    startsWith_eq_false "outbox" hkey (by decide) (by decide)
  have hjoin : startsWith (inviteDenialReceiptKey id) "join-receipt:" = false :=
    startsWith_eq_false "join-receipt" hkey (by decide) (by decide)
  have hinvite : startsWith (inviteDenialReceiptKey id) "invite-receipt:" = false :=
    startsWith_eq_false "invite-receipt" hkey (by decide) (by decide)
  unfold relatedRoom
  dsimp only
  rw [houtbox, hjoin, hinvite, hkind]
  rfl

theorem relatedRoom_pendingInvite (id : String) (request : PendingInviteRequest) :
    relatedRoom .exact (pendingInviteKey id) (.pendingInvite request) =
      .ok (some request.originalBinding.roomId) := by
  have hkind : startsWith (pendingInviteKey id) "pending-invite:" = true :=
    startsWith_append _ _
  have hkey : kindOf (pendingInviteKey id) = "pending-invite".toList :=
    kindOf_of_startsWith (by decide) hkind
  have houtbox : startsWith (pendingInviteKey id) "outbox:" = false :=
    startsWith_eq_false "outbox" hkey (by decide) (by decide)
  have hjoin : startsWith (pendingInviteKey id) "join-receipt:" = false :=
    startsWith_eq_false "join-receipt" hkey (by decide) (by decide)
  have hinvite : startsWith (pendingInviteKey id) "invite-receipt:" = false :=
    startsWith_eq_false "invite-receipt" hkey (by decide) (by decide)
  have hdenial : startsWith (pendingInviteKey id) "invite-denial-receipt:" = false :=
    startsWith_eq_false "invite-denial-receipt" hkey (by decide) (by decide)
  unfold relatedRoom
  dsimp only
  rw [houtbox, hjoin, hinvite, hdenial, hkind]
  rfl

theorem rowOf_outboxItem (id : String) (item : OutboxItem) :
    RowOf item.roomId (outboxKey id) (.outboxItem item) :=
  rowOf_iff.mpr (.inr (relatedRoom_outboxItem .exact id item))

theorem rowOf_joinReceipt (id : String) (receipt : ConsumedJoinReceipt) :
    RowOf receipt.roomId (joinReceiptKey id) (.joinReceipt receipt) :=
  rowOf_iff.mpr (.inr (relatedRoom_joinReceipt .exact id receipt))

theorem rowOf_inviteReceipt (id : String) (receipt : ConsumedInviteReceipt) :
    RowOf receipt.responseBinding.roomId (inviteReceiptKey id) (.inviteReceipt receipt) :=
  rowOf_iff.mpr (.inr (relatedRoom_inviteReceipt .exact id receipt))

theorem rowOf_deniedInviteReceipt (id : String) (receipt : DeniedInviteReceipt) :
    RowOf receipt.responseBinding.roomId (inviteDenialReceiptKey id)
      (.deniedInviteReceipt receipt) :=
  rowOf_iff.mpr (.inr (relatedRoom_deniedInviteReceipt .exact id receipt))

theorem rowOf_pendingInvite (id : String) (request : PendingInviteRequest) :
    RowOf request.originalBinding.roomId (pendingInviteKey id) (.pendingInvite request) :=
  rowOf_iff.mpr (.inr (relatedRoom_pendingInvite id request))

/-! ### What each operation leaves alone -/

section Operations

variable {packages : Packages} {encodedLength : OutboxMetadata → ℕ} {call : StorageCall}
  {db : Database K} {a b : String}

theorem sameRecords_setCiphertextExpiry {expiresAt : ℕ} {rows : List (String × RowValue)}
    (hrows : ∀ row ∈ rows, Foreign b row.1) :
    SameRecords b db (Database.setCiphertextExpiry call expiresAt rows db).2 := by
  induction rows generalizing call db with
  | nil => exact .refl b db
  | cons row rows ih =>
    obtain ⟨key, value⟩ := row
    have hkey : Foreign b key := hrows _ (List.mem_cons_self ..)
    unfold Database.setCiphertextExpiry
    split
    · exact .refl b db
    split
    · exact .refl b db
    · exact (SameRecords.of_rows (SameRows.set (hkey.noRow _) (hkey.notRow _))).trans
        (ih fun row hrow ↦ hrows row (List.mem_cons_of_mem _ hrow))

theorem sameRecords_historyCiphertext {epoch : ℕ} (hkey : Foreign b (historyKey a epoch)) :
    SameRecords b db (db.historyCiphertext call a epoch).2 := by
  unfold Database.historyCiphertext
  split
  · exact .refl b db
  · exact .readExpiring (hkey.noRow _)

theorem sameRecords_latestCiphertext {rows : List (String × RowValue)}
    {latest : Option (ℕ × Bytes)} (hkey : ∀ epoch, Foreign b (historyKey a epoch)) :
    SameRecords b db (Database.latestCiphertext a call rows latest db).2 := by
  induction rows generalizing call latest db with
  | nil => exact .refl b db
  | cons row rows ih =>
    obtain ⟨key, value⟩ := row
    unfold Database.latestCiphertext
    split
    · exact ih
    · rename_i epoch _
      have hread : SameRecords b db (db.historyCiphertext call a epoch).2 :=
        sameRecords_historyCiphertext (hkey epoch)
      split <;> rename_i hresult <;> rw [hresult] at hread
      · exact hread
      · exact hread.trans ih
      · exact hread.trans ih

theorem sameRows_writeHistorySecret {kvs kvs' : InsertionMap String RowValue}
    {secret : Option (String × ℕ × Bytes)} (ha : validateComponent a = true)
    (hb : validateComponent b = true) (hne : a ≠ b) (hroom : ∀ entry ∈ secret, entry.1 = a)
    (h : Database.writeHistorySecret call kvs secret = .ok kvs') : SameRows b kvs kvs' := by
  unfold Database.writeHistorySecret at h
  split at h
  · cases h
    exact .refl b kvs
  rename_i room epoch bytes
  obtain rfl : room = a := hroom _ rfl
  have hpolicy := foreign_historyRetentionKey ha hb hne
  have hsecret : Foreign b (historySecretKey room epoch) :=
    foreign_roomKeys_append ha hb hne (by decide) _
  dsimp only at h
  split at h
  · split at h
    · cases h
    · cases h
      refine (SameRows.insertMissing _ ?_).trans (.set (hsecret.noRow _) (hsecret.notRow _))
      intro row hrow
      obtain rfl := List.mem_singleton.mp hrow
      exact hpolicy.notRow _
  · cases h

theorem isRowOf_exact {mode : RoomDeletionMode} {roomId key : String} {value : RowValue}
    (h : isRowOf mode roomId key value = true) : RowOf roomId key value := by
  cases mode with
  | exact => exact h
  | legacyCorrupt =>
    have hdirect : isDirect .legacyCorrupt roomId key = true →
        isDirect .exact roomId key = true := by
      intro h
      simp only [isDirect, Bool.or_eq_true, Bool.and_eq_true, decide_eq_true_eq] at h ⊢
      rcases h with h | h
      · exact .inl h
      · exact absurd h.1 (by decide)
    have hrelated : ∀ room, relatedRoom .legacyCorrupt key value = .ok (some room) →
        relatedRoom .exact key value = .ok (some room) := by
      intro room h
      unfold relatedRoom at h ⊢
      dsimp only at h ⊢
      split at h
      · rw [if_pos ‹_›]
        exact h
      rw [if_neg ‹_›]
      split at h
      · rw [if_pos ‹_›]
        exact h
      rw [if_neg ‹_›]
      split at h
      · rw [if_pos ‹_›]
        exact h
      rw [if_neg ‹_›]
      split at h
      · rw [if_pos ‹_›]
        exact h
      rw [if_neg ‹_›]
      split at h
      · rename_i hlegacy
        simp at hlegacy
      · cases h
    unfold isRowOf at h
    rw [Bool.or_eq_true] at h
    refine rowOf_iff.mpr (h.imp hdirect fun h ↦ ?_)
    split at h
    · rename_i room hroom
      obtain rfl : room = roomId := by simpa using h
      exact hrelated room hroom
    · cases h

theorem sameRecords_deleteRoomRecords {mode : RoomDeletionMode} (ha : validateComponent a = true)
    (hb : validateComponent b = true) (hne : a ≠ b) :
    SameRecords b db (db.deleteRoomRecords call mode a).2 := by
  unfold Database.deleteRoomRecords
  split
  · exact .refl b db
  split
  · exact .refl b db
  split
  · exact .refl b db
  split
  · exact .refl b db
  · refine ⟨InsertionMap.get_delete_of_ne _ hne.symm, fun epoch ↦ ?_, SameRows.filter ?_⟩
    · rw [InsertionMap.get_filter]
      cases db.epochs.get (b, epoch) <;> simp [hne.symm]
    · intro key value _ hrow
      cases hother : isRowOf mode a key value with
      | false => rfl
      | true => exact absurd (RowOf.unique ha hb (isRowOf_exact hother) hrow) hne

theorem sameRecords_write {staged : Staged} {g : Group K} (ha : validateComponent a = true)
    (hb : validateComponent b = true) (hne : a ≠ b)
    (hop : (StorageOp.write staged g).AddressedTo db a b) :
    SameRecords b db (db.write call staged g).2 := by
  have hrooms : ∀ room ∈ (StorageOp.write staged g).roomIds, room = a := hop.rooms
  have hkeys : ∀ key ∈ (StorageOp.write staged g).recordKeys, NoRow b db.kvs key := hop.records
  simp only [StorageOp.roomIds, StorageOp.recordKeys, List.mem_append, List.mem_cons,
    List.mem_map] at hrooms hkeys
  have hgroup : g.groupId = a := hrooms _ (by simp)
  have hnot {room key : String} {value : RowValue} (hroom : room = a) (h : RowOf room key value) :
      ¬RowOf b key value :=
    notRow_of_rowOf ha hb hne (hroom ▸ h)
  unfold Database.write
  split
  · exact .refl b db
  split
  · exact .refl b db
  rename_i inserted hinserted
  split
  · exact .refl b db
  rename_i updated hupdated
  dsimp only
  split
  · exact .refl b db
  rename_i kvs hkvs
  have houtbox : SameRows b db.kvs (db.kvs.setAll
      (staged.outbox.map fun item ↦ (outboxKey item.id, .outboxItem item))) := by
    refine SameRows.setAll fun row hrow ↦ ?_
    obtain ⟨item, hitem, rfl⟩ := List.mem_map.mp hrow
    refine ⟨hkeys _ (.inl (.inl ⟨item, hitem, rfl⟩)), hnot ?_ (rowOf_outboxItem item.id item)⟩
    exact hrooms _ (.inr (.inl (.inl ⟨item, hitem, rfl⟩)))
  have hinvited := houtbox.trans (SameRows.insertMissing
    (staged.inviteReceipts.map fun receipt ↦
      (inviteReceiptKey receipt.capabilityHandle, RowValue.inviteReceipt receipt)) (by
    intro row hrow
    obtain ⟨receipt, hreceipt, rfl⟩ := List.mem_map.mp hrow
    exact hnot (hrooms _ (.inr (.inl (.inr ⟨receipt, hreceipt, rfl⟩))))
      (rowOf_inviteReceipt _ receipt)))
  have hjoined := hinvited.trans (SameRows.insertMissing
    (staged.joinReceipts.map fun receipt ↦
      (joinReceiptKey receipt.requestId, RowValue.joinReceipt receipt)) (by
    intro row hrow
    obtain ⟨receipt, hreceipt, rfl⟩ := List.mem_map.mp hrow
    exact hnot (hrooms _ (.inr (.inr ⟨receipt, hreceipt, rfl⟩))) (rowOf_joinReceipt _ receipt)))
  have hwritten := hjoined.trans (sameRows_writeHistorySecret ha hb hne (by
    intro entry hentry
    exact hrooms _ (.inl (.inr ⟨entry, by simpa using hentry, rfl⟩))) hkvs)
  have hretired := hwritten.trans (SameRows.deleteAll (staged.outboxDelete.map outboxKey)
    fun key hkey ↦ hwritten.noRow (hkeys key (.inl (.inr (List.mem_map.mp hkey)))))
  refine ⟨?_, fun epoch ↦ ?_, hretired.trans (SameRows.deleteAll _ fun key hkey ↦
    hretired.noRow (hkeys key (.inr (List.mem_map.mp hkey))))⟩
  · rw [hgroup]
    exact InsertionMap.get_set_of_ne _ _ hne.symm
  · rw [hgroup] at hinserted hupdated ⊢
    exact (sameEpochs_pruneEpochs hne.symm _ _ epoch).trans
      ((sameEpochs_of_updateEpochs hne.symm hupdated epoch).trans
        (sameEpochs_of_insertEpochs hne.symm hinserted epoch))

/-! ### Every operation by keys and values -/

/-- An operation that finds its rows by their keys, or by the room they name, stays in its room. -/
theorem sameRecords_of_not_selectsByPattern {op : StorageOp K}
    (hpackages : packages.SelectsByPrefix) (ha : validateComponent a = true)
    (hb : validateComponent b = true) (hne : a ≠ b) (hop : op.AddressedTo db a b)
    (hpattern : op.selectsByPattern = false) :
    SameRecords b db (op.perform packages encodedLength call db) := by
  have hroom : ∀ room ∈ op.roomIds, room = a := hop.rooms
  have hkeys : ∀ key ∈ op.recordKeys, NoRow b db.kvs key := hop.records
  have hown {kind : String} (hkind : kind ∈ roomKinds) (rest : String) :
      Foreign b (roomKeys kind a ++ rest) :=
    foreign_roomKeys_append ha hb hne hkind rest
  have hhistory : ∀ key, packages.selects (roomKeys "history" a) key = true → Foreign b key := by
    intro key hselects
    rw [hpackages] at hselects
    exact foreign_of_startsWith ha hb hne (by decide) hselects
  have hconfig := foreign_roomConfigKey ha hb hne
  have hset {key : String} {value : RowValue} (hkey : Foreign b key) :
      SameRows b db.kvs (db.kvs.set key value) :=
    .set (hkey.noRow _) (hkey.notRow _)
  have hdelete {key : String} (hkey : Foreign b key) : SameRows b db.kvs (db.kvs.delete key) :=
    .delete (hkey.noRow _)
  have hrelated {room key : String} {value : RowValue} (hroom : room = a)
      (hrow : RowOf room key value) : ¬RowOf b key value :=
    notRow_of_rowOf ha hb hne (hroom ▸ hrow)
  cases op with
  | historySecret room epoch =>
    obtain rfl := hroom room (List.mem_singleton_self _)
    simp only [StorageOp.perform, Database.historySecret]
    split
    · exact .refl b db
    · exact .readExpiring ((hown (by decide) _).noRow _)
  | setHistoryRetention room days => cases hpattern
  | deleteHistoryEpoch room epoch =>
    obtain rfl := hroom room (List.mem_singleton_self _)
    exact .change (hdelete (hown (by decide) _))
  | putBlobKey room blobId epoch key =>
    obtain rfl := hroom room (List.mem_singleton_self _)
    simp only [StorageOp.perform, Database.putBlobKey]
    split
    · exact .refl b db
    split
    · exact .refl b db
    · exact .change (hset (hown (by decide) _))
  | blobKey room blobId epoch =>
    obtain rfl := hroom room (List.mem_singleton_self _)
    simp only [StorageOp.perform, Database.blobKey]
    split
    · exact .refl b db
    · exact .readExpiring ((hown (by decide) _).noRow _)
  | deleteHistoryRecords room => cases hpattern
  | pruneExpiredMaterial room => cases hpattern
  | putHistoryCiphertext room epoch ciphertext days =>
    obtain rfl := hroom room (List.mem_singleton_self _)
    simp only [StorageOp.perform, Database.putHistoryCiphertext]
    split
    · exact .refl b db
    split
    · exact .refl b db
    · exact .change (hset (hown (by decide) _))
  | historyCiphertext room epoch =>
    obtain rfl := hroom room (List.mem_singleton_self _)
    exact sameRecords_historyCiphertext (hown (by decide) _)
  | setHistoryCiphertextRetention room days =>
    obtain rfl := hroom room (List.mem_singleton_self _)
    simp only [StorageOp.perform, Database.setHistoryCiphertextRetention]
    split
    · exact .refl b db
    split
    · exact .refl b db
    split
    · exact .refl b db
    · exact sameRecords_setCiphertextExpiry fun row hrow ↦
        hhistory row.1 (List.mem_filter.mp hrow).2
  | deleteHistoryCiphertext room epoch =>
    obtain rfl := hroom room (List.mem_singleton_self _)
    exact .change (hdelete (hown (by decide) _))
  | latestHistoryCiphertext room =>
    obtain rfl := hroom room (List.mem_singleton_self _)
    simp only [StorageOp.perform, Database.latestHistoryCiphertext]
    split
    · exact .refl b db
    split
    · exact .refl b db
    · exact sameRecords_latestCiphertext fun epoch ↦ hown (by decide) _
  | deleteAllHistoryCiphertexts room =>
    obtain rfl := hroom room (List.mem_singleton_self _)
    refine .change (.filter fun key value _ hrow ↦ ?_)
    cases hselects : packages.selects (roomKeys "history" room) key with
    | false => rfl
    | true => exact absurd hrow ((hhistory key hselects).notRow value)
  | putRoomConfig room payload =>
    obtain rfl := hroom room (List.mem_singleton_self _)
    exact .change (hset hconfig)
  | roomConfig room =>
    obtain rfl := hroom room (List.mem_singleton_self _)
    simp only [StorageOp.perform, Database.roomConfig]
    split
    · exact .refl b db
    split
    · exact .refl b db
    split
    · exact .refl b db
    split
    · split
      · exact .refl b db
      · exact .of_rows (hdelete hconfig)
    · exact .refl b db
  | deleteRoomConfig room =>
    obtain rfl := hroom room (List.mem_singleton_self _)
    exact .change (hdelete hconfig)
  | enqueue item =>
    exact .change (.set (hkeys _ (List.mem_singleton_self _))
      (hrelated (hroom _ (List.mem_singleton_self _)) (rowOf_outboxItem item.id item)))
  | acknowledge id => exact .change (.delete (hkeys _ (List.mem_singleton_self _)))
  | deleteOutbox id =>
    simp only [StorageOp.perform, Database.deleteOutbox]
    split
    · exact .refl b db
    split
    · exact .refl b db
    split
    · exact .refl b db
    · exact .of_rows (.delete (hkeys _ (List.mem_singleton_self _)))
  | recordInviteDenial receipt item =>
    simp only [StorageOp.perform, Database.recordInviteDenial]
    split
    · exact .refl b db
    split
    · exact .refl b db
    rename_i hnew
    simp only [Bool.or_eq_true, not_or] at hnew
    have hdenial : SameRows b db.kvs (db.kvs.set
        (inviteDenialReceiptKey receipt.capabilityHandle) (.deniedInviteReceipt receipt)) := by
      refine .set (fun value hvalue ↦ ?_)
        (hrelated (hroom _ (List.mem_cons_self ..)) (rowOf_deniedInviteReceipt _ receipt))
      exact absurd (InsertionMap.has_iff.mpr ⟨value, hvalue⟩) hnew.1.2
    refine .of_rows (hdenial.trans (.set (hdenial.noRow fun value hvalue ↦ ?_)
      (hrelated (hroom item.roomId (by simp [StorageOp.roomIds])) (rowOf_outboxItem _ item))))
    exact absurd (InsertionMap.has_iff.mpr ⟨value, hvalue⟩) hnew.2
  | completeJoinReceipt room requestId =>
    obtain rfl := hroom room (List.mem_singleton_self _)
    simp only [StorageOp.perform, Database.completeJoinReceipt]
    split
    · exact .refl b db
    split
    · exact .refl b db
    split
    · exact .refl b db
    rename_i value hvalue
    split
    · exact .refl b db
    rename_i receipt hreceipt
    split
    · exact .refl b db
    rename_i hreceiptRoom
    split
    · exact .refl b db
    · refine .of_rows (.delete fun other hother ↦ ?_)
      rw [hvalue] at hother
      obtain rfl := Option.some.inj hother
      have hjoin : value = .joinReceipt receipt := by
        cases value <;> simp [RowValue.asJoinReceipt] at hreceipt
        rw [hreceipt]
      rw [hjoin]
      exact hrelated (by simpa using hreceiptRoom) (rowOf_joinReceipt _ receipt)
  | putPendingInviteRequest request =>
    simp only [StorageOp.perform, Database.putPendingInviteRequest]
    split
    · exact .refl b db
    split
    · exact .refl b db
    split
    · split
      · exact .refl b db
      · exact .refl b db
    rename_i hnone
    split
    · exact .refl b db
    split
    · exact .refl b db
    split
    · exact .refl b db
    · refine .of_rows (.set (fun value hvalue ↦ ?_)
        (hrelated (hroom _ (List.mem_singleton_self _)) (rowOf_pendingInvite _ request)))
      rw [hnone] at hvalue
      cases hvalue
  | deletePendingInviteRequest requestId =>
    exact .change (.delete (hkeys _ (List.mem_singleton_self _)))
  | deleteRoomRecords mode room =>
    obtain rfl := hroom room (List.mem_singleton_self _)
    exact sameRecords_deleteRoomRecords ha hb hne
  | write staged g => exact sameRecords_write ha hb hne hop

end Operations

end MultAIplayer.Mls
