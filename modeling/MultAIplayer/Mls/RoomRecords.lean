import MultAIplayer.Mls.RoomCollisions

/-!
# The records of a room, as they are written

Which records a room has is written down twice in the source: once where each of them is written,
and once in the deletion of a room. `RecordOf` follows the writers, `isRowOf` the deletion, and
`isRowOf_of_recordOf` says that they agree, in the mode of a corrupt group but for the three kinds
that this mode keeps on purpose (`keptKinds`).

Every operation of the storage leaves rows of the writers, or of the device, where there were such
rows before (`allRecorded_perform`).
-/

namespace MultAIplayer.Mls

/-! ### The records that are written -/

/-- A record of a room under the key that its writer gives it. -/
inductive RecordOf (packages : Packages) (roomId : String) : String → RowValue → Prop
  | historyRetention (days : ℕ) (hroom : validateComponent roomId = true) :
    RecordOf packages roomId (historyRetentionKey roomId) (.retentionDays days)
  | historySecret (epoch : ℕ) (retained : RetainedSecret)
    (hroom : validateComponent roomId = true) :
    RecordOf packages roomId (historySecretKey roomId epoch) (.retainedSecret retained)
  | blobKey (blobId : Bytes) (epoch : ℕ) (retained : RetainedSecret)
    (hroom : validateComponent roomId = true) :
    RecordOf packages roomId (blobKeyName packages roomId blobId epoch) (.retainedSecret retained)
  | history (epoch : ℕ) (stored : StoredHistoryCiphertext)
    (hroom : validateComponent roomId = true) :
    RecordOf packages roomId (historyKey roomId epoch) (.historyCiphertext stored)
  | roomConfig (payload : Bytes) (hroom : validateComponent roomId = true) :
    RecordOf packages roomId (roomConfigKey roomId) (.bytes payload)
  | outbox (item : OutboxItem) (hroom : item.roomId = roomId) :
    RecordOf packages roomId (outboxKey item.id) (.outboxItem item)
  | joinReceipt (receipt : ConsumedJoinReceipt) (hroom : receipt.roomId = roomId) :
    RecordOf packages roomId (joinReceiptKey receipt.requestId) (.joinReceipt receipt)
  | inviteReceipt (receipt : ConsumedInviteReceipt)
    (hroom : receipt.responseBinding.roomId = roomId) :
    RecordOf packages roomId (inviteReceiptKey receipt.capabilityHandle) (.inviteReceipt receipt)
  | deniedInviteReceipt (receipt : DeniedInviteReceipt)
    (hroom : receipt.responseBinding.roomId = roomId) :
    RecordOf packages roomId (inviteDenialReceiptKey receipt.capabilityHandle)
      (.deniedInviteReceipt receipt)
  | pendingInvite (request : PendingInviteRequest)
    (hroom : request.originalBinding.roomId = roomId) :
    RecordOf packages roomId (pendingInviteKey request.originalBinding.requestId)
      (.pendingInvite request)

/-- The kinds of the records of rooms. -/
def recordKinds : List String := "history-retention" :: "room-config" :: roomKinds ++ relatedKinds

/-- A row that is of no room. -/
def DeviceKey (key : String) : Prop := kindOf key ∉ recordKinds.map String.toList

/-- The kinds that the deletion of a corrupt group keeps. -/
def keptKinds : List String := ["history", "room-config", "pending-invite"]

@[grind =] def RoomDeletionMode.deletes (mode : RoomDeletionMode) (key : String) : Bool :=
  mode = .exact || kindOf key ∉ keptKinds.map String.toList

section Kinds

variable {mode : RoomDeletionMode} {roomId key : String} {value : RowValue}

theorem isRowOf_iff : isRowOf mode roomId key value = true ↔
    isDirect mode roomId key = true ∨ relatedRoom mode key value = .ok (some roomId) := by
  unfold isRowOf
  rw [Bool.or_eq_true]
  refine or_congr Iff.rfl ?_
  split
  · next room hroom => simp [hroom]
  · next hother =>
    simp only [Bool.false_eq_true, false_iff]
    exact hother roomId

theorem kindOf_of_roomKeys {kind : String} (hkind : ':' ∉ kind.toList)
    (h : startsWith key (roomKeys kind roomId) = true) : kindOf key = kind.toList := by
  obtain ⟨rest, hrest⟩ := startsWith_iff.mp h
  have hkey : key.toList = kind.toList ++ ':' :: (roomId.toList ++ ':' :: rest) := by
    rw [← hrest]
    simp [roomKeys]
  exact (kindOf_eq hkind hkey).1

/-- A corrupt group keeps its history and its configuration. -/
theorem isDirect_legacyCorrupt_iff : isDirect .legacyCorrupt roomId key = true ↔
    isDirect .exact roomId key = true ∧ RoomDeletionMode.legacyCorrupt.deletes key = true := by
  have hcolon : ':' ∉ "history".toList := by decide
  have hdeletes : ∀ {kind : String}, kindOf key = kind.toList → kind ∉ keptKinds →
      RoomDeletionMode.legacyCorrupt.deletes key = true := by
    intro kind hkind hkept
    unfold RoomDeletionMode.deletes
    rw [hkind]
    simpa [List.mem_map, String.toList_inj] using hkept
  have hkeeps : ∀ {kind : String}, kindOf key = kind.toList → kind ∈ keptKinds →
      ¬RoomDeletionMode.legacyCorrupt.deletes key = true := by
    intro kind hkind hkept
    unfold RoomDeletionMode.deletes
    rw [hkind]
    simpa [List.mem_map, String.toList_inj] using hkept
  simp only [isDirect, Bool.or_eq_true, Bool.and_eq_true, decide_eq_true_eq, reduceCtorEq,
    false_and, or_false, true_and]
  constructor
  · intro h
    refine ⟨.inl h, ?_⟩
    rcases h with (rfl | h) | h
    · exact hdeletes (directRoom_of_eq (.inl rfl) rfl).1 (by decide)
    · exact hdeletes (kindOf_of_roomKeys (by decide) h) (by decide)
    · exact hdeletes (kindOf_of_roomKeys (by decide) h) (by decide)
  · rintro ⟨h | h | h, hmode⟩
    · exact h
    · exact absurd hmode (hkeeps (kindOf_of_roomKeys hcolon h) (by decide))
    · exact absurd hmode (hkeeps (directRoom_of_eq (.inr rfl) h).1 (by decide))

theorem relatedRoom_of_pendingInvite (hkey : kindOf key = "pending-invite".toList) :
    relatedRoom mode key value =
      if mode = .exact && startsWith key "pending-invite:" then
        match value.asPendingInvite with
        | none => .error .corruptValue
        | some request => .ok (some request.originalBinding.roomId)
      else .ok none := by
  have houtbox : startsWith key "outbox:" = false :=
    startsWith_eq_false "outbox" hkey (by decide) (by decide)
  have hjoin : startsWith key "join-receipt:" = false :=
    startsWith_eq_false "join-receipt" hkey (by decide) (by decide)
  have hinvite : startsWith key "invite-receipt:" = false :=
    startsWith_eq_false "invite-receipt" hkey (by decide) (by decide)
  have hdenial : startsWith key "invite-denial-receipt:" = false :=
    startsWith_eq_false "invite-denial-receipt" hkey (by decide) (by decide)
  unfold relatedRoom
  dsimp only
  rw [houtbox, hjoin, hinvite, hdenial]
  rcases value.asPendingInvite with _ | request <;> rfl

/-- A corrupt group keeps its pending requests. -/
theorem relatedRoom_legacyCorrupt : relatedRoom .legacyCorrupt key value =
    if startsWith key "pending-invite:" then .ok none else relatedRoom .exact key value := by
  by_cases hpending : startsWith key "pending-invite:" = true
  · rw [relatedRoom_of_pendingInvite (kindOf_of_startsWith (by decide) hpending), if_pos hpending]
    rfl
  · rw [if_neg hpending]
    unfold relatedRoom
    dsimp only
    rw [Bool.not_eq_true] at hpending
    rw [hpending, Bool.and_false, Bool.and_false]

/-- **What a deletion deletes**, in either mode. -/
theorem isRowOf_iff_deletes :
    isRowOf mode roomId key value = true ↔ RowOf roomId key value ∧ mode.deletes key = true := by
  rcases mode with _ | _
  · have hrelated : relatedRoom .legacyCorrupt key value = .ok (some roomId) ↔
        relatedRoom .exact key value = .ok (some roomId) ∧
          RoomDeletionMode.legacyCorrupt.deletes key = true := by
      rw [relatedRoom_legacyCorrupt]
      split
      · next hpending =>
        have hkey : kindOf key = "pending-invite".toList :=
          kindOf_of_startsWith (by decide) hpending
        have hkept : RoomDeletionMode.legacyCorrupt.deletes key = false := by
          unfold RoomDeletionMode.deletes
          rw [hkey]
          decide
        simp [hkept]
      · next hpending =>
        refine (and_iff_left_of_imp fun h ↦ ?_).symm
        obtain ⟨kind, hkind, hkey⟩ := relatedKind_of_relatedRoom h
        have hother : kind ≠ "pending-invite" := by
          rintro rfl
          rw [relatedRoom_of_pendingInvite hkey, (Bool.not_eq_true _).mp hpending] at h
          cases h
        have hdeletes : ∀ kind ∈ relatedKinds, kind ≠ "pending-invite" →
            kind.toList ∉ keptKinds.map String.toList := by decide
        unfold RoomDeletionMode.deletes
        rw [hkey]
        simpa using hdeletes kind hkind hother
    rw [isRowOf_iff, isDirect_legacyCorrupt_iff, hrelated, rowOf_iff, or_and_right]
  · simp [RowOf, RoomDeletionMode.deletes]

end Kinds

/-! ### Both lists agree -/

section Agreement

variable {packages : Packages} {mode : RoomDeletionMode} {room roomId key : String}
  {value : RowValue}

theorem rowOf_of_recordOf (h : RecordOf packages room key value) : RowOf room key value := by
  rcases h with ⟨days, -⟩ | ⟨epoch, retained, -⟩ | ⟨blobId, epoch, retained, -⟩ |
    ⟨epoch, stored, -⟩ | ⟨payload, -⟩ | ⟨item, rfl⟩ | ⟨receipt, rfl⟩ | ⟨receipt, rfl⟩ |
    ⟨receipt, rfl⟩ | ⟨request, rfl⟩
  · exact rowOf_iff.mpr (.inl (by simp [isDirect]))
  · have hkind : "history-secret" ∈ roomKinds := by decide
    exact rowOf_iff.mpr (.inl (isDirect_of_startsWith hkind (startsWith_append _ _)))
  · have hkind : "blob-key" ∈ roomKinds := by decide
    exact rowOf_iff.mpr (.inl (isDirect_of_startsWith hkind (startsWith_append _ _)))
  · have hkind : "history" ∈ roomKinds := by decide
    exact rowOf_iff.mpr (.inl (isDirect_of_startsWith hkind (startsWith_append _ _)))
  · exact rowOf_iff.mpr (.inl (by simp [isDirect]))
  · exact rowOf_outboxItem _ item
  · exact rowOf_joinReceipt _ receipt
  · exact rowOf_inviteReceipt _ receipt
  · exact rowOf_deniedInviteReceipt _ receipt
  · exact rowOf_pendingInvite _ request

/-- A record whose key does not tell its room names it. -/
theorem validateComponent_or_related (h : RecordOf packages room key value) :
    validateComponent room = true ∨ relatedRoom .exact key value = .ok (some room) := by
  rcases h with ⟨days, hroom⟩ | ⟨epoch, retained, hroom⟩ | ⟨blobId, epoch, retained, hroom⟩ |
    ⟨epoch, stored, hroom⟩ | ⟨payload, hroom⟩ | ⟨item, rfl⟩ | ⟨receipt, rfl⟩ | ⟨receipt, rfl⟩ |
    ⟨receipt, rfl⟩ | ⟨request, rfl⟩
  · exact .inl hroom
  · exact .inl hroom
  · exact .inl hroom
  · exact .inl hroom
  · exact .inl hroom
  · exact .inr (relatedRoom_outboxItem _ _ item)
  · exact .inr (relatedRoom_joinReceipt _ _ receipt)
  · exact .inr (relatedRoom_inviteReceipt _ _ receipt)
  · exact .inr (relatedRoom_deniedInviteReceipt _ _ receipt)
  · exact .inr (relatedRoom_pendingInvite _ request)

theorem rowOf_recordOf_iff (hroomId : validateComponent roomId = true)
    (h : RecordOf packages room key value) : RowOf roomId key value ↔ room = roomId := by
  constructor
  · intro hrow
    rcases validateComponent_or_related h with hroom | hrelated
    · exact RowOf.unique hroom hroomId (rowOf_of_recordOf h) hrow
    · rcases rowOf_iff.mp hrow with hdirect | hother
      · have hkey := directRoom_of_isDirect (colon_not_mem hroomId) hdirect
        rw [directRoom_of_relatedRoom hrelated] at hkey
        cases hkey
      · rw [hrelated] at hother
        exact Option.some.inj (Except.ok.inj hother)
  · rintro rfl
    exact rowOf_of_recordOf h

/-- **The deletion lists what the writers write.** -/
theorem isRowOf_of_recordOf (hroomId : validateComponent roomId = true)
    (h : RecordOf packages room key value) :
    isRowOf mode roomId key value = true ↔ room = roomId ∧ mode.deletes key = true := by
  rw [isRowOf_iff_deletes, rowOf_recordOf_iff hroomId h]

theorem isRowOf_of_deviceKey (h : DeviceKey key) : isRowOf mode roomId key value = false := by
  have hmem : ∀ kind ∈ recordKinds, kindOf key ≠ kind.toList :=
    fun kind hkind hkey ↦ h (List.mem_map.mpr ⟨kind, hkind, hkey.symm⟩)
  rw [Bool.eq_false_iff]
  intro hrow
  rcases rowOf_iff.mp (isRowOf_iff_deletes.mp hrow).1 with hdirect | hrelated
  · rcases isDirect_cases hdirect with ⟨kind, hkind, hstarts⟩ | ⟨kind, hkind, hkey⟩
    · have hcolon : ∀ k ∈ roomKinds, ':' ∉ k.toList ∧ k ∈ recordKinds := by decide
      exact hmem kind (hcolon kind hkind).2 (kindOf_of_roomKeys (hcolon kind hkind).1 hstarts)
    · refine hmem kind ?_ (directRoom_of_eq hkind hkey).1
      rcases hkind with rfl | rfl <;> decide
  · obtain ⟨kind, hkind, hkey⟩ := relatedKind_of_relatedRoom hrelated
    have hrecord : ∀ k ∈ relatedKinds, k ∈ recordKinds := by decide
    exact hmem kind (hrecord kind hkind) hkey

end Agreement

/-! ### What the operations write -/

/-- A row that a writer of the crate has made, or one of the device. -/
def Recorded (packages : Packages) (key : String) (value : RowValue) : Prop :=
  (∃ room, RecordOf packages room key value) ∨ DeviceKey key

/-- Every row is a record of a room or one of the device. -/
def AllRecorded (packages : Packages) (kvs : InsertionMap String RowValue) : Prop :=
  ∀ key value, kvs.get key = some value → Recorded packages key value

/-- A new expiry leaves a secret a record. -/
theorem Recorded.retainedSecret {packages : Packages} {key : String} {retained : RetainedSecret}
    (h : Recorded packages key (.retainedSecret retained)) (retained' : RetainedSecret) :
    Recorded packages key (.retainedSecret retained') := by
  refine h.imp_left fun ⟨room, hrecord⟩ ↦ ⟨room, ?_⟩
  rcases hrecord with _ | ⟨epoch, -, hroom⟩ | ⟨blobId, epoch, -, hroom⟩
  · exact .historySecret epoch retained' hroom
  · exact .blobKey blobId epoch retained' hroom

theorem Recorded.historyCiphertext {packages : Packages} {key : String}
    {stored : StoredHistoryCiphertext} (h : Recorded packages key (.historyCiphertext stored))
    (stored' : StoredHistoryCiphertext) : Recorded packages key (.historyCiphertext stored') := by
  refine h.imp_left fun ⟨room, hrecord⟩ ↦ ⟨room, ?_⟩
  rcases hrecord with _ | _ | _ | ⟨epoch, -, hroom⟩
  exact .history epoch stored' hroom

namespace AllRecorded

variable {packages : Packages} {m : InsertionMap String RowValue} {key : String} {value : RowValue}

theorem of_get {n : InsertionMap String RowValue} (h : AllRecorded packages m)
    (hn : ∀ key value, n.get key = some value →
      m.get key = some value ∨ Recorded packages key value) : AllRecorded packages n :=
  fun key value hget ↦ (hn key value hget).elim (h key value) id

theorem set (h : AllRecorded packages m) (hvalue : Recorded packages key value) :
    AllRecorded packages (m.set key value) := by
  refine h.of_get fun other written hget ↦ ?_
  by_cases hother : other = key
  · subst hother
    rw [InsertionMap.get_set_self] at hget
    exact .inr (Option.some.inj hget ▸ hvalue)
  · rw [InsertionMap.get_set_of_ne _ _ hother] at hget
    exact .inl hget

theorem filter (h : AllRecorded packages m) (p : String → RowValue → Bool) :
    AllRecorded packages (m.filter p) := by
  refine h.of_get fun other written hget ↦ .inl ?_
  rw [InsertionMap.get_filter] at hget
  exact (Option.filter_eq_some_iff.mp hget).1

theorem delete (h : AllRecorded packages m) (key : String) :
    AllRecorded packages (m.delete key) := h.filter _

theorem deleteAll (h : AllRecorded packages m) (keys : List String) :
    AllRecorded packages (m.deleteAll keys) := h.filter _

theorem setAll (h : AllRecorded packages m) {rows : List (String × RowValue)}
    (hrows : ∀ row ∈ rows, Recorded packages row.1 row.2) :
    AllRecorded packages (m.setAll rows) := by
  induction rows generalizing m with
  | nil => exact h
  | cons row rows ih =>
    exact ih (h.set (hrows row List.mem_cons_self))
      fun other hother ↦ hrows other (List.mem_cons_of_mem _ hother)

theorem insertMissing (h : AllRecorded packages m) {rows : List (String × RowValue)}
    (hrows : ∀ row ∈ rows, Recorded packages row.1 row.2) :
    AllRecorded packages (Storage.insertMissing m rows) := by
  induction rows generalizing m with
  | nil => exact h
  | cons row rows ih =>
    obtain ⟨key, value⟩ := row
    unfold Storage.insertMissing
    have hrest := fun other hother ↦ hrows other (List.mem_cons_of_mem _ hother)
    split
    · exact ih h hrest
    · exact ih (h.set (hrows _ List.mem_cons_self)) hrest

end AllRecorded

section Writers

variable {K : Type} {packages : Packages} {encodedLength : OutboxMetadata → ℕ} {call : StorageCall}
  {db : Database K}

theorem allRecorded_change {valid : Bool}
    {f : InsertionMap String RowValue → InsertionMap String RowValue}
    (h : AllRecorded packages db.kvs)
    (hf : valid = true → AllRecorded packages (f db.kvs)) :
    AllRecorded packages (db.change call valid f).2.kvs := by
  unfold Database.change
  split
  · exact h
  · next hvalid =>
    split
    · exact h
    · exact hf (by simpa using hvalid)

theorem allRecorded_readExpiring {α : Type} {key : String} {decode : RowValue → Option α}
    {expiresAt : α → ℕ} {content : α → Bytes} (h : AllRecorded packages db.kvs) :
    AllRecorded packages (db.readExpiring call key decode expiresAt content).2.kvs := by
  unfold Database.readExpiring
  split
  · exact h
  split
  · exact h
  split
  · exact h
  split
  · exact h
  split
  · split
    · exact h
    · exact h.delete _
  · exact h

theorem allRecorded_historyCiphertext {roomId : String} {epoch : ℕ}
    (h : AllRecorded packages db.kvs) :
    AllRecorded packages (db.historyCiphertext call roomId epoch).2.kvs := by
  unfold Database.historyCiphertext
  split
  · exact h
  · exact allRecorded_readExpiring h

theorem allRecorded_setCiphertextExpiry {expiresAt : ℕ} {rows : List (String × RowValue)}
    (h : AllRecorded packages db.kvs) (hrows : ∀ row ∈ rows, Recorded packages row.1 row.2) :
    AllRecorded packages (Database.setCiphertextExpiry call expiresAt rows db).2.kvs := by
  induction rows generalizing call db with
  | nil => exact h
  | cons row rows ih =>
    obtain ⟨key, value⟩ := row
    unfold Database.setCiphertextExpiry
    split
    · exact h
    · next stored hstored =>
      split
      · exact h
      · have hvalue : value = .historyCiphertext stored := by
          cases value <;> simp [RowValue.asHistoryCiphertext] at hstored
          rw [hstored]
        have hrow : Recorded packages key value := hrows _ List.mem_cons_self
        rw [hvalue] at hrow
        exact ih (h.set (hrow.historyCiphertext _))
          fun other hother ↦ hrows other (List.mem_cons_of_mem _ hother)

theorem allRecorded_latestCiphertext {roomId : String} {rows : List (String × RowValue)}
    {latest : Option (ℕ × Bytes)} (h : AllRecorded packages db.kvs) :
    AllRecorded packages (Database.latestCiphertext roomId call rows latest db).2.kvs := by
  induction rows generalizing call latest db with
  | nil => exact h
  | cons row rows ih =>
    obtain ⟨key, value⟩ := row
    unfold Database.latestCiphertext
    split
    · exact ih h
    · next epoch _ =>
      have hread : AllRecorded packages (db.historyCiphertext call roomId epoch).2.kvs :=
        allRecorded_historyCiphertext h
      split
      all_goals
        next hresult =>
        rw [hresult] at hread
        first
        | exact hread
        | exact ih hread

/-- The secrets that a change of retention writes are records. -/
theorem recorded_rescheduled {kvs : InsertionMap String RowValue} {roomId : String}
    {expiresAt : ℕ} {updates : List (String × RowValue)} (h : AllRecorded packages kvs)
    (hupdates : Database.rescheduled kvs roomId expiresAt = some updates) :
    ∀ row ∈ updates, Recorded packages row.1 row.2 := by
  intro row hrow
  unfold Database.rescheduled at hupdates
  obtain ⟨⟨key, value⟩, hold, hupdated⟩ := (mem_of_mapM_eq_some hupdates row).mp hrow
  obtain ⟨retained, hretained, rfl⟩ := Option.map_eq_some_iff.mp hupdated
  have hget := InsertionMap.mem_entries_iff.mp (List.mem_of_mem_filter hold)
  obtain rfl := RowValue.asRetainedSecret_eq_some.mp hretained
  exact (h key _ hget).retainedSecret _

theorem allRecorded_writeHistorySecret {kvs kvs' : InsertionMap String RowValue}
    {secret : Option (String × ℕ × Bytes)} (h : AllRecorded packages kvs)
    (hrooms : ∀ entry ∈ secret, validateComponent entry.1 = true)
    (hwritten : Database.writeHistorySecret call kvs secret = .ok kvs') :
    AllRecorded packages kvs' := by
  unfold Database.writeHistorySecret at hwritten
  split at hwritten
  · cases hwritten
    exact h
  · next roomId epoch bytes =>
    have hroom : validateComponent roomId = true := hrooms _ rfl
    dsimp only at hwritten
    split at hwritten
    · split at hwritten
      · cases hwritten
      · cases hwritten
        refine (h.insertMissing ?_).set (.inl ⟨roomId, .historySecret epoch _ hroom⟩)
        exact List.forall_mem_singleton.mpr (.inl ⟨roomId, .historyRetention _ hroom⟩)
    · cases hwritten

theorem allRecorded_write {staged : Staged} {g : Group K} (h : AllRecorded packages db.kvs)
    (hrooms : ∀ entry ∈ staged.historySecret, validateComponent entry.1 = true) :
    AllRecorded packages (db.write call staged g).2.kvs := by
  unfold Database.write
  split
  · exact h
  split
  · exact h
  split
  · exact h
  dsimp only
  split
  · exact h
  · next kvs hkvs =>
    refine AllRecorded.deleteAll (AllRecorded.deleteAll
      (allRecorded_writeHistorySecret ?_ hrooms hkvs) _) _
    refine AllRecorded.insertMissing (AllRecorded.insertMissing (h.setAll ?_) ?_) ?_
    · intro row hrow
      obtain ⟨item, -, rfl⟩ := List.mem_map.mp hrow
      exact .inl ⟨_, .outbox item rfl⟩
    · intro row hrow
      obtain ⟨receipt, -, rfl⟩ := List.mem_map.mp hrow
      exact .inl ⟨_, .inviteReceipt receipt rfl⟩
    · intro row hrow
      obtain ⟨receipt, -, rfl⟩ := List.mem_map.mp hrow
      exact .inl ⟨_, .joinReceipt receipt rfl⟩

/-- The rooms whose secrets are staged were checked when they were staged. -/
def StorageOp.StagesRooms : StorageOp K → Prop
  | .write staged _ => ∀ entry ∈ staged.historySecret, validateComponent entry.1 = true
  | _ => True

/-- **Every writer gives a row the key of its room.** -/
theorem allRecorded_perform (op : StorageOp K) (h : AllRecorded packages db.kvs)
    (hop : op.StagesRooms) :
    AllRecorded packages (op.perform packages encodedLength call db).kvs := by
  cases op with
  | historySecret room epoch =>
    simp only [StorageOp.perform, Database.historySecret]
    split
    · exact h
    · exact allRecorded_readExpiring h
  | setHistoryRetention room days =>
    simp only [StorageOp.perform, Database.setHistoryRetention]
    split
    · exact h
    next hvalid =>
    have hroom : validateComponent room = true := by
      simp only [Bool.or_eq_true, Bool.not_eq_true', not_or, Bool.not_eq_false] at hvalid
      exact hvalid.1
    split
    · exact h
    split
    · exact h
    split
    · exact h
    · next updates hupdates =>
      have hset : AllRecorded packages (db.kvs.set (historyRetentionKey room) _) :=
        h.set (.inl ⟨room, .historyRetention days hroom⟩)
      exact hset.setAll (recorded_rescheduled hset hupdates)
  | deleteHistoryEpoch room epoch => exact allRecorded_change h fun _ ↦ h.delete _
  | putBlobKey room blobId epoch key =>
    simp only [StorageOp.perform, Database.putBlobKey]
    split
    · exact h
    next hvalid =>
    have hroom : validateComponent room = true := by
      simp only [Bool.or_eq_true, Bool.not_eq_true', not_or, Bool.not_eq_false] at hvalid
      exact hvalid.1.1.1
    split
    · exact h
    · exact allRecorded_change h fun _ ↦ h.set (.inl ⟨room, .blobKey blobId epoch _ hroom⟩)
  | blobKey room blobId epoch =>
    simp only [StorageOp.perform, Database.blobKey]
    split
    · exact h
    · exact allRecorded_readExpiring h
  | deleteHistoryRecords room => exact allRecorded_change h fun _ ↦ (h.filter _).filter _
  | pruneExpiredMaterial room =>
    simp only [StorageOp.perform, Database.pruneExpiredMaterial]
    split
    · exact h
    split
    · exact h
    split
    · exact h
    split
    · split
      · exact h
      · exact h.deleteAll _
    · exact h
  | putHistoryCiphertext room epoch ciphertext days =>
    simp only [StorageOp.perform, Database.putHistoryCiphertext]
    split
    · exact h
    next hvalid =>
    have hroom : validateComponent room = true := by
      simp only [Bool.or_eq_true, Bool.not_eq_true', not_or, Bool.not_eq_false] at hvalid
      exact hvalid.1.1.1
    split
    · exact h
    · exact allRecorded_change h fun _ ↦ h.set (.inl ⟨room, .history epoch _ hroom⟩)
  | historyCiphertext room epoch => exact allRecorded_historyCiphertext h
  | setHistoryCiphertextRetention room days =>
    simp only [StorageOp.perform, Database.setHistoryCiphertextRetention]
    split
    · exact h
    split
    · exact h
    split
    · exact h
    · exact allRecorded_setCiphertextExpiry h fun row hrow ↦
        h row.1 row.2 (InsertionMap.mem_entries_iff.mp (List.mem_of_mem_filter hrow))
  | deleteHistoryCiphertext room epoch => exact allRecorded_change h fun _ ↦ h.delete _
  | latestHistoryCiphertext room =>
    simp only [StorageOp.perform, Database.latestHistoryCiphertext]
    split
    · exact h
    split
    · exact h
    · exact allRecorded_latestCiphertext h
  | deleteAllHistoryCiphertexts room => exact allRecorded_change h fun _ ↦ h.filter _
  | putRoomConfig room payload =>
    refine allRecorded_change h fun hvalid ↦ h.set (.inl ⟨room, .roomConfig payload ?_⟩)
    simp only [Bool.and_eq_true] at hvalid
    exact hvalid.1.1
  | roomConfig room =>
    simp only [StorageOp.perform, Database.roomConfig]
    split
    · exact h
    split
    · exact h
    split
    · exact h
    split
    · split
      · exact h
      · exact h.delete _
    · exact h
  | deleteRoomConfig room => exact allRecorded_change h fun _ ↦ h.delete _
  | enqueue item => exact allRecorded_change h fun _ ↦ h.set (.inl ⟨_, .outbox item rfl⟩)
  | acknowledge id => exact allRecorded_change h fun _ ↦ h.delete _
  | deleteOutbox id =>
    simp only [StorageOp.perform, Database.deleteOutbox]
    split
    · exact h
    split
    · exact h
    split
    · exact h
    · exact h.delete _
  | recordInviteDenial receipt item =>
    simp only [StorageOp.perform, Database.recordInviteDenial]
    split
    · exact h
    split
    · exact h
    · exact (h.set (.inl ⟨_, .deniedInviteReceipt receipt rfl⟩)).set (.inl ⟨_, .outbox item rfl⟩)
  | completeJoinReceipt room requestId =>
    simp only [StorageOp.perform, Database.completeJoinReceipt]
    split
    · exact h
    split
    · exact h
    split
    · exact h
    split
    · exact h
    split
    · exact h
    split
    · exact h
    · exact h.delete _
  | putPendingInviteRequest request =>
    simp only [StorageOp.perform, Database.putPendingInviteRequest]
    split
    · exact h
    split
    · exact h
    split
    · split
      · exact h
      · exact h
    split
    · exact h
    split
    · exact h
    split
    · exact h
    · exact h.set (.inl ⟨_, .pendingInvite request rfl⟩)
  | deletePendingInviteRequest requestId => exact allRecorded_change h fun _ ↦ h.delete _
  | deleteRoomRecords mode room =>
    simp only [StorageOp.perform, Database.deleteRoomRecords]
    split
    · exact h
    split
    · exact h
    split
    · exact h
    split
    · exact h
    · exact h.filter _
  | write staged g => exact allRecorded_write h hop

/-- After every run of the operations, each row is a record of a room or one of the device. -/
theorem allRecorded_run {actions : List (StorageOp K × StorageCall)}
    (h : AllRecorded packages db.kvs) (hactions : ∀ action ∈ actions, action.1.StagesRooms) :
    AllRecorded packages
      (Machine.run (StorageOp.step packages encodedLength) db actions).1.kvs := by
  have hstep : ∀ (s : Database K) (action : StorageOp K × StorageCall),
      AllRecorded packages s.kvs → action.1.StagesRooms →
        AllRecorded packages (StorageOp.step packages encodedLength s action).1.kvs :=
    fun s action hs haction ↦ allRecorded_perform action.1 hs haction
  exact Machine.run_state_invariant hstep h (Machine.along_of_forall hactions db)

end Writers

end MultAIplayer.Mls
