import MultAIplayer.Mls.RoomRecords

/-!
# Deleting a room

`delete_room_records_inner`, statement by statement in its transaction, and what it deletes. The
other operations on a room take the deletion for one statement, which it is as long as nothing fails
(`deleteRoomRecordsInner_of_no_fault`).
-/

namespace MultAIplayer.Mls

/-! ### The transaction -/

inductive RoomDeletionStage where
  | scanned
  | applicationRecordsDeleted
  | epochsDeleted
  | groupDeleted
  | beforeCommit
  deriving DecidableEq

/-- The keys to delete, row by row. -/
@[grind =] def scanRows (fault : ℕ → Bool) (mode : RoomDeletionMode) (roomId : String) :
    ℕ → List (String × RowValue) → Except StoreError (List String)
  | _, [] => .ok []
  | n, (key, value) :: rows =>
    if fault n then .error .sqlite
    else
      match relatedRoom mode key value with
      | .error error => .error error
      | .ok related =>
        match scanRows fault mode roomId (n + 1) rows with
        | .error error => .error error
        | .ok deleteKeys =>
          .ok (if isDirect mode roomId key || related = some roomId then key :: deleteKeys
            else deleteKeys)

/-- One `DELETE FROM kvs` for each key. -/
@[grind =] def deleteRows (fault : ℕ → Bool) :
    ℕ → List String → InsertionMap String RowValue →
      Except StoreError (InsertionMap String RowValue)
  | _, [], kvs => .ok kvs
  | n, key :: deleteKeys, kvs =>
    if fault n then .error .sqlite else deleteRows fault (n + 1) deleteKeys (kvs.delete key)

namespace Database

variable {K : Type}

/-- A statement of a transaction, by its number. -/
@[grind =] def execute (fault : ℕ → Bool) (n : ℕ) : Except StoreError Unit :=
  if fault n then .error .sqlite else .ok ()

/-- A corrupt group is deleted once: `changed` has to be 1. -/
@[grind =] def requireGroup (mode : RoomDeletionMode) (roomId : String) (db : Database K) :
    Except StoreError Unit :=
  if mode = .legacyCorrupt && !db.groups.has roomId then .error .invalidValue else .ok ()

/-- What the transaction has when it commits. Its statements are numbered in their order. -/
@[grind =]
def roomDeletion (fault : ℕ → Bool) (checkpoint : RoomDeletionStage → Except StoreError Unit)
    (mode : RoomDeletionMode) (roomId : String) (db : Database K) :
    Except StoreError (Database K) := do
  execute fault 0
  let deleteKeys ← scanRows fault mode roomId 1 db.kvs.entries
  checkpoint .scanned
  let n := 1 + db.kvs.size
  let kvs ← deleteRows fault n deleteKeys db.kvs
  checkpoint .applicationRecordsDeleted
  execute fault (n + deleteKeys.length)
  checkpoint .epochsDeleted
  execute fault (n + deleteKeys.length + 1)
  db.requireGroup mode roomId
  checkpoint .groupDeleted
  checkpoint .beforeCommit
  execute fault (n + deleteKeys.length + 2)
  return {
    groups := db.groups.delete roomId
    epochs := db.epochs.filter fun key _ ↦ key.1 != roomId
    kvs := kvs }

/-- `delete_room_records_inner`. A transaction that is dropped without a commit is rolled back. -/
@[grind =] def deleteRoomRecordsInner (fault : ℕ → Bool)
    (checkpoint : RoomDeletionStage → Except StoreError Unit) (mode : RoomDeletionMode)
    (roomId : String) (db : Database K) : Except StoreError Unit × Database K :=
  if !validateComponent roomId then (.error .invalidValue, db)
  else
    match db.roomDeletion fault checkpoint mode roomId with
    | .error error => (.error error, db)
    | .ok committed => (.ok (), committed)

/-- The database without what a deletion deletes. -/
@[grind =]
def withoutRoom (mode : RoomDeletionMode) (roomId : String) (db : Database K) : Database K where
  groups := db.groups.delete roomId
  epochs := db.epochs.filter fun key _ ↦ key.1 != roomId
  kvs := db.kvs.filter fun key value ↦ !isRowOf mode roomId key value

end Database

section Transaction

variable {K : Type} {fault : ℕ → Bool} {checkpoint : RoomDeletionStage → Except StoreError Unit}
  {mode : RoomDeletionMode} {roomId : String} {db committed : Database K}

/-- Every record that names its room decodes. -/
def RowsDecode (mode : RoomDeletionMode) (rows : List (String × RowValue)) : Prop :=
  ∀ row ∈ rows, (relatedRoom mode row.1 row.2).isOk = true

theorem isRowOf_eq {key : String} {value : RowValue} {related : Option String}
    (h : relatedRoom mode key value = .ok related) :
    isRowOf mode roomId key value = (isDirect mode roomId key || related = some roomId) := by
  unfold isRowOf
  rw [h]
  rcases related with _ | room
  · simp
  · simp

theorem scanRows_eq_ok {n : ℕ} {rows : List (String × RowValue)} {deleteKeys : List String}
    (h : scanRows fault mode roomId n rows = .ok deleteKeys) :
    RowsDecode mode rows ∧
      deleteKeys = (rows.filter fun row ↦ isRowOf mode roomId row.1 row.2).map Prod.fst := by
  induction rows generalizing n deleteKeys with
  | nil =>
    cases h
    exact ⟨List.forall_mem_nil _, rfl⟩
  | cons row rows ih =>
    obtain ⟨key, value⟩ := row
    unfold scanRows at h
    split at h
    · cases h
    · split at h
      · cases h
      · next related hrelated =>
        split at h
        · cases h
        · next rest hrest =>
          obtain ⟨hdecode, hkeys⟩ := ih hrest
          refine ⟨List.forall_mem_cons.mpr ⟨by rw [hrelated]; rfl, hdecode⟩, ?_⟩
          rw [← Except.ok.inj h, List.filter_cons, isRowOf_eq hrelated, hkeys]
          split <;> rfl

theorem scanRows_of_decode (hfault : ∀ n, fault n = false) (n : ℕ)
    {rows : List (String × RowValue)} (h : RowsDecode mode rows) :
    ∃ deleteKeys, scanRows fault mode roomId n rows = .ok deleteKeys := by
  induction rows generalizing n with
  | nil => exact ⟨[], rfl⟩
  | cons row rows ih =>
    obtain ⟨key, value⟩ := row
    obtain ⟨hrow, hrows⟩ := List.forall_mem_cons.mp h
    obtain ⟨rest, hrest⟩ := ih (n + 1) hrows
    unfold scanRows
    rw [if_neg (by rw [hfault n]; decide), hrest]
    rcases hrelated : relatedRoom mode key value with error | related
    · rw [hrelated] at hrow
      cases hrow
    · exact ⟨_, rfl⟩

theorem deleteRows_eq_ok {n : ℕ} {deleteKeys : List String} {kvs kvs' : InsertionMap String RowValue}
    (h : deleteRows fault n deleteKeys kvs = .ok kvs') : kvs' = kvs.deleteAll deleteKeys := by
  induction deleteKeys generalizing n kvs with
  | nil =>
    cases h
    exact (InsertionMap.deleteAll_nil kvs').symm
  | cons key deleteKeys ih =>
    unfold deleteRows at h
    split at h
    · cases h
    · rw [ih h, InsertionMap.deleteAll_delete]

theorem deleteRows_of_no_fault (hfault : ∀ n, fault n = false) (n : ℕ) (deleteKeys : List String)
    (kvs : InsertionMap String RowValue) :
    deleteRows fault n deleteKeys kvs = .ok (kvs.deleteAll deleteKeys) := by
  induction deleteKeys generalizing n kvs with
  | nil => rw [InsertionMap.deleteAll_nil, deleteRows]
  | cons key deleteKeys ih =>
    unfold deleteRows
    rw [if_neg (by rw [hfault n]; decide), ih, InsertionMap.deleteAll_delete]

theorem bind_eq_ok {α β : Type} {x : Except StoreError α} {f : α → Except StoreError β} {b : β} :
    x >>= f = .ok b ↔ ∃ a, x = .ok a ∧ f a = .ok b := by
  rcases x with error | a
  · exact ⟨nofun, nofun⟩
  · exact ⟨fun h ↦ ⟨a, rfl, h⟩, fun ⟨_, ha, h⟩ ↦ Except.ok.inj ha ▸ h⟩

/-- **What is committed** is the database without the room. -/
theorem roomDeletion_eq_ok (h : db.roomDeletion fault checkpoint mode roomId = .ok committed) :
    RowsDecode mode db.kvs.entries ∧ db.requireGroup mode roomId = .ok () ∧
      committed = db.withoutRoom mode roomId := by
  unfold Database.roomDeletion at h
  obtain ⟨-, -, h⟩ := bind_eq_ok.mp h
  obtain ⟨deleteKeys, hscan, h⟩ := bind_eq_ok.mp h
  obtain ⟨-, -, h⟩ := bind_eq_ok.mp h
  obtain ⟨kvs, hdelete, h⟩ := bind_eq_ok.mp h
  obtain ⟨-, -, h⟩ := bind_eq_ok.mp h
  obtain ⟨-, -, h⟩ := bind_eq_ok.mp h
  obtain ⟨-, -, h⟩ := bind_eq_ok.mp h
  obtain ⟨-, -, h⟩ := bind_eq_ok.mp h
  obtain ⟨_, hgroup, h⟩ := bind_eq_ok.mp h
  obtain ⟨-, -, h⟩ := bind_eq_ok.mp h
  obtain ⟨-, -, h⟩ := bind_eq_ok.mp h
  obtain ⟨-, -, h⟩ := bind_eq_ok.mp h
  obtain ⟨hdecode, hkeys⟩ := scanRows_eq_ok hscan
  refine ⟨hdecode, hgroup, ?_⟩
  rw [← Except.ok.inj h, deleteRows_eq_ok hdelete, hkeys]
  unfold Database.withoutRoom
  congr 1
  exact InsertionMap.deleteAll_keys_filter db.kvs (isRowOf mode roomId)

/-- Without a fault everything is deleted. -/
theorem roomDeletion_of_no_fault (hfault : ∀ n, fault n = false)
    (hcheckpoint : ∀ stage, checkpoint stage = .ok ()) (hdecode : RowsDecode mode db.kvs.entries)
    (hgroup : db.requireGroup mode roomId = .ok ()) :
    db.roomDeletion fault checkpoint mode roomId = .ok (db.withoutRoom mode roomId) := by
  have hexecute : ∀ n, Database.execute fault n = .ok () := by
    intro n
    unfold Database.execute
    rw [hfault n]
    rfl
  obtain ⟨deleteKeys, hscan⟩ : ∃ deleteKeys, scanRows fault mode roomId 1 _ = .ok deleteKeys :=
    scanRows_of_decode hfault 1 hdecode
  have hok : ∃ committed, db.roomDeletion fault checkpoint mode roomId = .ok committed := by
    unfold Database.roomDeletion
    rw [hscan, hgroup]
    simp only [hexecute, hcheckpoint, deleteRows_of_no_fault hfault]
    exact ⟨_, rfl⟩
  obtain ⟨committed, hcommitted⟩ := hok
  rw [hcommitted, (roomDeletion_eq_ok hcommitted).2.2]

theorem relatedRoom_error {key : String} {value : RowValue} {error : StoreError}
    (h : relatedRoom mode key value = .error error) : error = .corruptValue := by
  unfold relatedRoom at h
  dsimp only at h
  repeat' split at h
  all_goals cases h
  all_goals rfl

theorem scanRows_of_not_decode (hfault : ∀ n, fault n = false) (n : ℕ)
    {rows : List (String × RowValue)} (h : ¬RowsDecode mode rows) :
    scanRows fault mode roomId n rows = .error .corruptValue := by
  induction rows generalizing n with
  | nil => exact absurd (List.forall_mem_nil _) h
  | cons row rows ih =>
    obtain ⟨key, value⟩ := row
    unfold scanRows
    rw [if_neg (by rw [hfault n]; decide)]
    rcases hrelated : relatedRoom mode key value with error | related
    · dsimp only
      rw [relatedRoom_error hrelated]
    · have hrest : ¬RowsDecode mode rows := fun hrows ↦
        h (List.forall_mem_cons.mpr ⟨by rw [hrelated]; rfl, hrows⟩)
      dsimp only
      rw [ih (n + 1) hrest]

/-- **One statement for the transaction**: without a fault, the deletion is what the other
operations on a room take it for. -/
theorem deleteRoomRecordsInner_of_no_fault {call : StorageCall} (hcall : call.fault 0 = false)
    (hfault : ∀ n, fault n = false) (hcheckpoint : ∀ stage, checkpoint stage = .ok ()) :
    db.deleteRoomRecordsInner fault checkpoint mode roomId =
      db.deleteRoomRecords call mode roomId := by
  unfold Database.deleteRoomRecordsInner Database.deleteRoomRecords
  rw [hcall]
  split
  · rfl
  rw [if_neg (by decide : ¬false = true)]
  by_cases hdecode : RowsDecode mode db.kvs.entries
  · rw [if_neg (by
      rw [Bool.not_eq_true, List.any_eq_false]
      exact fun row hrow ↦ by rw [hdecode row hrow]; decide)]
    by_cases hgroup : (mode = .legacyCorrupt && !db.groups.has roomId) = true
    · have hrequire : db.requireGroup mode roomId = .error .invalidValue := if_pos hgroup
      obtain ⟨deleteKeys, hscan⟩ : ∃ deleteKeys, scanRows fault mode roomId 1 _ = .ok deleteKeys :=
    scanRows_of_decode hfault 1 hdecode
      have hdeletion : db.roomDeletion fault checkpoint mode roomId = .error .invalidValue := by
        have hexecute : ∀ n, Database.execute fault n = .ok () := fun n ↦ by
          unfold Database.execute
          rw [hfault n]
          rfl
        unfold Database.roomDeletion
        rw [hscan, hrequire]
        simp only [hexecute, hcheckpoint, deleteRows_of_no_fault hfault]
        rfl
      rw [hdeletion, if_pos hgroup]
    · rw [roomDeletion_of_no_fault hfault hcheckpoint hdecode (if_neg hgroup), if_neg hgroup]
      rfl
  · have hany : (db.kvs.entries.any fun row ↦ !(relatedRoom mode row.1 row.2).isOk) = true := by
      unfold RowsDecode at hdecode
      push Not at hdecode
      obtain ⟨row, hrow, hnot⟩ := hdecode
      exact List.any_eq_true.mpr ⟨row, hrow, by simpa using hnot⟩
    have hdeletion : db.roomDeletion fault checkpoint mode roomId = .error .corruptValue := by
      unfold Database.roomDeletion Database.execute
      rw [hfault 0, scanRows_of_not_decode hfault 1 hdecode]
      rfl
    rw [hdeletion, if_pos hany]

end Transaction

/-! ### What a deletion leaves -/

/-- Exactly the records of a room are gone, but for the kinds that the mode keeps. -/
structure RoomDeleted {K : Type} (packages : Packages) (mode : RoomDeletionMode) (roomId : String)
    (db db' : Database K) : Prop where
  group : db'.groups.get roomId = none
  otherGroups : ∀ other ≠ roomId, db'.groups.get other = db.groups.get other
  epochs : ∀ epoch, db'.epochs.get (roomId, epoch) = none
  otherEpochs : ∀ other ≠ roomId, ∀ epoch,
    db'.epochs.get (other, epoch) = db.epochs.get (other, epoch)
  records : ∀ room key value, RecordOf packages room key value → db.kvs.get key = some value →
    db'.kvs.get key = if room = roomId ∧ mode.deletes key = true then none else some value
  deviceRows : ∀ key, DeviceKey key → db'.kvs.get key = db.kvs.get key
  noneAdded : ∀ key, db.kvs.get key = none → db'.kvs.get key = none

section Deletion

variable {K : Type} {mode : RoomDeletionMode} {roomId : String} {db : Database K}

theorem roomDeleted_withoutRoom (packages : Packages) (hroomId : validateComponent roomId = true) :
    RoomDeleted packages mode roomId db (db.withoutRoom mode roomId) where
  group := InsertionMap.get_delete_self _ _
  otherGroups _ hne := InsertionMap.get_delete_of_ne _ hne
  epochs epoch := by
    show (db.epochs.filter _).get _ = none
    rw [InsertionMap.get_filter]
    rcases db.epochs.get (roomId, epoch) with _ | bytes <;> simp
  otherEpochs other hne epoch := by
    show (db.epochs.filter _).get _ = _
    rw [InsertionMap.get_filter]
    rcases db.epochs.get (other, epoch) with _ | bytes <;> simp [hne]
  records room key value hrecord hget := by
    show (db.kvs.filter _).get key = _
    rw [InsertionMap.get_filter, hget]
    by_cases hrow : isRowOf mode roomId key value = true
    · rw [if_pos ((isRowOf_of_recordOf hroomId hrecord).mp hrow)]
      simp [hrow]
    · rw [if_neg (mt (isRowOf_of_recordOf hroomId hrecord).mpr hrow)]
      simp [hrow]
  deviceRows key hdevice := by
    show (db.kvs.filter _).get key = _
    rw [InsertionMap.get_filter]
    rcases db.kvs.get key with _ | value
    · rfl
    · simp [isRowOf_of_deviceKey hdevice]
  noneAdded key hget := by
    show (db.kvs.filter _).get key = none
    rw [InsertionMap.get_filter, hget]
    rfl

theorem withoutRoom_withoutRoom :
    (db.withoutRoom mode roomId).withoutRoom mode roomId = db.withoutRoom mode roomId := by
  unfold Database.withoutRoom
  congr 1
  · exact InsertionMap.delete_eq_self (InsertionMap.get_delete_self _ _)
  · rw [InsertionMap.filter_filter]
    exact InsertionMap.filter_congr fun _ _ _ ↦ Bool.and_self _
  · rw [InsertionMap.filter_filter]
    exact InsertionMap.filter_congr fun _ _ _ ↦ Bool.and_self _

theorem rowsDecode_withoutRoom (h : RowsDecode mode db.kvs.entries) :
    RowsDecode mode (db.withoutRoom mode roomId).kvs.entries :=
  fun row hrow ↦ h row (List.mem_of_mem_filter hrow)

theorem requireGroup_withoutRoom :
    (db.withoutRoom mode roomId).requireGroup mode roomId =
      if mode = .exact then .ok () else .error .invalidValue := by
  have hnone : (db.withoutRoom mode roomId).groups.has roomId = false := by
    unfold InsertionMap.has
    rw [show (db.withoutRoom mode roomId).groups.get roomId = none from
      InsertionMap.get_delete_self _ _]
    rfl
  unfold Database.requireGroup
  rw [hnone]
  rcases mode with _ | _ <;> rfl

end Deletion

/-! ### The result -/

theorem deleteRoomRecordsInner_eq_ok {K : Type} {fault : ℕ → Bool}
    {checkpoint : RoomDeletionStage → Except StoreError Unit} {mode : RoomDeletionMode}
    {roomId : String} {db : Database K}
    (h : (db.deleteRoomRecordsInner fault checkpoint mode roomId).1 = .ok ()) :
    validateComponent roomId = true ∧ RowsDecode mode db.kvs.entries ∧
      (db.deleteRoomRecordsInner fault checkpoint mode roomId).2 = db.withoutRoom mode roomId := by
  unfold Database.deleteRoomRecordsInner at h ⊢
  split at h
  · cases h
  · next hvalid =>
    rcases hdeletion : db.roomDeletion fault checkpoint mode roomId with error | committed
    · rw [hdeletion] at h
      cases h
    · obtain ⟨hdecode, -, hcommitted⟩ := roomDeletion_eq_ok hdeletion
      rw [if_neg hvalid]
      exact ⟨by simpa using hvalid, hdecode, hcommitted⟩

theorem deleteRoomRecordsInner_eq_error {K : Type} {fault : ℕ → Bool}
    {checkpoint : RoomDeletionStage → Except StoreError Unit} {mode : RoomDeletionMode}
    {roomId : String} {db : Database K} {error : StoreError}
    (h : (db.deleteRoomRecordsInner fault checkpoint mode roomId).1 = .error error) :
    (db.deleteRoomRecordsInner fault checkpoint mode roomId).2 = db := by
  unfold Database.deleteRoomRecordsInner at h ⊢
  split at h
  · next hinvalid => rw [if_pos hinvalid]
  · next hvalid =>
    rw [if_neg hvalid]
    rcases hdeletion : db.roomDeletion fault checkpoint mode roomId with error' | committed
    · rfl
    · rw [hdeletion] at h
      cases h

/-- A room that is gone is deleted again without an effect. -/
theorem deleteRoomRecordsInner_withoutRoom {K : Type} (fault : ℕ → Bool)
    (checkpoint : RoomDeletionStage → Except StoreError Unit) {mode : RoomDeletionMode}
    {roomId : String} {db : Database K} (hroomId : validateComponent roomId = true)
    (hdecode : RowsDecode mode db.kvs.entries) :
    ((db.withoutRoom mode roomId).deleteRoomRecordsInner fault checkpoint mode roomId).2 =
        db.withoutRoom mode roomId ∧
      ((∀ n, fault n = false) → (∀ stage, checkpoint stage = .ok ()) →
        ((db.withoutRoom mode roomId).deleteRoomRecordsInner fault checkpoint mode roomId).1 =
          if mode = .exact then .ok () else .error .invalidValue) := by
  constructor
  · rcases hresult : ((db.withoutRoom mode roomId).deleteRoomRecordsInner fault checkpoint mode
      roomId).1 with error | _
    · exact deleteRoomRecordsInner_eq_error hresult
    · rw [(deleteRoomRecordsInner_eq_ok hresult).2.2, withoutRoom_withoutRoom]
  · intro hfault hcheckpoint
    have hcall : ({} : StorageCall).fault 0 = false := rfl
    rw [deleteRoomRecordsInner_of_no_fault hcall hfault hcheckpoint]
    have hgroup := @requireGroup_withoutRoom _ mode roomId db
    unfold Database.requireGroup at hgroup
    unfold Database.deleteRoomRecords
    rw [hroomId, hcall, if_neg (by decide), if_neg (by decide), if_neg (by
      rw [Bool.not_eq_true, List.any_eq_false]
      exact fun row hrow ↦ by rw [rowsDecode_withoutRoom hdecode row hrow]; decide)]
    rcases mode with _ | _
    · split at hgroup
      · next hnone => rw [if_pos hnone, if_neg (by decide)]
      · exact absurd hgroup nofun
    · rfl

/-- **Room deletion is atomic and exact.** A failed deletion leaves everything as it is. A
successful one deletes the group, the epochs and the records of the room and of no other, in the
mode of a corrupt group but for three kinds, and then once more has no effect: it succeeds, and in
that mode is refused. The rows that the operations write are records in this sense. -/
theorem room_deletion_exact {K : Type} (packages : Packages) (encodedLength : OutboxMetadata → ℕ) :
    (∀ (fault : ℕ → Bool) (checkpoint : RoomDeletionStage → Except StoreError Unit)
      (mode : RoomDeletionMode) (roomId : String) (db : Database K) (error : StoreError),
      (db.deleteRoomRecordsInner fault checkpoint mode roomId).1 = .error error →
      (db.deleteRoomRecordsInner fault checkpoint mode roomId).2 = db) ∧
    (∀ (fault : ℕ → Bool) (checkpoint : RoomDeletionStage → Except StoreError Unit)
      (mode : RoomDeletionMode) (roomId : String) (db db' : Database K),
      db.deleteRoomRecordsInner fault checkpoint mode roomId = (.ok (), db') →
      RoomDeleted packages mode roomId db db' ∧
      ∀ (fault' : ℕ → Bool) (checkpoint' : RoomDeletionStage → Except StoreError Unit),
        (db'.deleteRoomRecordsInner fault' checkpoint' mode roomId).2 = db' ∧
        ((∀ n, fault' n = false) → (∀ stage, checkpoint' stage = .ok ()) →
          (db'.deleteRoomRecordsInner fault' checkpoint' mode roomId).1 =
            if mode = .exact then .ok () else .error .invalidValue)) ∧
    ∀ (db : Database K) (actions : List (StorageOp K × StorageCall)),
      AllRecorded packages db.kvs → (∀ action ∈ actions, action.1.StagesRooms) →
      AllRecorded packages
        (Machine.run (StorageOp.step packages encodedLength) db actions).1.kvs := by
  refine ⟨fun _ _ _ _ _ _ ↦ deleteRoomRecordsInner_eq_error, ?_,
    fun _ _ ↦ allRecorded_run⟩
  intro fault checkpoint mode roomId db db' h
  have hok : (db.deleteRoomRecordsInner fault checkpoint mode roomId).1 = .ok () := by rw [h]
  obtain ⟨hroomId, hdecode, hresult⟩ := deleteRoomRecordsInner_eq_ok hok
  rw [h] at hresult
  obtain rfl : db' = db.withoutRoom mode roomId := hresult
  exact ⟨roomDeleted_withoutRoom packages hroomId, fun fault' checkpoint' ↦
    deleteRoomRecordsInner_withoutRoom fault' checkpoint' hroomId hdecode⟩

/-! ### A corrupt group -/

/-- A room with a message of its history. -/
def roomWithHistory : Database Unit where
  groups := InsertionMap.empty.set "room-1" ⟨"room-1", 0, ⟨1, [], [], ()⟩, none⟩
  kvs := InsertionMap.empty.set "history:room-1:3" (.historyCiphertext ⟨100, [1, 2, 3]⟩)

theorem eq_ok_of_fst {α : Type} {result : Except StoreError Unit × α} (h : result.1 = .ok ()) :
    result = (.ok (), result.2) :=
  Prod.ext h rfl

theorem room_deletion_exact_history :
    RoomDeleted documentedPackages .exact "room-1" roomWithHistory
      (roomWithHistory.deleteRoomRecordsInner (fun _ ↦ false) (fun _ ↦ .ok ()) .exact "room-1").2 :=
  ((room_deletion_exact documentedPackages fun _ ↦ 0).2.1 (fun _ ↦ false) (fun _ ↦ .ok ()) .exact
    "room-1" roomWithHistory _ (eq_ok_of_fst (by decide))).1

/-- The deletion of a corrupt group keeps the history, and is refused the second time. -/
theorem corrupt_group_keeps_history :
    ¬∀ (mode : RoomDeletionMode) (roomId : String) (db db' : Database Unit),
      db.deleteRoomRecordsInner (fun _ ↦ false) (fun _ ↦ .ok ()) mode roomId = (.ok (), db') →
      (∀ key value, RecordOf documentedPackages roomId key value →
        db.kvs.get key = some value → db'.kvs.get key = none) ∧
      (db'.deleteRoomRecordsInner (fun _ ↦ false) (fun _ ↦ .ok ()) mode roomId).1 = .ok () := by
  intro hall
  have hsecond := (hall .legacyCorrupt "room-1" roomWithHistory _
    (eq_ok_of_fst (by decide))).2
  revert hsecond
  decide

end MultAIplayer.Mls
