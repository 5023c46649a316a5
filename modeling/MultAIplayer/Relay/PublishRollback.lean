import MultAIplayer.Relay.BoundedWrites
import MultAIplayer.Relay.DurableLog

/-!
# Publishing into a store with ceilings

The `try` and the `catch` of `publishForRoom`, over a store whose writes can be refused. The `try`
block advances the room, appends to the backlog, adds a receipt, prunes the receipts of the room and
saves; it may throw at any of these. The `catch` block writes the backlog, the room and all receipts
again, through the same setters.

Whatever the `try` block has done when it throws, the other collections are as they were, the room
differs at most in its record, and the backlog at most in its entry (`Staged`). The `catch` block
needs no more than that to put everything back.
-/

namespace MultAIplayer

/-- The relay: its store with the ceilings, and what is below the store. -/
structure BoundedRelay extends BoundedStore where
  pendingChanges : List StoredRelayMutation := []
  isHealthy : Bool := true
  db : Database := {}

namespace BoundedRelay

def coordinator (b : BoundedRelay) : Coordinator :=
  ⟨b.store, b.pendingChanges, b.isHealthy, b.db⟩

/-- The relay after a save. -/
def withCoordinator (b : BoundedRelay) (c : Coordinator) : BoundedRelay :=
  { b with
    store := c.store
    pendingChanges := c.pendingChanges
    isHealthy := c.isHealthy
    db := c.db }

def withStore (b : BoundedRelay) (s : BoundedStore) : BoundedRelay :=
  { b with toBoundedStore := s }

end BoundedRelay

/-! ### Staging and putting back -/

namespace BoundedStore

/-- `pruneAcceptedReceipts`, receipt by receipt. -/
def pruneAcceptedReceipts (now : Instant) (key : RoomKey) (s : BoundedStore) : BoundedStore :=
  (receiptsToPrune now key s.store.acceptedMessageReceipts).foldl
    (deleteTracked · .acceptedMessageReceipts) s

/-- The `try` block of `publishForRoom` up to its save. -/
@[grind =]
def stagePublish (P : Platform) (now : Instant) (room : RoomRecord) (message : MlsRelayMessage)
    (s : BoundedStore) : Ended :=
  let key := roomKey message.teamId message.roomId
  let backlog := P.backlogAfter now s.store.toRecords key message
  let advanced : Ended := if message.messageType = .commit then
    s.setTracked .rooms room.id (roomAfterCommit room message (room.acceptedMlsEpoch.getD 0))
  else (s, none)
  ((advanced.andThen fun s ↦ s.setTracked .mlsBacklog key backlog).andThen fun s ↦
    s.setTracked .acceptedMessageReceipts (receiptKey key message.id)
      (P.receiptFor now key message)).andThen fun s ↦ (s.pruneAcceptedReceipts now key, none)

/-- The backlog that was stored, or no entry where there was none. -/
def restoreBacklog (storedPrevious : Option (List MlsRelayMessage)) (key : RoomKey)
    (s : BoundedStore) : Ended :=
  match storedPrevious with
  | some previous => s.setTracked .mlsBacklog key previous
  | none => (s.deleteTracked .mlsBacklog key, none)

/-- The `catch` block of `publishForRoom`. -/
def rollbackPublish (before : Records) (key : RoomKey) (oldRoom : RoomRecord) (s : BoundedStore) :
    Ended :=
  ((s.restoreBacklog (before.mlsBacklog.get key) key).andThen fun s ↦
    s.setTracked .rooms oldRoom.id oldRoom).andThen fun s ↦
      setAllTracked .acceptedMessageReceipts before.acceptedMessageReceipts.entries
        (s.clearTracked .acceptedMessageReceipts)

end BoundedStore

/-! ### Publishing -/

/-- What the `try` block of `publishForRoom` throws. -/
inductive ThrownError
  | capacity (error : CapacityError)
  | save (error : SaveError)
  deriving DecidableEq

/-- What the caller of `publishForRoom` receives. -/
inductive PublishFailure
  | refused (error : PublishError)
  | capacity (error : CapacityError)
  | persistenceUnavailable
  deriving DecidableEq

/-- What the `catch` block makes of an error. -/
def ThrownError.rethrown : ThrownError → PublishFailure
  | .capacity error => .capacity error
  | .save .staleEpoch => .refused (.refused .competingCommit)
  | .save .unavailable => .persistenceUnavailable

/-- How `publishForRoom` ends. -/
inductive PublishEnd
  | accepted
  | retried
  | failed (failure : PublishFailure)
  deriving DecidableEq

namespace BoundedRelay

/-- The `try` block of `publishForRoom`, with the error that it throws, if any. -/
@[grind =] def tryPublish (P : Platform) (now : Instant) (fault : WriteFault) (room : RoomRecord)
    (message : MlsRelayMessage) (b : BoundedRelay) : BoundedRelay × Option ThrownError :=
  let key := roomKey message.teamId message.roomId
  let prunedIds := P.prunedIds now b.store.toRecords key message
  match b.toBoundedStore.stagePublish P now room message with
  | (s, some error) => (b.withStore s, some (.capacity error))
  | (s, none) =>
    let saved := (b.withStore s).coordinator.savePublish P.config now fault key message prunedIds
    ((b.withStore s).withCoordinator saved.1, saved.2.map .save)

/-- `publishForRoom`, from the check after the reclaim to the broadcast. An error that the `catch`
block throws itself takes the place of the error that it was to pass on. -/
def publishForRoom (P : Platform) (now : Instant) (fault : WriteFault) (remainsAuthorized : Bool)
    (message : MlsRelayMessage) (b : BoundedRelay) : BoundedRelay × PublishEnd :=
  match P.decidePublish b.store.toRecords remainsAuthorized message with
  | .retry => (b, .retried)
  | .refuse error => (b, .failed (.refused error))
  | .stage room =>
    match b.tryPublish P now fault room message with
    | (b', none) => (b', .accepted)
    | (b', some thrown) =>
      let restored := b'.toBoundedStore.rollbackPublish b.store.toRecords
        (roomKey message.teamId message.roomId) room
      (b'.withStore restored.1, .failed ((restored.2.map .capacity).getD thrown.rethrown))

end BoundedRelay

/-! ### What the try block can leave -/

/-- The records after a part of the `try` block. -/
structure Staged (before : Records) (key : RoomKey) (room : RoomRecord) (r : Records) : Prop where
  others : ∀ e, ¬IsPublishEntity e → r.collection e = before.collection e
  rooms : r.rooms = before.rooms ∨ ∃ room' : RoomRecord, room'.teamId = room.teamId ∧
    r.rooms = before.rooms.set room.id room'
  backlog : r.mlsBacklog = before.mlsBacklog ∨ ∃ messages,
    r.mlsBacklog = before.mlsBacklog.set key messages

namespace Staged

variable {before r : Records} {key : RoomKey} {room : RoomRecord}

theorem refl (before : Records) (key : RoomKey) (room : RoomRecord) :
    Staged before key room before :=
  ⟨fun _ _ ↦ rfl, .inl rfl, .inl rfl⟩

theorem set_room (h : Staged before key room r) {room' : RoomRecord}
    (hteam : room'.teamId = room.teamId) :
    Staged before key room (r.withCollection .rooms (r.rooms.set room.id room')) := by
  refine ⟨fun e he ↦ ?_, .inr ⟨room', hteam, ?_⟩, h.backlog⟩
  · rw [← h.others e he]
    exact Records.collection_withCollection_of_ne r _ fun heq ↦ he (.inl heq)
  · rcases h.rooms with hrooms | ⟨other, -, hrooms⟩
    · rw [hrooms]
      rfl
    · rw [hrooms, InsertionMap.set_set]
      rfl

theorem set_backlog (h : Staged before key room r) (messages : List MlsRelayMessage) :
    Staged before key room (r.withCollection .mlsBacklog (r.mlsBacklog.set key messages)) := by
  refine ⟨fun e he ↦ ?_, h.rooms, .inr ⟨messages, ?_⟩⟩
  · rw [← h.others e he]
    exact Records.collection_withCollection_of_ne r _ fun heq ↦ he (.inr (.inl heq))
  · rcases h.backlog with hbacklog | ⟨other, hbacklog⟩
    · rw [hbacklog]
      rfl
    · rw [hbacklog, InsertionMap.set_set]
      rfl

theorem with_receipts (h : Staged before key room r)
    (m : InsertionMap String AcceptedMessageReceipt) :
    Staged before key room (r.withCollection .acceptedMessageReceipts m) := by
  refine ⟨fun e he ↦ ?_, h.rooms, h.backlog⟩
  rw [← h.others e he]
  exact Records.collection_withCollection_of_ne r _ fun heq ↦ he (.inr (.inr heq))

end Staged

namespace BoundedStore

variable {before s : BoundedStore} {key : RoomKey} {room : RoomRecord}

/-- A store that the `try` block may have left, over the one that it found. -/
structure StagedFrom (before : BoundedStore) (key : RoomKey) (room : RoomRecord)
    (s : BoundedStore) : Prop where
  accounted : s.Accounted
  sameCeilings : before.SameCeilings s
  staged : Staged before.store.toRecords key room s.store.toRecords

theorem StagedFrom.andThen {ended : Ended} {next : BoundedStore → Ended}
    (h : StagedFrom before key room ended.1)
    (hnext : ∀ s, StagedFrom before key room s → StagedFrom before key room (next s).1) :
    StagedFrom before key room (ended.andThen next).1 := by
  unfold Ended.andThen
  split
  · exact hnext _ h
  · exact h

/-- A write leaves a staged store, whether it goes through or not. -/
theorem StagedFrom.setTracked (h : StagedFrom before key room s) {e : Entity}
    (he : e ≠ .teamMembers) {k : String} {v : e.Value}
    (hstaged : Staged before.store.toRecords key room (s.store.set e k v).toRecords) :
    StagedFrom before key room (s.setTracked e k v).1 := by
  rcases setTracked_settles h.accounted he k v with
    ⟨-, hstore, haccounted, hceilings⟩ | ⟨-, hunchanged⟩
  · exact ⟨haccounted, h.sameCeilings.trans hceilings, by rw [hstore]; exact hstaged⟩
  · exact ⟨h.accounted.unchanged hunchanged, h.sameCeilings.trans hunchanged.sameCeilings,
      by rw [hunchanged.1]; exact h.staged⟩

theorem StagedFrom.deleteReceipts (h : StagedFrom before key room s) (ids : List String) :
    StagedFrom before key room (ids.foldl (deleteTracked · .acceptedMessageReceipts) s) := by
  induction ids generalizing s with
  | nil => exact h
  | cons id ids ih =>
    have hwritten := written_deleteTracked h.accounted (e := .acceptedMessageReceipts) (by simp) id
    refine ih ⟨hwritten.accounted, h.sameCeilings.trans hwritten.sameCeilings, ?_⟩
    rw [hwritten.records]
    exact h.staged.with_receipts _

@[simp] theorem teamId_roomAfterCommit (room : RoomRecord) (message : MlsRelayMessage)
    (acceptedEpoch : ℕ) : (roomAfterCommit room message acceptedEpoch).teamId = room.teamId := by
  unfold roomAfterCommit
  split_ifs <;> rfl

/-- **Wherever the `try` block stops, it leaves a staged store.** -/
theorem stagePublish_staged (h : s.Accounted) (P : Platform) (now : Instant) (room : RoomRecord)
    (message : MlsRelayMessage) :
    StagedFrom s (roomKey message.teamId message.roomId) room
      (s.stagePublish P now room message).1 := by
  have hstart : StagedFrom s (roomKey message.teamId message.roomId) room s :=
    ⟨h, ⟨rfl, rfl, rfl⟩, .refl _ _ _⟩
  refine ((StagedFrom.andThen ?_ fun s' hs' ↦ ?_).andThen fun s' hs' ↦ ?_).andThen
    fun s' hs' ↦ hs'.deleteReceipts _
  · split_ifs
    · exact hstart.setTracked (by simp) (hstart.staged.set_room (teamId_roomAfterCommit _ _ _))
    · exact hstart
  · exact hs'.setTracked (by simp) (hs'.staged.set_backlog _)
  · exact hs'.setTracked (by simp) (hs'.staged.with_receipts _)

/-! ### Putting back -/

/-- Records with the old backlogs and attachments retain no more than the old ones. -/
theorem bytes_le_of_congr (hbefore : before.Accounted) (hceilings : before.SameCeilings s)
    {r : Records} (hbacklog : r.mlsBacklog = before.store.mlsBacklog)
    (hblobs : r.attachmentBlobs = before.store.attachmentBlobs) (a : ByteAccount) :
    r.retainedBytes a ≤ s.byteCapacity.limits.limit a := by
  rw [retainedBytes_congr hbacklog hblobs]
  exact (hbefore.holds.of_sameCeilings hceilings).bytes a

/-- The backlog entry is put back, or taken away where there was none. -/
theorem restoreBacklog_written (h : StagedFrom before key room s) (hbefore : before.Accounted) :
    s.Written (s.store.toRecords.withCollection .mlsBacklog before.store.mlsBacklog)
      (s.restoreBacklog (before.store.mlsBacklog.get key) key) := by
  unfold restoreBacklog
  cases hget : before.store.mlsBacklog.get key with
  | none =>
    have hdelete : s.store.mlsBacklog.delete key = before.store.mlsBacklog := by
      rcases h.staged.backlog with hbacklog | ⟨messages, hbacklog⟩
      · rw [hbacklog, InsertionMap.delete_eq_self hget]
      · rw [hbacklog, InsertionMap.delete_set_of_get_eq_none _ hget]
    rw [← hdelete]
    exact written_deleteTracked h.accounted (by simp) key
  | some previous =>
    have hset : s.store.mlsBacklog.set key previous = before.store.mlsBacklog := by
      rcases h.staged.backlog with hbacklog | ⟨messages, hbacklog⟩
      · rw [hbacklog, InsertionMap.set_eq_self hget]
      · rw [hbacklog, InsertionMap.set_set, InsertionMap.set_eq_self hget]
    obtain ⟨current, hcurrent⟩ :
        ∃ current, (s.store.collection .mlsBacklog).get key = some current := by
      rcases h.staged.backlog with hbacklog | ⟨messages, hbacklog⟩
      · exact ⟨previous, (congrArg (InsertionMap.get · key) hbacklog).trans hget⟩
      · exact ⟨messages, (congrArg (InsertionMap.get · key) hbacklog).trans
          (InsertionMap.get_set_self _ _ _)⟩
    have hblobs : s.store.attachmentBlobs = before.store.attachmentBlobs :=
      h.staged.others .attachmentBlobs (by simp [IsPublishEntity])
    rw [← hset]
    exact written_in_place h.accounted (e := .mlsBacklog) (by simp) hcurrent rfl
      (bytes_le_of_congr hbefore h.sameCeilings hset hblobs)

/-- The room is put back. -/
theorem restoreRoom_written (h : s.Accounted) (hbefore : before.Accounted)
    (hceilings : before.SameCeilings s)
    (hstaged : Staged before.store.toRecords key room s.store.toRecords)
    (hbacklog : s.store.mlsBacklog = before.store.mlsBacklog)
    (hroom : before.store.rooms.get room.id = some room) :
    s.Written (s.store.toRecords.withCollection .rooms before.store.rooms)
      (s.setTracked .rooms room.id room) := by
  have hset : s.store.rooms.set room.id room = before.store.rooms := by
    rcases hstaged.rooms with hrooms | ⟨room', -, hrooms⟩
    · rw [hrooms, InsertionMap.set_eq_self hroom]
    · rw [hrooms, InsertionMap.set_set, InsertionMap.set_eq_self hroom]
  obtain ⟨current, hcurrent, hteam⟩ : ∃ current : RoomRecord,
      (s.store.collection .rooms).get room.id = some current ∧ current.teamId = room.teamId := by
    rcases hstaged.rooms with hrooms | ⟨room', hteam, hrooms⟩
    · exact ⟨room, (congrArg (InsertionMap.get · room.id) hrooms).trans hroom, rfl⟩
    · exact ⟨room', (congrArg (InsertionMap.get · room.id) hrooms).trans
        (InsertionMap.get_set_self _ _ _), hteam⟩
  have hblobs : s.store.attachmentBlobs = before.store.attachmentBlobs :=
    hstaged.others .attachmentBlobs (by simp [IsPublishEntity])
  rw [← hset]
  exact written_in_place h (e := .rooms) (by simp) hcurrent (congrArg some hteam)
    (bytes_le_of_congr hbefore hceilings hbacklog hblobs)

/-- The receipts are put back, in their old order. -/
theorem restoreReceipts_written (h : s.Accounted) (hbefore : before.Accounted)
    (hceilings : before.SameCeilings s) (hothers : ∀ e, e ≠ .acceptedMessageReceipts →
      s.store.collection e = before.store.collection e) :
    s.Written before.store.toRecords (setAllTracked .acceptedMessageReceipts
      before.store.acceptedMessageReceipts.entries (s.clearTracked .acceptedMessageReceipts)) := by
  have hclear := written_clearTracked h (e := .acceptedMessageReceipts) (by simp)
  have hrecords : (s.clearTracked .acceptedMessageReceipts).store.toRecords.withCollection
      .acceptedMessageReceipts before.store.acceptedMessageReceipts = before.store.toRecords := by
    rw [hclear.records, Records.withCollection_withCollection]
    refine Records.ext_collection fun e ↦ ?_
    by_cases he : e = .acceptedMessageReceipts
    · subst he
      rfl
    · rw [Records.collection_withCollection_of_ne _ _ he]
      exact hothers e he
  have hholds := (hbefore.holds.of_sameCeilings hceilings).of_sameCeilings hclear.sameCeilings
  have hfilled := written_setAllTracked (e := .acceptedMessageReceipts)
    (m := before.store.acceptedMessageReceipts) (by simp)
    before.store.acceptedMessageReceipts.entries hclear.accounted rfl (hrecords ▸ hholds)
  rw [hrecords] at hfilled
  exact ⟨hfilled.none, hfilled.records, hfilled.accounted,
    hclear.sameCeilings.trans hfilled.sameCeilings⟩

/-- **The `catch` block puts everything back**, in the old order, and its own writes go through. -/
theorem rollbackPublish_written (h : StagedFrom before key room s) (hbefore : before.Accounted)
    (hroom : before.store.rooms.get room.id = some room) :
    s.Written before.store.toRecords (s.rollbackPublish before.store.toRecords key room) := by
  have hbacklog := restoreBacklog_written h hbefore
  have hstaged : Staged before.store.toRecords key room
      (s.restoreBacklog (before.store.mlsBacklog.get key) key).1.store.toRecords := by
    rw [hbacklog.records]
    refine ⟨fun e he ↦ ?_, h.staged.rooms, .inl rfl⟩
    rw [← h.staged.others e he]
    exact Records.collection_withCollection_of_ne _ _ fun heq ↦ he (.inr (.inl heq))
  have hsame : (s.restoreBacklog (before.store.mlsBacklog.get key) key).1.store.mlsBacklog =
      before.store.mlsBacklog := by
    rw [hbacklog.records]
    rfl
  have hroomed := restoreRoom_written hbacklog.accounted hbefore
    (h.sameCeilings.trans hbacklog.sameCeilings) hstaged hsame hroom
  have hrestored : s.Written _ ((s.restoreBacklog (before.store.mlsBacklog.get key) key).andThen
      fun s ↦ s.setTracked .rooms room.id room) := hbacklog.andThen hroomed
  unfold rollbackPublish
  generalize (s.restoreBacklog (before.store.mlsBacklog.get key) key).andThen
    (fun s ↦ s.setTracked .rooms room.id room) = restored at hrestored ⊢
  refine hrestored.andThen ?_
  refine restoreReceipts_written hrestored.accounted hbefore
    (h.sameCeilings.trans hrestored.sameCeilings) fun e he ↦ ?_
  rw [hrestored.records, hbacklog.records]
  by_cases hpublish : IsPublishEntity e
  · obtain rfl | rfl | rfl := hpublish
    · rfl
    · rfl
    · exact absurd rfl he
  · rw [Records.collection_withCollection_of_ne _ _ fun heq ↦ hpublish (.inl heq),
      Records.collection_withCollection_of_ne _ _ fun heq ↦ hpublish (.inr (.inl heq))]
    exact h.staged.others e hpublish

end BoundedStore

namespace BoundedRelay

variable {P : Platform} {now : Instant} {fault : WriteFault} {remainsAuthorized : Bool}
  {message : MlsRelayMessage} {b : BoundedRelay} {room : RoomRecord}

open BoundedStore

/-- **Wherever the `try` block throws, it leaves a staged store**: a save changes no collection. -/
theorem tryPublish_staged (h : b.Accounted) (P : Platform) (now : Instant) (fault : WriteFault)
    (room : RoomRecord) (message : MlsRelayMessage) :
    StagedFrom b.toBoundedStore (roomKey message.teamId message.roomId) room
      (b.tryPublish P now fault room message).1.toBoundedStore := by
  have hstaged := stagePublish_staged h P now room message
  unfold tryPublish
  dsimp only
  generalize b.toBoundedStore.stagePublish P now room message = ended at hstaged
  obtain ⟨s, _ | error⟩ := ended
  · dsimp only
    have hrecords : ((b.withStore s).coordinator.savePublish P.config now fault
        (roomKey message.teamId message.roomId) message (P.prunedIds now b.store.toRecords
          (roomKey message.teamId message.roomId) message)).1.store.toRecords =
        s.store.toRecords := Coordinator.toRecords_savePublish _ _ _ _ _ _ _
    generalize (b.withStore s).coordinator.savePublish P.config now fault
      (roomKey message.teamId message.roomId) message (P.prunedIds now b.store.toRecords
        (roomKey message.teamId message.roomId) message) = saved at hrecords
    refine ⟨?_, hstaged.sameCeilings, hrecords ▸ hstaged.staged⟩
    refine ⟨?_, fun t ht ↦ ?_, hstaged.accounted.within, fun a ↦ ?_, hstaged.accounted.bytesWithin⟩
    · exact hstaged.accounted.used.trans (by rw [← hrecords]; rfl)
    · exact (hstaged.accounted.usedByTeam t ht).trans (by rw [← hrecords]; rfl)
    · exact (hstaged.accounted.bytes a).trans (by rw [← hrecords]; rfl)
  · exact hstaged

/-- **A failed publish restores the room exactly.** Wherever the `try` block throws, the writes of
the `catch` block go through, the caller receives the error, and all records, in their order, and
all counters are as they were. -/
theorem publishForRoom_restores (haccounted : b.Accounted) (hkeyed : b.store.toRecords.Keyed)
    (hstage : P.decidePublish b.store.toRecords remainsAuthorized message = .stage room)
    {thrown : ThrownError} (hthrown : (b.tryPublish P now fault room message).2 = some thrown) :
    let restored := (b.tryPublish P now fault room message).1.toBoundedStore.rollbackPublish
      b.store.toRecords (roomKey message.teamId message.roomId) room
    let ended := b.publishForRoom P now fault remainsAuthorized message
    restored.2 = none ∧ ended.2 = .failed thrown.rethrown ∧
      ended.1.store.toRecords = b.store.toRecords ∧
      ended.1.capacity.used = b.capacity.used ∧
      (∀ teamId, teamId ≠ "" →
        ended.1.capacity.usedByTeam.count teamId = b.capacity.usedByTeam.count teamId) ∧
      ∀ a, ended.1.byteCapacity.balance a = b.byteCapacity.balance a := by
  have hget := (Platform.decidePublish_eq_stage hstage).2.2.2.2.1
  have hroom : b.store.rooms.get room.id = some room := by rw [hkeyed.room_id hget, hget]
  have hwritten := rollbackPublish_written (tryPublish_staged haccounted P now fault room message)
    haccounted hroom
  dsimp only
  refine ⟨hwritten.none, ?_⟩
  have hended : b.publishForRoom P now fault remainsAuthorized message =
      ((b.tryPublish P now fault room message).1.withStore
        ((b.tryPublish P now fault room message).1.toBoundedStore.rollbackPublish
          b.store.toRecords (roomKey message.teamId message.roomId) room).1,
        .failed thrown.rethrown) := by
    unfold publishForRoom
    rw [hstage]
    dsimp only
    have hnone := hwritten.none
    generalize b.tryPublish P now fault room message = tried at hthrown hnone ⊢
    obtain ⟨b', refused⟩ := tried
    obtain rfl : refused = some thrown := hthrown
    dsimp only at hnone ⊢
    rw [hnone]
    rfl
  rw [hended]
  exact ⟨rfl, hwritten.records, haccounted.counters hwritten.accounted hwritten.records⟩

/-! ### A save that fails -/

theorem savePublish_failure (c : RelayConfig) (now : Instant) (key : RoomKey)
    (message : MlsRelayMessage) (prunedIds : List String) (b : Coordinator) :
    (b.savePublish c now .failure key message prunedIds).2 = some .unavailable := by
  have hwrite : ∀ (write : Database → Option Database) (b : Coordinator),
      (b.persistenceWrite .failure write).2 = some .unavailable := fun write b ↦ by
    unfold Coordinator.persistenceWrite
    split
    · rfl
    · rw [if_pos rfl]
  unfold Coordinator.savePublish Coordinator.saveMlsCommit Coordinator.saveMlsMessage
  split <;> exact hwrite _ _

theorem tryPublish_failure {P : Platform} {now : Instant} {room : RoomRecord} {message : MlsRelayMessage} {b : BoundedRelay}
   (hstaged : (b.toBoundedStore.stagePublish P now room message).2 = none) : (b.tryPublish P now .failure room
      message).2 = some (.save .unavailable) := by
  unfold tryPublish
  dsimp only
  generalize b.toBoundedStore.stagePublish P now room message = staged at hstaged ⊢
  obtain ⟨s, error⟩ := staged
  obtain rfl : error = none := hstaged
  exact congrArg (Option.map ThrownError.save) (savePublish_failure _ _ _ _ _ _)

/-! ### The first message of a room -/

theorem setTracked_of_fits {s : BoundedStore} {e : Entity} {k : String} {v : e.Value}
    {previous : Option e.Value} {w : Option RetainedByteWeight} {capacity : DurableEntryCapacity}
    (hprevious : (s.store.collection e).get k = previous) (hweight : e.byteWeight k v = w)
    (hbytes : (s.byteCapacity.replace (previous.bind (e.byteWeight k)) w).2 = none)
    (hclaim : s.claimEntry e k v previous = .ok capacity) :
    s.setTracked e k v = (⟨s.store.set e k v, capacity,
      (s.byteCapacity.replace (previous.bind (e.byteWeight k)) w).1⟩, none) := by
  unfold BoundedStore.setTracked
  dsimp only
  rw [hprevious, hweight]
  generalize s.byteCapacity.replace (previous.bind (e.byteWeight k)) w = replaced at hbytes ⊢
  obtain ⟨bytes, error⟩ := replaced
  obtain rfl : error = none := hbytes
  dsimp only
  rw [hclaim]

theorem stagePublish_application {s s' s'' : BoundedStore} {P : Platform} {now : Instant} {room : RoomRecord} {message : MlsRelayMessage}
    (htype : message.messageType = .application)
    (hbacklog : s.setTracked .mlsBacklog (roomKey message.teamId message.roomId)
      (P.backlogAfter now s.store.toRecords (roomKey message.teamId message.roomId) message) = (s', none))
    (hreceipt : s'.setTracked .acceptedMessageReceipts
      (receiptKey (roomKey message.teamId message.roomId) message.id)
      (P.receiptFor now (roomKey message.teamId message.roomId) message) = (s'', none)) :
    (s.stagePublish P now room message).2 = none := by
  unfold BoundedStore.stagePublish BoundedStore.Ended.andThen
  dsimp only
  rw [if_neg (by rw [htype]; decide)]
  dsimp only
  rw [hbacklog]
  dsimp only
  rw [hreceipt]

/-- An application message that is the first of its room is staged where the ceilings leave room
for it. -/
theorem stagePublish_first {s : BoundedStore} {P : Platform} {now : Instant} {room : RoomRecord}
    {message : MlsRelayMessage} {key : RoomKey} {bytes : ℕ}
    (hkey : key = roomKey message.teamId message.roomId)
    (htype : message.messageType = .application)
    (hnew : (s.store.collection .mlsBacklog).get key = none)
    (hreceipt : (s.store.collection .acceptedMessageReceipts).get (receiptKey key message.id) = none)
    (hsize : retainedJsonBytes (P.backlogAfter now s.store.toRecords key message) = bytes)
    (hfits : (s.byteCapacity.replace none
      (some ⟨.mlsBacklog, bytes, teamFromRoomKey key, some key⟩)).2 = none)
    (hclaims : ((s.capacity.claim (some (teamFromRoomKey key))).toOption.any fun capacity ↦
      (capacity.claim (some (teamFromRoomKey key))).isOk) = true) :
    (s.stagePublish P now room message).2 = none := by
  subst hkey
  obtain ⟨capacity, hcapacity, hnext⟩ := (Option.any_eq_true _ _).mp hclaims
  have hclaim : s.capacity.claim (some (teamFromRoomKey (roomKey message.teamId message.roomId))) =
      .ok capacity := by
    revert hcapacity
    rcases s.capacity.claim _ with error | c
    · exact nofun
    · exact fun h ↦ congrArg Except.ok (Option.some.inj h)
  obtain ⟨capacity', hclaim'⟩ : ∃ capacity',
      capacity.claim (some (teamFromRoomKey (roomKey message.teamId message.roomId))) =
        .ok capacity' := by
    revert hnext
    rcases capacity.claim _ with error | c
    · exact nofun
    · exact fun _ ↦ ⟨c, rfl⟩
  have hweight := congrArg (fun n ↦ some (RetainedByteWeight.mk .mlsBacklog n
    (teamFromRoomKey (roomKey message.teamId message.roomId))
    (some (roomKey message.teamId message.roomId)))) hsize
  exact stagePublish_application htype (setTracked_of_fits hnew hweight hfits hclaim)
    (setTracked_of_fits hreceipt rfl rfl hclaim')

/-- A store with the team and the room of `sampleMessage`, and room for nothing more than a backlog
and a receipt. -/
def sampleBounded : BoundedStore :=
  (Machine.run BoundedStore.step (BoundedStore.empty 4 4 .defaults)
    [.set .teams "team-1" ⟨"team-1", "Team", 0, none, none, none⟩,
      .set .rooms "room-1" sampleRoom]).1

def sampleRelay : BoundedRelay where
  toBoundedStore := sampleBounded

theorem stagePublish_sample :
    (sampleBounded.stagePublish samplePlatform sampleNow sampleRoom sampleMessage).2 = none := by
  have hbacklog : samplePlatform.backlogAfter sampleNow sampleBounded.store.toRecords
      "team-1:room-1" sampleMessage = [sampleMessage] := pruneMlsBacklog_sampleMessage
  have hkey : "team-1:room-1" = roomKey sampleMessage.teamId sampleMessage.roomId := by
    decide
  exact stagePublish_first hkey rfl (by decide) (by decide)
    (hbacklog ▸ retainedJsonBytes_singleton utf8Length_stringify_sampleMessage)
    (by decide) (by decide)

theorem publishForRoom_restores_sample :
    (sampleRelay.publishForRoom samplePlatform sampleNow .failure true sampleMessage).2 =
        .failed .persistenceUnavailable ∧
      (sampleRelay.publishForRoom samplePlatform sampleNow .failure true
        sampleMessage).1.store.toRecords = sampleRelay.store.toRecords := by
  have hkeyed : sampleRelay.store.toRecords.Keyed := by
    have hempty : ({} : Records).Keyed := fun e k v hv ↦ by cases e <;> cases hv
    exact (hempty.edit (d := .set .teams "team-1" ⟨"team-1", "Team", 0, none, none, none⟩)
      (by rintro j ⟨⟩; rfl)).edit (d := .set .rooms "room-1" sampleRoom) (by rintro j ⟨⟩; rfl)
  have hstage : samplePlatform.decidePublish sampleRelay.store.toRecords true sampleMessage =
      .stage sampleRoom := by decide
  have hrestores := publishForRoom_restores (accounted_run 4 4 .defaults _).1 hkeyed hstage
    (tryPublish_failure stagePublish_sample)
  exact ⟨hrestores.2.1, hrestores.2.2.1⟩

end BoundedRelay

end MultAIplayer
