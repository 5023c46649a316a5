import MultAIplayer.Relay.Representable

/-!
# The durable log and the live one

After a successful publish the rows of `relay_mls_messages` for the room are the room's in-memory
backlog, and both end in the message just accepted. The memory path prunes the whole list, the
SQLite path appends one row and deletes the rows that the list has lost; the two meet exactly when
the new message survives its own pruning.

## Runs

A run is any sequence of reclaims and publishes, of any rooms, under a clock that may do anything.
`log_replays_iff` is about runs in which every save returns: the two logs agree after each publish if
and only if no message was older than the retention when it was published.
-/

namespace MultAIplayer

open StoredRelayMutation

/-! ### Names of rows -/

namespace Database

/-- Every row of `relay_mls_messages` has the id of its message. -/
def MessagesNamed (db : Database) : Prop := RankedLog.Named MlsRelayMessage.id db.mlsMessages

theorem MessagesNamed.applyChange {db : Database} (h : db.MessagesNamed)
    (change : StoredRelayMutation) : (db.applyChange change).MessagesNamed := by
  obtain ⟨e, k, v⟩ := change
  cases e with
  | mlsBacklog => exact RankedLog.Named.rewrite h k _
  | rooms =>
    unfold MessagesNamed Database.applyChange
    rw [mlsMessages_writeRow, mlsMessages_writeRoomEpoch]
    exact h
  | _ => exact h

theorem MessagesNamed.applyStoredRelayMutations {db : Database} (h : db.MessagesNamed)
    (changes : List StoredRelayMutation) (skippedEntities : List Entity) :
    (db.applyStoredRelayMutations changes skippedEntities).MessagesNamed := by
  have hfold : ∀ (l : List StoredRelayMutation) (db : Database), db.MessagesNamed →
      (l.foldl Database.applyChange db).MessagesNamed := by
    intro l
    induction l with
    | nil => exact fun _ h ↦ h
    | cons change l ih => exact fun db h ↦ ih _ (h.applyChange change)
  exact hfold _ _ h

theorem MessagesNamed.saveMlsMessage {db : Database} (h : db.MessagesNamed) (roomKey : RoomKey)
    (message : MlsRelayMessage) (prunedIds : List String) (changes : List StoredRelayMutation) :
    (db.saveMlsMessage roomKey message prunedIds changes).MessagesNamed := by
  have happend : (db.appendMlsBacklogRow roomKey message prunedIds).MessagesNamed :=
    RankedLog.Named.append (RankedLog.Named.deleteIds h roomKey prunedIds) roomKey message
  exact happend.applyStoredRelayMutations changes [.mlsBacklog]

theorem MessagesNamed.savePendingChanges {c : RelayConfig} {now : Instant} {fault : WriteFault}
    {b : Coordinator} (h : b.db.MessagesNamed) :
    (b.savePendingChanges c now fault).1.db.MessagesNamed := by
  unfold Coordinator.savePendingChanges
  dsimp only
  split_ifs
  · exact h
  · exact h
  · obtain ⟨error, heq⟩ | heq | ⟨-, db, hdb, heq⟩ := Coordinator.persistenceWrite_cases fault
      (fun db ↦ some (db.saveChanges (b.collectPendingChanges c now).pendingChanges))
      (b.collectPendingChanges c now)
    · rw [heq]
      exact h
    · rw [heq]
      exact h
    · rw [heq, ← Option.some.inj hdb]
      exact h.applyStoredRelayMutations _ _

theorem ofMessages_injective (key : RoomKey) : Function.Injective (StoredBacklog.ofMessages key) := by
  intro l l' h
  cases l <;> cases l' <;> simp_all [StoredBacklog.ofMessages]

/-- **The append, read back**: the rows without the pruned ids, and then the message. -/
theorem mlsMessagesOf_saveMlsMessage {db : Database} (h : db.MessagesNamed) {roomKey : RoomKey}
    {message : MlsRelayMessage} (prunedIds : List String) {changes : List StoredRelayMutation}
    (hchanges : ∀ c ∈ changes, Storable c)
    (hnew : ∀ m ∈ db.mlsMessagesOf roomKey, m.id ≠ message.id) (k : RoomKey) :
    (db.saveMlsMessage roomKey message prunedIds changes).mlsMessagesOf k =
      if k = roomKey then
        (db.mlsMessagesOf roomKey).filter (fun m ↦ m.id ∉ prunedIds) ++ [message]
      else db.mlsMessagesOf k := by
  have hrow := row_applyStoredRelayMutations hchanges
    (db.appendMlsBacklogRow roomKey message prunedIds) [.mlsBacklog] .mlsBacklog k
  rw [if_pos (List.mem_singleton.mpr rfl)] at hrow
  have hlist := ofMessages_injective k hrow
  change (Database.applyStoredRelayMutations _ _ _).mlsMessagesOf k = _
  rw [hlist]
  split_ifs with hk
  · subst hk
    have hdelete := RankedLog.listing_deleteIds h k prunedIds
    rw [mlsMessagesOf, appendMlsBacklogRow, RankedLog.listing_append
      (show RankedLog.Named MlsRelayMessage.id _ from RankedLog.Named.deleteIds h k prunedIds), hdelete]
    · rfl
    · rw [hdelete]
      intro hmem
      obtain ⟨m, hm, hid⟩ := List.mem_map.mp hmem
      exact hnew m (List.mem_filter.mp hm).1 hid
  · exact Coordinator.mlsMessagesOf_appendMlsBacklogRow_of_ne message prunedIds hk

end Database

/-! ### The run -/

/-- A coordinator under a clock. -/
structure LogState where
  now : Instant
  coordinator : Coordinator

/-- The clock, the reclaim that opens a publish, and the publish itself. -/
inductive LogOp
  | tick (now : Instant)
  | reclaim
  | publish (message : MlsRelayMessage)

inductive LogEvent
  | reclaimed (error : Option SaveError)
  | published (outcome : PublishOutcome)

variable (P : Platform)

/-- One operation, with saves that nothing disturbs. -/
def logStep (s : LogState) : LogOp → LogState × List LogEvent
  | .tick now => ({ s with now := now }, [])
  | .reclaim =>
    let result := s.coordinator.reclaimDurableCapacity P.config s.now .none
    ({ s with coordinator := result.1 }, [.reclaimed result.2])
  | .publish message =>
    let result := P.publishForRoom s.now .none true true message s.coordinator
    ({ s with coordinator := result.1 }, [.published result.2])

/-- An operation that succeeds: its save returns, and a publish is of a message that the connection
admits and is accepted. -/
def LogOp.Succeeds (s : LogState) : LogOp → Prop
  | .tick _ => True
  | .reclaim => (s.coordinator.reclaimDurableCapacity P.config s.now .none).2 = none
  | .publish message => message.isValid = true ∧ isMlsMessageWithinLimits P.config message = true ∧
      (P.publishForRoom s.now .none true true message s.coordinator).2 = .accepted

/-- A published message is young enough to be kept. -/
def LogOp.Retained (s : LogState) : LogOp → Prop
  | .publish message => P.config.isRetained s.now message = true
  | _ => True

instance (s : LogState) : (op : LogOp) → Decidable (op.Succeeds P s)
  | .tick _ => .isTrue trivial
  | .reclaim => inferInstanceAs (Decidable (_ = _))
  | .publish _ => inferInstanceAs (Decidable (_ ∧ _ ∧ _))

instance (s : LogState) : (op : LogOp) → Decidable (op.Retained P s)
  | .publish _ => inferInstanceAs (Decidable (_ = _))
  | .tick _ | .reclaim => .isTrue trivial

namespace LogState

/-- The rows of a room are its backlog. -/
def LogsAgree (s : LogState) (key : RoomKey) : Prop :=
  s.coordinator.db.mlsMessagesOf key = s.coordinator.store.mlsBacklogOf key

/-- The rows of the room of a message are its backlog, and both end in the message. -/
def Replays (s : LogState) (message : MlsRelayMessage) : Prop :=
  let key := roomKey message.teamId message.roomId
  s.LogsAgree key ∧ (s.coordinator.db.mlsMessagesOf key).getLast? = some message ∧
    (s.coordinator.store.mlsBacklogOf key).getLast? = some message

/-- Nothing waits, and the two logs of every room agree. -/
structure InStep (s : LogState) : Prop where
  representable : s.coordinator.store.Representable
  drained : s.coordinator.store.durableMutations = []
  written : s.coordinator.pendingChanges = []
  named : s.coordinator.db.MessagesNamed
  agrees : ∀ key, s.LogsAgree key

end LogState

/-! ### Draining what was reported -/

section Drain

variable {P}

/-- What is collected with nothing pending can be stored. -/
theorem storable_collected (c : RelayConfig) (now : Instant) {b : Coordinator}
    (hstore : b.store.Representable) (hpending : b.pendingChanges = []) :
    ∀ change ∈ (b.collectPendingChanges c now).pendingChanges, Database.Storable change := by
  intro change hchange
  have hmem := mem_of_mem_latestChanges hchange
  rw [hpending, List.nil_append] at hmem
  obtain ⟨m, -, rfl⟩ := Coordinator.mem_drain.mp hmem
  exact Coordinator.storable_encode hstore m

/-- What is collected with nothing pending says of each key what its collection holds. -/
theorem lastChange_collected (c : RelayConfig) (now : Instant) {b : Coordinator}
    (hstore : b.store.Representable) (hpending : b.pendingChanges = []) (e : Entity) {k : String}
    (hk : IsKey e k) :
    lastChange (b.collectPendingChanges c now).pendingChanges e (persistedKey e k) =
      if ⟨e, k⟩ ∈ b.store.durableMutations then some (encodeValue c now b.store.toRecords e k)
      else none := by
  change lastChange (latestChanges (b.pendingChanges ++ (drain c now b.store).1)) _ _ = _
  rw [lastChange_latestChanges, hpending, List.nil_append, Coordinator.lastChange_drain hstore hk]

/-- A save of everything that was reported, read back at a backlog. -/
theorem mlsMessagesOf_savePendingChanges {c : RelayConfig} {now : Instant} {b : Coordinator}
    (hstore : b.store.Representable) (hpending : b.pendingChanges = [])
    (hreturned : (b.savePendingChanges c now .none).2 = none) (key : RoomKey) :
    (b.savePendingChanges c now .none).1.db.mlsMessagesOf key =
      if ⟨.mlsBacklog, key⟩ ∈ b.store.durableMutations then
        pruneMlsBacklog c now (b.store.mlsBacklogOf key)
      else b.db.mlsMessagesOf key := by
  have hlast := lastChange_collected c now hstore hpending .mlsBacklog
    (k := key) nofun
  have hrow : (b.savePendingChanges c now .none).1.db.row .mlsBacklog key =
      (lastChange (b.collectPendingChanges c now).pendingChanges .mlsBacklog key).getD
        (b.db.row .mlsBacklog key) := by
    unfold Coordinator.savePendingChanges at hreturned ⊢
    cases hhealthy : b.isHealthy with
    | false => simp [hhealthy] at hreturned
    | true =>
      simp only [hhealthy, Bool.not_true, Bool.false_eq_true, if_false] at hreturned ⊢
      split_ifs at hreturned ⊢ with hempty
      · rw [List.isEmpty_iff.mp hempty]
        rfl
      · obtain ⟨error, heq⟩ | heq | ⟨-, db, hdb, heq⟩ := Coordinator.persistenceWrite_cases .none
          (fun db ↦ some (db.saveChanges (b.collectPendingChanges c now).pendingChanges))
          (b.collectPendingChanges c now)
        · rw [heq] at hreturned
          cases hreturned
        · rw [heq] at hreturned
          cases hreturned
        · rw [heq, ← Option.some.inj hdb]
          exact Coordinator.row_saveChanges (storable_collected _ _ hstore hpending) b.db _ _
  change lastChange _ _ key = _ at hlast
  rw [hlast] at hrow
  refine Database.ofMessages_injective key ?_
  change (b.savePendingChanges c now .none).1.db.row .mlsBacklog key = _
  rw [hrow]
  split_ifs <;> rfl

end Drain

/-! ### A reclaim -/

section Steps

variable {P}

theorem LogState.mlsBacklogOf_eq_nil {r : Records} {key : RoomKey} (h : key ∉ r.mlsBacklog.keys) :
    r.mlsBacklogOf key = [] := by
  unfold Records.mlsBacklogOf
  cases hget : r.mlsBacklog.get key with
  | none => rfl
  | some l => exact absurd (InsertionMap.mem_keys_iff.mpr ⟨l, hget⟩) h

/-- **A reclaim keeps the logs in step**: it prunes every backlog and writes what is left. -/
theorem LogState.InStep.reclaim {s : LogState} (h : s.InStep)
    (hreturned : LogOp.Succeeds P s .reclaim) : (logStep P s .reclaim).1.InStep := by
  obtain ⟨now, b⟩ := s
  have hpruned := h.representable.pruneExpiredState P.config now
  generalize hb : ({ b with store := b.store.pruneExpiredState P.config now } : Coordinator) = b'
  have hstep : (logStep P ⟨now, b⟩ .reclaim).1.coordinator =
      (b'.savePendingChanges P.config now .none).1 := by rw [← hb]; rfl
  have hsaved : (b'.savePendingChanges P.config now .none).2 = none := by
    rw [← hb]
    exact hreturned
  have hdrained := drained_of_savePendingChanges hsaved
  have hrecords := Coordinator.toRecords_savePendingChanges P.config now .none b'
  have hstore : b'.store = b.store.pruneExpiredState P.config now := by rw [← hb]
  have hpending : b'.pendingChanges = [] := by rw [← hb]; exact h.written
  have hdb : b'.db = b.db := by rw [← hb]
  rw [← hstore] at hpruned
  constructor
  · rw [hstep]
    refine hpruned.of_drained hrecords ?_
    rw [hdrained.1]
    exact List.nil_subset _
  · rw [hstep]
    exact hdrained.1
  · rw [hstep]
    exact hdrained.2
  · rw [hstep]
    exact Database.MessagesNamed.savePendingChanges (hdb ▸ h.named)
  · intro key
    unfold LogState.LogsAgree
    rw [hstep, mlsMessagesOf_savePendingChanges hpruned hpending hsaved, hrecords, hstore, hdb,
      RelayStore.mlsBacklogOf_pruneExpiredState, pruneMlsBacklog_retainedBacklog]
    split_ifs with hreported
    · rfl
    · -- A backlog that was not reported was not there, before or after.
      have hkey : key ∉ b.store.mlsBacklog.keys := fun hmem ↦
        hreported (reported_pruneExpiredState P.config now b.store hmem)
      have hnil := mlsBacklogOf_eq_nil hkey
      have hagrees : b.db.mlsMessagesOf key = b.store.mlsBacklogOf key := h.agrees key
      rw [hagrees, hnil]
      exact (List.sublist_nil.mp (retainedBacklog_sublist _ _ _ _ _)).symm

/-! ### A publish -/

/-- What a publish that is saved leaves behind. -/
theorem savePublish_returned {c : RelayConfig} {now : Instant} {fault : WriteFault} {key : RoomKey}
    {message : MlsRelayMessage} {prunedIds : List String} {b b' : Coordinator}
    (h : b.savePublish c now fault key message prunedIds = (b', none)) :
    ∃ db : Database, db.mlsMessages = b.db.mlsMessages ∧
      (∀ e k, db.row e k = b.db.row e k) ∧
      b' = { b.collectPendingChanges c now with
        db := db.saveMlsMessage key message prunedIds (b.collectPendingChanges c now).pendingChanges
        pendingChanges := [] } := by
  have hwritten : ∀ write : Database → Option Database,
      (b.collectPendingChanges c now).persistenceWrite fault write = (b', none) →
      ∃ db, write b.db = some db ∧
        b' = { b.collectPendingChanges c now with db := db, pendingChanges := [] } := by
    intro write hwrite
    obtain ⟨error, heq⟩ | heq | ⟨-, db, hdb, heq⟩ :=
      Coordinator.persistenceWrite_cases fault write (b.collectPendingChanges c now)
    · rw [hwrite] at heq
      cases heq
    · rw [hwrite] at heq
      cases heq
    · rw [hwrite] at heq
      exact ⟨db, hdb, (Prod.mk.inj heq).1⟩
  unfold Coordinator.savePublish at h
  cases htype : message.messageType with
  | application =>
    simp only [htype, Coordinator.saveMlsMessage] at h
    obtain ⟨db, hdb, rfl⟩ := hwritten _ h
    exact ⟨b.db, rfl, fun _ _ ↦ rfl, by rw [← Option.some.inj hdb]⟩
  | commit =>
    simp only [htype, Coordinator.saveMlsCommit] at h
    obtain ⟨db, hdb, rfl⟩ := hwritten _ h
    split_ifs at hdb
    obtain ⟨db₁, hadvance, rfl⟩ := Option.map_eq_some_iff.mp hdb
    obtain ⟨hrow, hmessages⟩ := Coordinator.row_advanceRoomEpoch hadvance
    exact ⟨db₁, hmessages, hrow, rfl⟩

/-- The entries of a list with the ids of a sublist are the sublist. -/
theorem filter_id_mem {l l' : List MlsRelayMessage} (hsub : l'.Sublist l)
    (hnodup : (l.map (·.id)).Nodup) : (l.filter fun m ↦ m.id ∈ l'.map (·.id)) = l' := by
  induction hsub with
  | slnil => rfl
  | @cons l' l m hsub ih =>
    obtain ⟨hm, hnodup⟩ := List.nodup_cons.mp hnodup
    have hnot : m.id ∉ l'.map (·.id) := fun hmem ↦ hm ((hsub.map _).subset hmem)
    rw [List.filter_cons_of_neg (by simpa using hnot), ih hnodup]
  | @cons_cons l' l m hsub ih =>
    obtain ⟨hm, hnodup⟩ := List.nodup_cons.mp hnodup
    rw [List.filter_cons_of_pos (by simp)]
    congr 1
    conv_rhs => rw [← ih hnodup]
    refine List.filter_congr fun a ha ↦ ?_
    have hne : a.id ≠ m.id := fun he ↦ hm (List.mem_map.mpr ⟨a, ha, he⟩)
    simp [hne]

/-- **A retained message is appended to both logs in the same way**: the rows that the append
deletes are the messages that the prune drops. -/
theorem filter_prunedIds {now : Instant} {r : Records} {key : RoomKey} {message : MlsRelayMessage}
    (hnodup : ((r.mlsBacklogOf key).map (·.id)).Nodup)
    (hnew : ∀ m ∈ r.mlsBacklogOf key, m.id ≠ message.id)
    (hage : P.config.isRetained now message = true)
    (hsize : isMlsMessageWithinLimits P.config message = true) :
    ((r.mlsBacklogOf key).filter fun m ↦ m.id ∉ P.prunedIds now r key message) ++ [message] =
      P.backlogAfter now r key message := by
  obtain ⟨l', hsub, hafter⟩ := pruneMlsBacklog_append_of_retained (l := r.mlsBacklogOf key) hage
    hsize
  rw [Platform.backlogAfter, hafter]
  congr 1
  conv_rhs => rw [← filter_id_mem hsub hnodup]
  refine List.filter_congr fun m hm ↦ ?_
  have hids : (P.backlogAfter now r key message).map (·.id) = l'.map (·.id) ++ [message.id] := by
    rw [Platform.backlogAfter, hafter, List.map_append, List.map_singleton]
  have hpruned : m.id ∈ P.prunedIds now r key message ↔ m.id ∉ l'.map (·.id) := by
    unfold Platform.prunedIds
    rw [hids]
    constructor
    · intro hmem hl'
      obtain ⟨m', hm', hid⟩ := List.mem_map.mp hmem
      have hnot := (List.mem_filter.mp hm').2
      rw [hid] at hnot
      simp [hl'] at hnot
    · intro hl'
      refine List.mem_map.mpr ⟨m, List.mem_filter.mpr ⟨hm, ?_⟩, rfl⟩
      simpa [hnew m hm] using hl'
  simp [hpruned]

/-- The rows of every room after a publish that is saved. -/
theorem mlsMessagesOf_savedPublish {now : Instant} {fault : WriteFault} {room : RoomRecord}
    {message : MlsRelayMessage} {b c : Coordinator} (hnamed : b.db.MessagesNamed)
    (hrepresentable : (P.stagePublish now room message b.store).Representable)
    (hwritten : b.pendingChanges = [])
    (hnew : ∀ m ∈ b.db.mlsMessagesOf (roomKey message.teamId message.roomId), m.id ≠ message.id)
    (hsave : P.savedPublish now fault room message b = (c, none)) :
    c.db.MessagesNamed ∧ c.pendingChanges = [] ∧ c.store.durableMutations = [] ∧
      ∀ k, c.db.mlsMessagesOf k = if k = roomKey message.teamId message.roomId then
        (b.db.mlsMessagesOf (roomKey message.teamId message.roomId)).filter (fun m ↦ m.id ∉
          P.prunedIds now b.store.toRecords (roomKey message.teamId message.roomId) message) ++
          [message]
      else b.db.mlsMessagesOf k := by
  obtain ⟨db, hmessages, -, rfl⟩ := savePublish_returned hsave
  have hdb : db.MessagesNamed := by
    unfold Database.MessagesNamed
    rw [hmessages]
    exact hnamed
  have hlisting : ∀ k, db.mlsMessagesOf k = b.db.mlsMessagesOf k := by
    intro k
    rw [Database.mlsMessagesOf, hmessages]
    rfl
  have hstorable := storable_collected P.config now
    (b := P.stagedPublish now room message b) hrepresentable hwritten
  refine ⟨hdb.saveMlsMessage _ _ _ _, rfl, rfl, fun k ↦ ?_⟩
  rw [← hlisting] at hnew
  have hrows := Database.mlsMessagesOf_saveMlsMessage hdb
    (P.prunedIds now b.store.toRecords (roomKey message.teamId message.roomId) message)
    hstorable hnew k
  refine hrows.trans ?_
  rw [hlisting, hlisting]

/-- **One publish**: it leaves the logs in step, ending in the message, exactly when the message is
young enough to be kept. -/
theorem LogState.InStep.publish {s : LogState} (h : s.InStep) {message : MlsRelayMessage}
    (hsucceeds : LogOp.Succeeds P s (.publish message)) :
    (P.config.isRetained s.now message = true → (logStep P s (.publish message)).1.InStep) ∧
    ((logStep P s (.publish message)).1.Replays message ↔
      P.config.isRetained s.now message = true) := by
  obtain ⟨now, b⟩ := s
  obtain ⟨-, hsize, haccepted⟩ := hsucceeds
  obtain ⟨heq, -⟩ | ⟨error, heq, -⟩ | ⟨room, hdecide, ⟨c, error, -, heq⟩ | ⟨-, c, hsave, heq⟩⟩ :=
    Platform.publishForRoom_cases P now .none true true message b
  · rw [heq] at haccepted
    cases haccepted
  · rw [heq] at haccepted
    cases haccepted
  · rw [heq] at haccepted
    cases haccepted
  obtain ⟨-, -, -, hnew, -, -⟩ := Platform.decidePublish_eq_stage hdecide
  have hagrees : ∀ k, b.db.mlsMessagesOf k = b.store.mlsBacklogOf k := h.agrees
  have hnodup : ((b.store.mlsBacklogOf (roomKey message.teamId message.roomId)).map
      (·.id)).Nodup := by
    unfold Records.mlsBacklogOf
    cases hget : b.store.mlsBacklog.get (roomKey message.teamId message.roomId) with
    | none => exact List.nodup_nil
    | some l => exact h.representable.distinctIds .mlsBacklog _ l hget
  have hstaged : (P.stagePublish now room message b.store).Representable :=
    Platform.representable_stagePublish h.representable hnew
  obtain ⟨hnamed, hpending, hdrained, hrows⟩ := mlsMessagesOf_savedPublish h.named hstaged h.written
    ((hagrees _).symm ▸ hnew) hsave
  have hstore : c.store.toRecords = (P.stagePublish now room message b.store).toRecords := by
    rw [← Platform.toRecords_savedPublish P now .none, hsave]
  have hbacklog : ∀ k, c.store.mlsBacklogOf k = if k = roomKey message.teamId message.roomId then
      P.backlogAfter now b.store.toRecords (roomKey message.teamId message.roomId) message
      else b.store.mlsBacklogOf k := by
    intro k
    rw [hstore, Records.mlsBacklogOf, mlsBacklog_stagePublish, InsertionMap.get_set]
    split_ifs <;> rfl
  have hstep : (logStep P ⟨now, b⟩ (.publish message)).1 = ⟨now, c⟩ := by
    change (⟨now, (P.publishForRoom now .none true true message b).1⟩ : LogState) = _
    rw [heq]
  rw [hstep]
  -- With a retained message the append and the prune do the same.
  have hkept : P.config.isRetained now message = true → ∀ k,
      c.db.mlsMessagesOf k = c.store.mlsBacklogOf k := by
    intro hage k
    rw [hrows, hbacklog]
    split_ifs with hk
    · rw [hagrees]
      exact filter_prunedIds hnodup hnew hage hsize
    · exact hagrees k
  constructor
  · intro hage
    refine ⟨hstaged.of_drained hstore ?_, hdrained, hpending, hnamed, hkept hage⟩
    rw [hdrained]
    exact List.nil_subset _
  · constructor
    · rintro ⟨-, -, hlast⟩
      have hmem := List.mem_of_getLast? hlast
      change message ∈ c.store.mlsBacklogOf _ at hmem
      rw [hbacklog, if_pos rfl] at hmem
      exact (mem_of_mem_pruneMlsBacklog hmem).2.1
    · intro hage
      have hlast : (c.db.mlsMessagesOf (roomKey message.teamId message.roomId)).getLast? =
          some message := by
        rw [hrows, if_pos rfl, List.getLast?_append]
        rfl
      exact ⟨hkept hage _, hlast, hkept hage _ ▸ hlast⟩

end Steps

/-! ### Runs of publishes -/

/-- **The durable log is the live one, after every publish of a run, exactly when no message of the
run was older than the retention when it was published.** -/
theorem log_replays_iff {P : Platform} {s : LogState} (h : s.InStep) {ops : List LogOp}
    (hops : Machine.Along (logStep P) (LogOp.Succeeds P) s ops) :
    Machine.Along (logStep P)
      (fun s op ↦ ∀ message, op = .publish message → (logStep P s op).1.Replays message) s ops ↔
      Machine.Along (logStep P) (LogOp.Retained P) s ops := by
  induction ops generalizing s with
  | nil => exact Iff.rfl
  | cons op ops ih =>
    obtain ⟨hsucceeds, hops⟩ := hops
    cases op with
    | tick now =>
      have hnext : (logStep P s (.tick now)).1.InStep :=
        ⟨h.representable, h.drained, h.written, h.named, h.agrees⟩
      exact and_congr ⟨fun _ ↦ trivial, fun _ _ ↦ nofun⟩ (ih hnext hops)
    | reclaim =>
      exact and_congr ⟨fun _ ↦ trivial, fun _ _ ↦ nofun⟩ (ih (h.reclaim hsucceeds) hops)
    | publish message =>
      obtain ⟨hnext, hreplays⟩ := h.publish hsucceeds
      constructor
      · rintro ⟨hhead, htail⟩
        have hage := hreplays.mp (hhead message rfl)
        exact ⟨hage, (ih (hnext hage) hops).mp htail⟩
      · rintro ⟨hage, htail⟩
        refine ⟨fun m hm ↦ ?_, (ih (hnext hage) hops).mpr htail⟩
        rw [← LogOp.publish.inj hm]
        exact hreplays.mpr hage

/-! ### A message that is older than the retention -/

/-- A platform that does not hash and verifies everything. -/
def samplePlatform : Platform where
  sha256 := id
  sha256OfBase64 := id
  verifyHostTransfer := fun _ _ _ ↦ true

/-- The room of `sampleMessage`, hosted by its sender. -/
def sampleRoom : RoomRecord where
  id := "room-1"
  teamId := "team-1"
  acceptedMlsEpoch := some 0
  name := "Room"
  host := "User"
  hostUserId := some "user-1"
  activeHostDeviceId := some "device-1"
  hostStatus := .active
  approvalPolicy := .askEveryTurn

/-- A store that holds the team and the room of `sampleMessage`, and nothing else. -/
def sampleStore : RelayStore :=
  { (({} : RelayStore).setTeam ⟨"team-1", "Team", 0, none, none, none⟩).setRoom sampleRoom with
    durableMutations := [] }

def sampleLog : LogState := ⟨sampleNow, { store := sampleStore }⟩

theorem sampleLog_inStep : sampleLog.InStep where
  representable := by
    have hstore : (({} : RelayStore).setTeam ⟨"team-1", "Team", 0, none, none, none⟩).Representable :=
      RelayStore.Representable.set (SaveState.synced_empty {} sampleNow).representable
        (e := .teams) nofun trivial
    have hroom := RelayStore.Representable.set hstore (e := .rooms) (k := "room-1")
      (v := sampleRoom) nofun trivial
    exact hroom.of_drained rfl (List.nil_subset _)
  drained := rfl
  written := rfl
  named := RankedLog.named_empty
  agrees := fun _ ↦ rfl

theorem log_replays_sample :
    Machine.Along (logStep samplePlatform) (fun s op ↦ ∀ message, op = .publish message →
      (logStep samplePlatform s op).1.Replays message) sampleLog [.reclaim, .publish sampleMessage] :=
  (log_replays_iff sampleLog_inStep (by decide +kernel)).mpr (by decide +kernel)

/-- A message of the year 2000 is accepted and appended to the durable log, while the live backlog
drops it at once. -/
theorem outdated_message_is_only_durable :
    ¬∀ (P : Platform) (s : LogState) (ops : List LogOp), s.InStep →
      Machine.Along (logStep P) (LogOp.Succeeds P) s ops →
      Machine.Along (logStep P) (fun s op ↦ ∀ message, op = .publish message →
        (logStep P s op).1.Replays message) s ops := by
  intro h
  have hreplays := h samplePlatform sampleLog
    [.reclaim, .publish { sampleMessage with createdAt := "2000-01-01T00:00:00.000Z" }]
    sampleLog_inStep (by decide +kernel)
  exact absurd (hreplays.2.1 _ rfl).2.2 (by decide)

end MultAIplayer
