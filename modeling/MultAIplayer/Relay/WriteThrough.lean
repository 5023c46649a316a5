import MultAIplayer.Lib.Machine
import MultAIplayer.Relay.Persistence

/-!
# Write-through

The database mirrors the store: what SQLite holds for a key, with the pending changes applied, is
the encoding of what the collection holds, for every key that has no report waiting for a drain.

## The invariant names the time of the encoding

An encoding reads the clock, and a row is not rewritten when the clock moves on. `encodedAt` gives,
for each key, the time at which its last report was drained; the row is the encoding of the current
value at that time, not at the present time.

## One-row appends

`saveMlsMessage` and `saveMlsCommit` do not apply the pending backlog changes: they append one row
and then acknowledge the whole batch. Nothing is lost exactly when the append has the effect that
the skipped changes would have had (`AppendCovers`). The other entities need no such condition, and
`Mirrors` takes the set of entities that it speaks about so that the two cases share one proof.
-/

namespace MultAIplayer

open StoredRelayMutation

/-- The keys that a collection uses: a receipt key separates room and message by a NUL. -/
def IsKey (e : Entity) (k : String) : Prop :=
  e = .acceptedMessageReceipts → '\x00' ∈ k.toList

theorem persistedKey_inj {e : Entity} {j k : String} (hj : IsKey e j) (hk : IsKey e k)
    (h : persistedKey e j = persistedKey e k) : j = k := by
  by_cases he : e = .acceptedMessageReceipts
  · subst he
    exact acceptedReceiptStorageKey_inj (hj rfl) (hk rfl) h
  · cases e <;> first | exact h | exact absurd rfl he

/-- No backlog repeats a message id. -/
def DistinctIds : (e : Entity) → e.Value → Prop
  | .mlsBacklog, messages => (messages.map (·.id)).Nodup
  | _, _ => True

/-- A store that the tables can represent. -/
structure RelayStore.Representable (s : RelayStore) : Prop where
  isKey : ∀ e k v, (s.collection e).get k = some v → IsKey e k
  reported : ∀ m ∈ s.durableMutations, IsKey m.entity m.key
  distinctIds : ∀ e k v, (s.collection e).get k = some v → DistinctIds e v

theorem RelayStore.Representable.update {s : RelayStore} (h : s.Representable) {e : Entity}
    {m : InsertionMap String e.Value} {touched : List String} (htouched : ∀ k ∈ touched, IsKey e k)
    (hm : ∀ k v, m.get k = some v →
      (s.collection e).get k = some v ∨ IsKey e k ∧ DistinctIds e v) :
    (s.update e m touched).Representable := by
  have hcases : ∀ f k v, ((s.update e m touched).collection f).get k = some v →
      IsKey f k ∧ DistinctIds f v := by
    intro f k v hv
    by_cases hf : f = e
    · subst hf
      rw [RelayStore.update, Records.collection_withCollection_self] at hv
      rcases hm k v hv with hold | hnew
      · exact ⟨h.isKey f k v hold, h.distinctIds f k v hold⟩
      · exact hnew
    · rw [RelayStore.update, Records.collection_withCollection_of_ne _ _ hf] at hv
      exact ⟨h.isKey f k v hv, h.distinctIds f k v hv⟩
  refine ⟨fun f k v hv ↦ (hcases f k v hv).1, ?_, fun f k v hv ↦ (hcases f k v hv).2⟩
  intro mutation hmutation
  rcases List.mem_append.mp hmutation with hold | hnew
  · exact h.reported mutation hold
  · obtain ⟨k, hk, rfl⟩ := List.mem_map.mp hnew
    exact htouched k hk

theorem RelayStore.Representable.set {s : RelayStore} (h : s.Representable) {e : Entity}
    {k : String} {v : e.Value} (hk : IsKey e k) (hv : DistinctIds e v) :
    (s.set e k v).Representable := by
  refine h.update (fun j hj ↦ List.mem_singleton.mp hj ▸ hk) fun j w hw ↦ ?_
  rw [InsertionMap.get_set] at hw
  split_ifs at hw with hj
  · subst hj
    exact .inr ⟨hk, Option.some.inj hw ▸ hv⟩
  · exact .inl hw

theorem RelayStore.Representable.delete {s : RelayStore} (h : s.Representable) (e : Entity)
    (k : String) : (s.delete e k).Representable := by
  refine h.update (fun j hj ↦ ?_) fun j w hw ↦ .inl ?_
  · split_ifs at hj with hhas
    · obtain ⟨v, hv⟩ := InsertionMap.has_iff.mp hhas
      exact List.mem_singleton.mp hj ▸ h.isKey e k v hv
    · cases hj
  · rw [InsertionMap.get_delete] at hw
    split_ifs at hw
    exact hw

theorem RelayStore.Representable.clear {s : RelayStore} (h : s.Representable) (e : Entity) :
    (s.clear e).Representable := by
  refine h.update (fun k hk ↦ ?_) fun k v hv ↦ ?_
  · obtain ⟨v, hv⟩ := InsertionMap.mem_keys_iff.mp hk
    exact h.isKey e k v hv
  · cases hv

/-- A drain takes nothing from the collections and adds no report. -/
theorem RelayStore.Representable.of_drained {s s' : RelayStore} (h : s.Representable)
    (hrecords : s'.toRecords = s.toRecords)
    (hsubset : s'.durableMutations ⊆ s.durableMutations) : s'.Representable where
  isKey := by
    rw [hrecords]
    exact h.isKey
  reported := fun m hm ↦ h.reported m (hsubset hm)
  distinctIds := by
    rw [hrecords]
    exact h.distinctIds

/-- **The database mirrors the store** for the entities of `E`. -/
structure Coordinator.Mirrors (c : RelayConfig) (E : Entity → Prop)
    (encodedAt : Entity → String → Instant) (b : Coordinator) : Prop where
  representable : b.store.Representable
  storable : ∀ change ∈ b.pendingChanges, Database.Storable change
  current : ∀ e k, E e → IsKey e k → ⟨e, k⟩ ∉ b.store.durableMutations →
    (lastChange b.pendingChanges e (persistedKey e k)).getD (b.db.row e (persistedKey e k)) =
      encodeValue c (encodedAt e k) b.store.toRecords e k
  rowKeys : ∀ e j v, E e → (lastChange b.pendingChanges e j).getD (b.db.row e j) = some v →
    ∃ k, IsKey e k ∧ persistedKey e k = j

namespace Coordinator

variable {c : RelayConfig} {E : Entity → Prop} {encodedAt : Entity → String → Instant}

/-! ### Mutations -/

/-- Reported mutations of the store keep the mirror. -/
theorem Mirrors.of_tracks {b : Coordinator} {s : RelayStore} (h : b.Mirrors c E encodedAt)
    (htracks : RelayStore.Tracks b.store s) (hs : s.Representable) :
    ({ b with store := s } : Coordinator).Mirrors c E encodedAt where
  representable := hs
  storable := h.storable
  rowKeys := h.rowKeys
  current := by
    intro e k he hk hlog
    obtain ⟨l, hl, hget⟩ := htracks
    have hlog : ⟨e, k⟩ ∉ s.durableMutations := hlog
    rw [hl, List.mem_append, not_or] at hlog
    rw [encodeValue_congr (hget e k hlog.2)]
    exact h.current e k he hk hlog.1

/-! ### Draining -/

/-- The time of the last drain of each key, after a step from `s` to `s'` at `now`: a report that
is gone has been drained. -/
def drainedAt (now : Instant) (s s' : RelayStore) (encodedAt : Entity → String → Instant)
    (e : Entity) (k : String) : Instant :=
  if ⟨e, k⟩ ∈ s.durableMutations ∧ ⟨e, k⟩ ∉ s'.durableMutations then now else encodedAt e k

theorem drainedAt_of_subset {now : Instant} {s s' : RelayStore}
    (h : s.durableMutations ⊆ s'.durableMutations) : drainedAt now s s' encodedAt = encodedAt := by
  funext e k
  exact if_neg fun hk ↦ hk.2 (h hk.1)

theorem mem_drain {now : Instant} {s : RelayStore} {change : StoredRelayMutation} :
    change ∈ (drain c now s).1 ↔
      ∃ m ∈ s.durableMutations, encode c now s.toRecords m = change := by
  simp [drain, mem_latestMutations]

theorem pruneMlsBacklog_nodup_ids {now : Instant} {l : List MlsRelayMessage}
    (h : (l.map (·.id)).Nodup) : ((pruneMlsBacklog c now l).map (·.id)).Nodup :=
  h.sublist ((pruneMlsBacklog_sublist c now l).map _)

theorem StoredBacklog.ofMessages_eq_some {key : RoomKey} {l : List MlsRelayMessage}
    {v : StoredBacklog} (h : StoredBacklog.ofMessages key l = some v) : l ≠ [] ∧ v = ⟨key, l⟩ := by
  cases l with
  | nil => cases h
  | cons m l => exact ⟨List.cons_ne_nil m l, (Option.some.inj h).symm⟩

theorem storable_encode {now : Instant} {s : RelayStore} (hs : s.Representable)
    (m : RelayStoreMutation) : Database.Storable (encode c now s.toRecords m) := by
  obtain ⟨e, k⟩ := m
  by_cases he : e = .mlsBacklog
  · subst he
    cases hv : encodeValue c now s.toRecords .mlsBacklog k with
    | none => simp [encode, hv, Database.Storable]
    | some v =>
      obtain ⟨hne, rfl⟩ := StoredBacklog.ofMessages_eq_some hv
      simp only [encode, hv, Database.Storable]
      refine ⟨rfl, hne, pruneMlsBacklog_nodup_ids ?_⟩
      cases hget : s.mlsBacklog.get k with
      | none => exact List.nodup_nil
      | some l => exact hs.distinctIds .mlsBacklog k l hget
  · cases e <;> first | exact absurd rfl he | simp [encode, Database.Storable]

/-- What a drain says about a key that was reported. -/
theorem lastChange_drain {now : Instant} {s : RelayStore} (hs : s.Representable) {e : Entity}
    {k : String} (hk : IsKey e k) :
    lastChange (drain c now s).1 e (persistedKey e k) =
      if ⟨e, k⟩ ∈ s.durableMutations then some (encodeValue c now s.toRecords e k) else none := by
  have hsource : ∀ v, ⟨e, persistedKey e k, v⟩ ∈ (drain c now s).1 →
      ⟨e, k⟩ ∈ s.durableMutations ∧ v = encodeValue c now s.toRecords e k := by
    intro v hv
    obtain ⟨⟨f, j⟩, hm, hencode⟩ := mem_drain.mp hv
    injection hencode with hf hj hvalue
    subst hf
    have hjk : j = k := persistedKey_inj (hs.reported _ hm) hk hj
    subst hjk
    exact ⟨hm, (eq_of_heq hvalue).symm⟩
  split_ifs with hlog
  · exact lastChange_of_mem (mem_drain.mpr ⟨⟨e, k⟩, hlog, rfl⟩) fun w hw ↦ (hsource w hw).2
  · cases hlast : lastChange (drain c now s).1 e (persistedKey e k) with
    | none => rfl
    | some v => exact absurd (hsource v (lastChange_eq_some hlast)).1 hlog

/-- **Draining keeps the mirror** and leaves no report behind. -/
theorem Mirrors.collectPendingChanges {b : Coordinator} (h : b.Mirrors c E encodedAt)
    (now : Instant) :
    (b.collectPendingChanges c now).Mirrors c E
      (drainedAt now b.store (b.collectPendingChanges c now).store encodedAt) where
  representable := by
    refine ⟨h.representable.isKey, ?_, h.representable.distinctIds⟩
    intro m hm
    cases hm
  storable := by
    intro change hchange
    rcases List.mem_append.mp (mem_of_mem_latestChanges hchange) with hmem | hmem
    · exact h.storable change hmem
    · obtain ⟨m, -, rfl⟩ := mem_drain.mp hmem
      exact storable_encode h.representable m
  current := by
    intro e k he hk _
    change (lastChange (latestChanges _) e _).getD _ = encodeValue c _ b.store.toRecords e k
    rw [lastChange_latestChanges, lastChange_append, lastChange_drain h.representable hk]
    by_cases hlog : ⟨e, k⟩ ∈ b.store.durableMutations
    · have htime : drainedAt now b.store (b.collectPendingChanges c now).store encodedAt e k = now :=
        if_pos ⟨hlog, by rintro ⟨⟩⟩
      rw [if_pos hlog, htime]
      rfl
    · have htime : drainedAt now b.store (b.collectPendingChanges c now).store encodedAt e k =
          encodedAt e k := if_neg fun hk ↦ hlog hk.1
      rw [if_neg hlog, htime]
      exact h.current e k he hk hlog
  rowKeys := by
    intro e j v he hv
    change (lastChange (latestChanges _) e _).getD _ = _ at hv
    rw [lastChange_latestChanges, lastChange_append] at hv
    cases hlast : lastChange (drain c now b.store).1 e j with
    | none =>
      rw [hlast, Option.none_or] at hv
      exact h.rowKeys e j v he hv
    | some w =>
      obtain ⟨⟨f, k⟩, hm, hencode⟩ := mem_drain.mp (lastChange_eq_some hlast)
      injection hencode with hf hj
      subst hf
      exact ⟨k, h.representable.reported _ hm, hj⟩

/-! ### Units of work -/

/-- A unit of work that writes the pending changes keeps the mirror and empties the batch. -/
theorem Mirrors.written {b : Coordinator} (h : b.Mirrors c E encodedAt) {db : Database}
    (hdb : ∀ e j, E e → db.row e j = (lastChange b.pendingChanges e j).getD (b.db.row e j)) :
    ({ b with db := db, pendingChanges := [] } : Coordinator).Mirrors c E encodedAt where
  representable := h.representable
  storable := by
    intro change hchange
    cases hchange
  current := by
    intro e k he hk hlog
    change db.row e (persistedKey e k) = _
    rw [hdb e _ he]
    exact h.current e k he hk hlog
  rowKeys := by
    intro e j v he hv
    change db.row e j = some v at hv
    rw [hdb e j he] at hv
    exact h.rowKeys e j v he hv

theorem Mirrors.poisoned {b : Coordinator} (h : b.Mirrors c E encodedAt) (healthy : Bool) :
    ({ b with isHealthy := healthy } : Coordinator).Mirrors c E encodedAt :=
  ⟨h.representable, h.storable, h.current, h.rowKeys⟩

/-- A unit of work keeps the mirror, whether it returns or throws. -/
theorem Mirrors.persistenceWrite {b : Coordinator} (h : b.Mirrors c E encodedAt)
    {fault : WriteFault} {write : Database → Option Database}
    (hwrite : (b.persistenceWrite fault write).2 = none → ∀ db, write b.db = some db →
      ∀ e j, E e → db.row e j = (lastChange b.pendingChanges e j).getD (b.db.row e j)) :
    (b.persistenceWrite fault write).1.Mirrors c E encodedAt := by
  obtain ⟨error, heq⟩ | heq | ⟨-, db, hdb, heq⟩ := persistenceWrite_cases fault write b
  · rw [heq]
    exact h
  · rw [heq]
    exact h.poisoned false
  · have hreturned : (b.persistenceWrite fault write).2 = none := by rw [heq]
    rw [heq]
    exact h.written (hwrite hreturned db hdb)

/-- A write that returns leaves an empty batch. -/
theorem pendingChanges_of_persistenceWrite {fault : WriteFault}
    {write : Database → Option Database} {b : Coordinator}
    (h : (b.persistenceWrite fault write).2 = none) :
    (b.persistenceWrite fault write).1.pendingChanges = [] := by
  obtain ⟨error, heq⟩ | heq | ⟨-, db, -, heq⟩ := persistenceWrite_cases fault write b
  · rw [heq] at h
    cases h
  · rw [heq] at h
    cases h
  · rw [heq]

theorem row_saveChanges {b : Coordinator} (h : ∀ c ∈ b.pendingChanges, Database.Storable c)
    (db : Database) (e : Entity) (j : String) :
    (db.saveChanges b.pendingChanges).row e j =
      (lastChange b.pendingChanges e j).getD (db.row e j) := by
  rw [Database.saveChanges, Database.row_applyStoredRelayMutations h, if_neg List.not_mem_nil]

/-- **The append covers the skipped changes**: the one-row append of a message has the effect on
`relay_mls_messages` that writing the pending backlog changes would have had. -/
def AppendCovers (roomKey : RoomKey) (message : MlsRelayMessage) (prunedIds : List String)
    (b : Coordinator) : Prop :=
  ∀ k, (b.db.appendMlsBacklogRow roomKey message prunedIds).row .mlsBacklog k =
    (lastChange b.pendingChanges .mlsBacklog k).getD (b.db.row .mlsBacklog k)

theorem mlsMessagesOf_appendMlsBacklogRow_of_ne {db : Database} {roomKey k : RoomKey}
    (message : MlsRelayMessage) (prunedIds : List String) (hk : k ≠ roomKey) :
    (db.appendMlsBacklogRow roomKey message prunedIds).mlsMessagesOf k = db.mlsMessagesOf k := by
  rw [Database.mlsMessagesOf, Database.mlsMessagesOf, RankedLog.listing, RankedLog.listing,
    Database.appendMlsBacklogRow, RankedLog.rows_append_of_ne _ _ hk,
    RankedLog.rows_deleteIds_of_ne _ hk]

/-- An append covers what it skips when it does so in its own room and nothing that waits for
another room differs from that room's rows. -/
theorem appendCovers_of {b : Coordinator} {roomKey : RoomKey} {message : MlsRelayMessage}
    {prunedIds : List String}
    (hown : (b.db.appendMlsBacklogRow roomKey message prunedIds).row .mlsBacklog roomKey =
      (lastChange b.pendingChanges .mlsBacklog roomKey).getD (b.db.row .mlsBacklog roomKey))
    (hothers : ∀ k v, k ≠ roomKey → lastChange b.pendingChanges .mlsBacklog k = some v →
      b.db.row .mlsBacklog k = v) : AppendCovers roomKey message prunedIds b := by
  intro k
  by_cases hk : k = roomKey
  · rw [hk]
    exact hown
  · rw [Database.row, mlsMessagesOf_appendMlsBacklogRow_of_ne _ _ hk]
    cases hlast : lastChange b.pendingChanges .mlsBacklog k with
    | none => rfl
    | some v => exact hothers k v hk hlast

theorem row_saveMlsMessage {b : Coordinator} (h : ∀ c ∈ b.pendingChanges, Database.Storable c)
    {roomKey : RoomKey} {message : MlsRelayMessage} {prunedIds : List String}
    (hcovers : E .mlsBacklog → AppendCovers roomKey message prunedIds b)
    {db : Database} (hdb : ∀ e j, db.row e j = b.db.row e j)
    (hmessages : db.mlsMessages = b.db.mlsMessages) (e : Entity) (j : String) (he : E e) :
    (db.saveMlsMessage roomKey message prunedIds b.pendingChanges).row e j =
      (lastChange b.pendingChanges e j).getD (b.db.row e j) := by
  rw [Database.saveMlsMessage, Database.row_applyStoredRelayMutations h]
  by_cases hb : e = .mlsBacklog
  · subst hb
    rw [if_pos (List.mem_singleton.mpr rfl), ← hcovers he j]
    simp only [Database.row, Database.mlsMessagesOf, Database.appendMlsBacklogRow, hmessages]
  · rw [if_neg fun hmem ↦ hb (List.mem_singleton.mp hmem), ← hdb, Database.row_of_ne hb,
      Database.row_of_ne hb]
    rfl

theorem row_advanceRoomEpoch {db db' : Database} {roomKey : RoomKey} {epochHint : ℕ}
    (h : db.advanceRoomEpoch roomKey epochHint = some db') :
    (∀ e j, db'.row e j = db.row e j) ∧ db'.mlsMessages = db.mlsMessages := by
  simp only [Database.advanceRoomEpoch] at h
  split_ifs at h <;> exact Option.some.inj h ▸ ⟨Database.row_congr rfl rfl, rfl⟩

/-! ### Saves -/

/-- A drain followed by a unit of work, which is what every save is. -/
theorem Mirrors.save {b b' : Coordinator} (h : b.Mirrors c E encodedAt) {now : Instant}
    {fault : WriteFault} {write : Database → Option Database}
    (hb : b' = ((b.collectPendingChanges c now).persistenceWrite fault write).1)
    (hwrite : ((b.collectPendingChanges c now).persistenceWrite fault write).2 = none →
      ∀ db, write b.db = some db → ∀ e j, E e → db.row e j =
        (lastChange (b.collectPendingChanges c now).pendingChanges e j).getD (b.db.row e j)) :
    b'.Mirrors c E (drainedAt now b.store b'.store encodedAt) := by
  have hstore : b'.store = (b.collectPendingChanges c now).store := by
    rw [hb, store_persistenceWrite]
  rw [hstore, hb]
  exact (h.collectPendingChanges now).persistenceWrite hwrite

theorem Mirrors.savePendingChanges {b : Coordinator} (h : b.Mirrors c E encodedAt) (now : Instant)
    (fault : WriteFault) :
    (b.savePendingChanges c now fault).1.Mirrors c E
      (drainedAt now b.store (b.savePendingChanges c now fault).1.store encodedAt) := by
  unfold Coordinator.savePendingChanges
  by_cases hhealthy : b.isHealthy = true
  · simp only [hhealthy, Bool.not_true, Bool.false_eq_true, if_false]
    split_ifs with hempty
    · exact h.collectPendingChanges now
    · refine h.save rfl fun _ db hdb e j _ ↦ ?_
      rw [← Option.some.inj hdb]
      exact row_saveChanges (h.collectPendingChanges now).storable b.db e j
  · rw [Bool.not_eq_true] at hhealthy
    simp only [hhealthy, Bool.not_false, if_true]
    rw [drainedAt_of_subset (List.Subset.refl _)]
    exact h

theorem Mirrors.saveKeyPackages {b : Coordinator} (h : b.Mirrors c E encodedAt) (now : Instant)
    (fault : WriteFault) :
    (b.saveKeyPackages c now fault).1.Mirrors c E
      (drainedAt now b.store (b.saveKeyPackages c now fault).1.store encodedAt) := by
  refine h.save rfl fun _ db hdb e j _ ↦ ?_
  rw [← Option.some.inj hdb]
  exact row_saveChanges (h.collectPendingChanges now).storable b.db e j

theorem Mirrors.saveMlsMessage {b : Coordinator} (h : b.Mirrors c E encodedAt) (now : Instant)
    (fault : WriteFault) {roomKey : RoomKey} {message : MlsRelayMessage} {prunedIds : List String}
    (hcovers : (b.saveMlsMessage c now fault roomKey message prunedIds).2 = none → E .mlsBacklog →
      AppendCovers roomKey message prunedIds (b.collectPendingChanges c now)) :
    (b.saveMlsMessage c now fault roomKey message prunedIds).1.Mirrors c E (drainedAt now b.store
      (b.saveMlsMessage c now fault roomKey message prunedIds).1.store encodedAt) := by
  refine h.save rfl fun hreturned db hdb e j he ↦ ?_
  rw [← Option.some.inj hdb]
  exact row_saveMlsMessage (h.collectPendingChanges now).storable (hcovers hreturned)
    (fun _ _ ↦ rfl) rfl e j he

theorem Mirrors.saveMlsCommit {b : Coordinator} (h : b.Mirrors c E encodedAt) (now : Instant)
    (fault : WriteFault) {roomKey : RoomKey} {message : MlsRelayMessage} {prunedIds : List String}
    (hcovers : (b.saveMlsCommit c now fault roomKey message prunedIds).2 = none → E .mlsBacklog →
      AppendCovers roomKey message prunedIds (b.collectPendingChanges c now)) :
    (b.saveMlsCommit c now fault roomKey message prunedIds).1.Mirrors c E (drainedAt now b.store
      (b.saveMlsCommit c now fault roomKey message prunedIds).1.store encodedAt) := by
  refine h.save rfl fun hreturned db hdb e j he ↦ ?_
  split_ifs at hdb with hconflict
  obtain ⟨db₁, hadvance, rfl⟩ := Option.map_eq_some_iff.mp hdb
  obtain ⟨hrow, hmessages⟩ := row_advanceRoomEpoch hadvance
  exact row_saveMlsMessage (h.collectPendingChanges now).storable (hcovers hreturned) hrow
    hmessages e j he

end Coordinator

/-! ### Runs of mutations and saves -/

/-- A tracked mutation, the clock, or one of the five saves. -/
inductive SaveOp
  | set (e : Entity) (k : String) (v : e.Value)
  | delete (e : Entity) (k : String)
  | clear (e : Entity)
  | tick (now : Instant)
  | scheduleStoreSave (fault : WriteFault)
  | saveRelayStore (fault : WriteFault)
  | saveKeyPackages (fault : WriteFault)
  | saveMlsMessage (roomKey : RoomKey) (message : MlsRelayMessage) (prunedIds : List String)
      (fault : WriteFault)
  | saveMlsCommit (roomKey : RoomKey) (message : MlsRelayMessage) (prunedIds : List String)
      (fault : WriteFault)

/-- A coordinator under a clock. `encodedAt` is not part of the program: it remembers when the last
report of each key was drained. -/
structure SaveState where
  now : Instant
  coordinator : Coordinator
  encodedAt : Entity → String → Instant

namespace SaveOp

/-- What an operation does to the coordinator, and what it throws. -/
def apply (c : RelayConfig) (now : Instant) (b : Coordinator) : SaveOp → Coordinator × Option SaveError
  | .set e k v => ({ b with store := b.store.set e k v }, none)
  | .delete e k => ({ b with store := b.store.delete e k }, none)
  | .clear e => ({ b with store := b.store.clear e }, none)
  | .tick _ => (b, none)
  | .scheduleStoreSave fault => b.savePendingChanges c now fault
  | .saveRelayStore fault => b.savePendingChanges c now fault
  | .saveKeyPackages fault => b.saveKeyPackages c now fault
  | .saveMlsMessage k m prunedIds fault => b.saveMlsMessage c now fault k m prunedIds
  | .saveMlsCommit k m prunedIds fault => b.saveMlsCommit c now fault k m prunedIds

/-- Whether an operation is a save. -/
def isSave : SaveOp → Bool
  | .set .. | .delete .. | .clear .. | .tick .. => false
  | _ => true

/-- A mutation that keeps the store representable. -/
@[grind =] def WellFormed : SaveOp → Prop
  | .set .acceptedMessageReceipts k _ => '\x00' ∈ k.toList
  | .set .mlsBacklog _ messages => (messages.map (·.id)).Nodup
  | _ => True

/-- A one-row append that returns covers the backlog changes that it skips. -/
def Covered (c : RelayConfig) (s : SaveState) (op : SaveOp) : Prop :=
  match op with
  | .saveMlsMessage k m prunedIds _ | .saveMlsCommit k m prunedIds _ =>
    (op.apply c s.now s.coordinator).2 = none →
      Coordinator.AppendCovers k m prunedIds (s.coordinator.collectPendingChanges c s.now)
  | _ => True

end SaveOp

/-- One operation. The event is what the operation throws, `none` when it returns. -/
def saveStep (c : RelayConfig) (s : SaveState) (op : SaveOp) :
    SaveState × List (Option SaveError) :=
  let result := op.apply c s.now s.coordinator
  ({ now := match op with | .tick now => now | _ => s.now
     coordinator := result.1
     encodedAt := Coordinator.drainedAt s.now s.coordinator.store result.1.store s.encodedAt },
    [result.2])

namespace SaveState

/-- **A table is the encoding of its collection**: its rows are exactly the encodings of the
collection's keys, each at the time at which the key was last drained. -/
def TableMirrors (c : RelayConfig) (s : SaveState) (e : Entity) : Prop :=
  ∀ j v, s.coordinator.db.row e j = some v ↔
    ∃ k, IsKey e k ∧ persistedKey e k = j ∧
      encodeValue c (s.encodedAt e k) s.coordinator.store.toRecords e k = some v

/-- Nothing is waiting and every table is the encoding of its collection, as after a load. -/
structure Synced (c : RelayConfig) (s : SaveState) : Prop where
  representable : s.coordinator.store.Representable
  drained : s.coordinator.store.durableMutations = []
  written : s.coordinator.pendingChanges = []
  mirrors : ∀ e, s.TableMirrors c e

theorem Synced.toMirrors {c : RelayConfig} {s : SaveState} (h : s.Synced c) (E : Entity → Prop) :
    s.coordinator.Mirrors c E s.encodedAt where
  representable := h.representable
  storable := by
    rw [h.written]
    intro change hchange
    cases hchange
  current := by
    intro e k _ hk _
    rw [h.written]
    change s.coordinator.db.row e (persistedKey e k) = _
    refine Option.ext fun v ↦ ?_
    rw [h.mirrors e]
    constructor
    · rintro ⟨k', hk', hkey, hv⟩
      rwa [persistedKey_inj hk' hk hkey] at hv
    · intro hv
      exact ⟨k, hk, rfl, hv⟩
  rowKeys := by
    intro e j v _ hv
    rw [h.written] at hv
    obtain ⟨k, hk, hkey, -⟩ := (h.mirrors e j v).mp hv
    exact ⟨k, hk, hkey⟩

/-- With nothing waiting, the mirror is an equality of tables. -/
theorem tableMirrors_of_mirrors {c : RelayConfig} {s : SaveState} {E : Entity → Prop} {e : Entity}
    (h : s.coordinator.Mirrors c E s.encodedAt) (he : E e)
    (hdrained : s.coordinator.store.durableMutations = [])
    (hwritten : s.coordinator.pendingChanges = []) : s.TableMirrors c e := by
  have hrow : ∀ k, IsKey e k → s.coordinator.db.row e (persistedKey e k) =
      encodeValue c (s.encodedAt e k) s.coordinator.store.toRecords e k := by
    intro k hk
    have hcurrent := h.current e k he hk (by rw [hdrained]; exact List.not_mem_nil)
    rwa [hwritten] at hcurrent
  intro j v
  constructor
  · intro hv
    obtain ⟨k, hk, rfl⟩ := h.rowKeys e j v he (by rw [hwritten]; exact hv)
    exact ⟨k, hk, rfl, by rw [← hrow k hk, hv]⟩
  · rintro ⟨k, hk, rfl, hv⟩
    rw [hrow k hk, hv]

end SaveState

/-! ### What one operation keeps, and what a run keeps -/

/-- **One operation keeps the mirror.** -/
theorem mirrors_saveStep {c : RelayConfig} {E : Entity → Prop} {s : SaveState} {op : SaveOp}
    (h : s.coordinator.Mirrors c E s.encodedAt) (hop : op.WellFormed)
    (hcovered : E .mlsBacklog → op.Covered c s) :
    (saveStep c s op).1.coordinator.Mirrors c E (saveStep c s op).1.encodedAt := by
  have hmutation : ∀ {store : RelayStore}, RelayStore.Tracks s.coordinator.store store →
      store.Representable → ({ s.coordinator with store := store } : Coordinator).Mirrors c E
        (Coordinator.drainedAt s.now s.coordinator.store store s.encodedAt) := by
    intro store htracks hstore
    rw [Coordinator.drainedAt_of_subset htracks.subset]
    exact h.of_tracks htracks hstore
  cases op with
  | set e k v =>
    refine hmutation (RelayStore.tracks_set _ e k v) (h.representable.set ?_ ?_)
    · rintro rfl
      exact hop
    · cases e <;> first | exact hop | trivial
  | delete e k => exact hmutation (RelayStore.tracks_delete _ e k) (h.representable.delete e k)
  | clear e => exact hmutation (RelayStore.tracks_clear _ e) (h.representable.clear e)
  | tick now => exact hmutation (RelayStore.Tracks.refl _) h.representable
  | scheduleStoreSave fault => exact h.savePendingChanges s.now fault
  | saveRelayStore fault => exact h.savePendingChanges s.now fault
  | saveKeyPackages fault => exact h.saveKeyPackages s.now fault
  | saveMlsMessage k m prunedIds fault =>
    exact h.saveMlsMessage s.now fault fun hreturned hE ↦ hcovered hE hreturned
  | saveMlsCommit k m prunedIds fault =>
    exact h.saveMlsCommit s.now fault fun hreturned hE ↦ hcovered hE hreturned

/-- A unit of work that returns leaves nothing waiting. -/
theorem drained_of_persistenceWrite {c : RelayConfig} {now : Instant} {b : Coordinator}
    {fault : WriteFault} {write : Database → Option Database}
    (h : ((b.collectPendingChanges c now).persistenceWrite fault write).2 = none) :
    ((b.collectPendingChanges c now).persistenceWrite fault write).1.store.durableMutations = [] ∧
      ((b.collectPendingChanges c now).persistenceWrite fault write).1.pendingChanges = [] := by
  rw [Coordinator.store_persistenceWrite]
  exact ⟨rfl, Coordinator.pendingChanges_of_persistenceWrite h⟩

theorem drained_of_savePendingChanges {c : RelayConfig} {now : Instant} {b : Coordinator}
    {fault : WriteFault} (h : (b.savePendingChanges c now fault).2 = none) :
    (b.savePendingChanges c now fault).1.store.durableMutations = [] ∧
      (b.savePendingChanges c now fault).1.pendingChanges = [] := by
  unfold Coordinator.savePendingChanges at h ⊢
  cases hhealthy : b.isHealthy with
  | false => simp [hhealthy] at h
  | true =>
    simp only [hhealthy, Bool.not_true, Bool.false_eq_true, if_false] at h ⊢
    split_ifs at h ⊢ with hempty
    · exact ⟨rfl, List.isEmpty_iff.mp hempty⟩
    · exact drained_of_persistenceWrite h

/-- A save that returns leaves nothing waiting. -/
theorem drained_of_returned {c : RelayConfig} {now : Instant} {b : Coordinator} {op : SaveOp}
    (hsave : op.isSave = true) (h : (op.apply c now b).2 = none) :
    (op.apply c now b).1.store.durableMutations = [] ∧ (op.apply c now b).1.pendingChanges = [] := by
  cases op with
  | set e k v => cases hsave
  | delete e k => cases hsave
  | clear e => cases hsave
  | tick now => cases hsave
  | scheduleStoreSave fault => exact drained_of_savePendingChanges h
  | saveRelayStore fault => exact drained_of_savePendingChanges h
  | saveKeyPackages fault => exact drained_of_persistenceWrite h
  | saveMlsMessage k m prunedIds fault => exact drained_of_persistenceWrite h
  | saveMlsCommit k m prunedIds fault => exact drained_of_persistenceWrite h

/-- The mirror along a whole run, for the entities of `E`. -/
theorem mirrors_run {c : RelayConfig} {E : Entity → Prop} {s : SaveState} {ops : List SaveOp}
    (h : s.coordinator.Mirrors c E s.encodedAt) (hops : ∀ op ∈ ops, op.WellFormed)
    (hcovered : E .mlsBacklog → Machine.Along (saveStep c) (fun s op ↦ op.Covered c s) s ops) :
    (Machine.run (saveStep c) s ops).1.coordinator.Mirrors c E
      (Machine.run (saveStep c) s ops).1.encodedAt := by
  induction ops generalizing s with
  | nil => exact h
  | cons op ops ih =>
    have hstep := mirrors_saveStep h (hops op List.mem_cons_self) fun hE ↦ (hcovered hE).1
    exact ih hstep (fun op hop ↦ hops op (List.mem_cons_of_mem _ hop)) fun hE ↦ (hcovered hE).2

/-- **Write-through.** After every save that returns, every table is the encoding of its
collection; for the backlogs this takes that every one-row append so far has covered the backlog
changes that it skipped. -/
theorem save_mirrors_tables {c : RelayConfig} {s : SaveState} (h : s.Synced c)
    {ops : List SaveOp} {op : SaveOp} (hops : ∀ o ∈ ops ++ [op], o.WellFormed)
    (hsave : op.isSave = true)
    (hreturned : (op.apply c (Machine.run (saveStep c) s ops).1.now
      (Machine.run (saveStep c) s ops).1.coordinator).2 = none) :
    (∀ e, e ≠ .mlsBacklog → (Machine.run (saveStep c) s (ops ++ [op])).1.TableMirrors c e) ∧
    (Machine.Along (saveStep c) (fun s op ↦ op.Covered c s) s (ops ++ [op]) →
      (Machine.run (saveStep c) s (ops ++ [op])).1.TableMirrors c .mlsBacklog) := by
  have hdone := drained_of_returned hsave hreturned
  have hfinal : (Machine.run (saveStep c) s (ops ++ [op])).1.coordinator =
      (op.apply c (Machine.run (saveStep c) s ops).1.now
        (Machine.run (saveStep c) s ops).1.coordinator).1 := by
    rw [Machine.run_append, Machine.run_singleton]
    rfl
  rw [← hfinal] at hdone
  constructor
  · intro e he
    have hmirrors := mirrors_run (h.toMirrors (· ≠ .mlsBacklog)) hops fun hb ↦ absurd rfl hb
    exact SaveState.tableMirrors_of_mirrors hmirrors he hdone.1 hdone.2
  · intro hcovered
    have hmirrors := mirrors_run (h.toMirrors fun _ ↦ True) hops fun _ ↦ hcovered
    exact SaveState.tableMirrors_of_mirrors hmirrors trivial hdone.1 hdone.2

/-! ### An append that does not cover what it skips -/

/-- The coordinator of an empty store over an empty database, at a given time. -/
def SaveState.empty (now : Instant) : SaveState := ⟨now, {}, fun _ _ ↦ now⟩

theorem SaveState.synced_empty (c : RelayConfig) (now : Instant) : (empty now).Synced c where
  representable := by
    refine ⟨?_, ?_, ?_⟩
    · intro e k v hv
      cases e <;> cases hv
    · intro m hm
      cases hm
    · intro e k v hv
      cases e <;> cases hv
  drained := rfl
  written := rfl
  mirrors := by
    have hencode : ∀ e k t, encodeValue c t (empty now).coordinator.store.toRecords e k = none := by
      intro e k t
      cases e <;> first | rfl | simp [encodeValue, empty, storedBacklogValue, pruneMlsBacklog,
        sliceLast, StoredBacklog.ofMessages]
    intro e j v
    constructor
    · intro hv
      cases e <;> cases hv
    · rintro ⟨k, -, -, hv⟩
      rw [hencode] at hv
      cases hv

/-- An application message of the room `room-1` of the team `team-1`. -/
def sampleMessage : MlsRelayMessage where
  id := "message-1"
  teamId := "team-1"
  roomId := "room-1"
  senderDeviceId := "device-1"
  senderUserId := "user-1"
  createdAt := "2026-01-01T00:00:00.000Z"
  messageType := .application
  epochHint := 0
  mlsMessage := "AAAA"

/-- The time at which `sampleMessage` was written. -/
def sampleNow : Instant := 1767225600000

theorem utf8Length_stringify_sampleMessage : Text.utf8Length sampleMessage.stringify = 207 :=
  (Text.utf8Length_ofList _).trans (by decide +kernel)

theorem pruneMlsBacklog_sampleMessage :
    pruneMlsBacklog {} sampleNow [sampleMessage] = [sampleMessage] := by
  have hretained : RelayConfig.isRetained {} sampleNow sampleMessage = true := by decide
  have hwithin : isMlsMessageWithinLimits {} sampleMessage = true :=
    isMlsMessageWithinLimits_of_length utf8Length_stringify_sampleMessage (by decide)
      (by decide)
  unfold pruneMlsBacklog
  rw [List.filter_cons, hretained, hwithin]
  rfl

/-- A backlog change of one room that waits while a message of another room is appended is
acknowledged without having been written. -/
theorem skipped_backlog_change_is_lost :
    ¬∀ (c : RelayConfig) (s : SaveState) (ops : List SaveOp) (op : SaveOp), s.Synced c →
      (∀ o ∈ ops ++ [op], o.WellFormed) → op.isSave = true →
      (op.apply c (Machine.run (saveStep c) s ops).1.now
        (Machine.run (saveStep c) s ops).1.coordinator).2 = none →
      ∀ e, (Machine.run (saveStep c) s (ops ++ [op])).1.TableMirrors c e := by
  intro h
  have hmirrors := h {} (.empty sampleNow) [.set .mlsBacklog "team-1:room-1" [sampleMessage]]
    (.saveMlsMessage "team-1:room-2" { sampleMessage with roomId := "room-2" } [] .none)
    (SaveState.synced_empty _ _) (by simp [SaveOp.WellFormed]) rfl (by decide) .mlsBacklog
  have hrow := (hmirrors "team-1:room-1" ⟨"team-1:room-1", [sampleMessage]⟩).mpr
    ⟨"team-1:room-1", nofun, rfl, by decide +kernel⟩
  exact absurd hrow (by decide)

theorem save_mirrors_tables_sample :
    (Machine.run (saveStep {}) (.empty sampleNow)
      ([.set .mlsBacklog "team-1:room-1" [sampleMessage]] ++
        [.saveMlsMessage "team-1:room-1" sampleMessage [] .none])).1.TableMirrors {} .mlsBacklog := by
  refine (save_mirrors_tables (SaveState.synced_empty _ _) (by simp [SaveOp.WellFormed]) rfl
    (by decide)).2 ⟨trivial, fun _ ↦ ?_, trivial⟩
  refine Coordinator.appendCovers_of (by decide +kernel) fun k v hk hlast ↦ absurd ?_ hk
  have hmem := lastChange_eq_some hlast
  rcases List.mem_append.mp (mem_of_mem_latestChanges hmem) with hmem | hmem
  · cases hmem
  · obtain ⟨m, hm, hencode⟩ := Coordinator.mem_drain.mp hmem
    rw [List.mem_singleton.mp hm] at hencode
    exact ((StoredRelayMutation.mk.inj hencode).2.1).symm

end MultAIplayer
