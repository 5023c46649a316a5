import MultAIplayer.Lib.RankedLog
import MultAIplayer.Relay.StoreMutations
import Mathlib.Data.String.Basic

/-!
# The SQLite tables

The relay's database and the units of work that `sqlite-persistence.ts` and
`sqlite-state-repository.ts` run on it. A unit of work is one SQLite transaction: it is a function
from the database to the database, or it fails and there is no new database.

## Rows hold values

A row's `data_json` is the JSON text of the value that was stored, and reading it back is parsing
that text; the model keeps the value itself. Every durable collection has a table of its own, except
that backlogs are kept message by message in `relay_mls_messages`, and that the accepted epochs of
rooms are repeated in `relay_room_epochs`, which decides between competing Commits.

`Database.row` reads every entity in the same way; for a backlog it collects the room's rows.
-/

namespace MultAIplayer

/-- The tables of the relay's database. -/
structure Database where
  /-- `relay_meta.version`. -/
  version : Option String := none
  /-- One table for each entity; backlogs are in `mlsMessages` instead. -/
  tables : (e : Entity) → InsertionMap String e.Stored := fun _ ↦ .empty
  /-- `relay_mls_messages`: rows by room key and message id, ranked by `sort_order`. -/
  mlsMessages : RankedLog RoomKey String MlsRelayMessage := .empty
  /-- `relay_room_epochs`. -/
  roomEpochs : InsertionMap RoomKey ℕ := .empty

namespace Database

/-! ### Reading -/

/-- The messages stored for a room, in `sort_order`. -/
@[grind =] def mlsMessagesOf (db : Database) (roomKey : RoomKey) : List MlsRelayMessage :=
  RankedLog.listing db.mlsMessages roomKey

/-- What the database holds for a stored key. -/
@[grind =] def row (db : Database) : (e : Entity) → String → Option e.Stored
  | .mlsBacklog, k => StoredBacklog.ofMessages k (db.mlsMessagesOf k)
  | .authSessions, k => (db.tables .authSessions).get k
  | .accountRestrictions, k => (db.tables .accountRestrictions).get k
  | .accountQuotaRecords, k => (db.tables .accountQuotaRecords).get k
  | .teams, k => (db.tables .teams).get k
  | .rooms, k => (db.tables .rooms).get k
  | .invites, k => (db.tables .invites).get k
  | .inviteRequests, k => (db.tables .inviteRequests).get k
  | .inviteResponses, k => (db.tables .inviteResponses).get k
  | .inviteAckReceipts, k => (db.tables .inviteAckReceipts).get k
  | .acceptedMessageReceipts, k => (db.tables .acceptedMessageReceipts).get k
  | .devices, k => (db.tables .devices).get k
  | .keyPackages, k => (db.tables .keyPackages).get k
  | .consumedKeyPackages, k => (db.tables .consumedKeyPackages).get k
  | .attachmentBlobs, k => (db.tables .attachmentBlobs).get k
  | .teamMembers, k => (db.tables .teamMembers).get k

theorem row_of_ne {db : Database} {e : Entity} (h : e ≠ .mlsBacklog) (k : String) :
    db.row e k = (db.tables e).get k := by
  cases e <;> first | rfl | exact absurd rfl h

/-! ### Writing one change -/

/-- `delete from t where key = ?`, or the upsert of a value. -/
def writeRow (db : Database) (e : Entity) (k : String) (v : Option e.Stored) : Database :=
  { db with tables := Function.update db.tables e <|
      match v with
      | none => (db.tables e).delete k
      | some v => (db.tables e).set k v }

/-- `saveMlsBacklogRowsInTransaction`. -/
@[grind =]
def saveMlsBacklogRows (db : Database) (roomKey : RoomKey) (messages : List MlsRelayMessage) :
    Database :=
  { db with
    mlsMessages := RankedLog.rewrite db.mlsMessages roomKey (messages.map fun m ↦ (m.id, m)) }

/-- The epoch row that goes with the room row of a change. -/
@[grind =] def writeRoomEpoch (db : Database) (k : String) (v : Option RoomRecord) : Database :=
  match v with
  | some room =>
    { db with
      roomEpochs := db.roomEpochs.set (roomKey room.teamId k) (room.acceptedMlsEpoch.getD 0) }
  | none =>
    match (db.tables .rooms).get k with
    | some room => { db with roomEpochs := db.roomEpochs.delete (roomKey room.teamId k) }
    | none => db

/-- One change of `applyStoredRelayMutationsInTransaction`. -/
def applyChange (db : Database) : StoredRelayMutation → Database
  | ⟨.mlsBacklog, k, v⟩ => db.saveMlsBacklogRows k ((v.map StoredBacklog.messages).getD [])
  | ⟨.rooms, k, v⟩ => (db.writeRoomEpoch k v).writeRow .rooms k v
  | ⟨e, k, v⟩ => db.writeRow e k v

/-- `applyStoredRelayMutationsInTransaction`. -/
def applyStoredRelayMutations (db : Database) (changes : List StoredRelayMutation)
    (skippedEntities : List Entity) : Database :=
  (changes.filter fun c ↦ c.entity ∉ skippedEntities).foldl applyChange
    { db with version := some "1" }

/-- `appendMlsBacklogRow`. -/
@[grind =] def appendMlsBacklogRow (db : Database) (roomKey : RoomKey) (message : MlsRelayMessage)
    (prunedMessageIds : List String) : Database :=
  { db with
    mlsMessages := RankedLog.append (RankedLog.deleteIds db.mlsMessages roomKey prunedMessageIds)
      roomKey message.id message }

/-! ### Units of work -/

/-- `SqliteRelayPersistence.saveChanges`, for a batch that is not empty, and `saveKeyPackages`. -/
def saveChanges (db : Database) (changes : List StoredRelayMutation) : Database :=
  db.applyStoredRelayMutations changes []

/-- `SqliteRelayPersistence.saveMlsMessage`. -/
def saveMlsMessage (db : Database) (roomKey : RoomKey) (message : MlsRelayMessage)
    (prunedIds : List String) (changes : List StoredRelayMutation) : Database :=
  (db.appendMlsBacklogRow roomKey message prunedIds).applyStoredRelayMutations changes [.mlsBacklog]

/-- The compare-and-set of `saveMlsCommit` on `relay_room_epochs`; `none` is
`RelayStaleEpochError`. -/
def advanceRoomEpoch (db : Database) (roomKey : RoomKey) (epochHint : ℕ) : Option Database :=
  let roomEpochs :=
    if db.roomEpochs.has roomKey then db.roomEpochs else db.roomEpochs.set roomKey epochHint
  if roomEpochs.get roomKey = some epochHint then
    some { db with roomEpochs := roomEpochs.set roomKey (epochHint + 1) }
  else none

/-- `SqliteRelayPersistence.saveMlsCommit`. -/
def saveMlsCommit (db : Database) (roomKey : RoomKey) (message : MlsRelayMessage)
    (prunedIds : List String) (changes : List StoredRelayMutation) : Option Database :=
  (db.advanceRoomEpoch roomKey message.epochHint).map fun db ↦
    db.saveMlsMessage roomKey message prunedIds changes

/-! ### What a batch of changes does to the rows -/

/-- A change that the tables can represent: a stored backlog has its own key, is not empty and
repeats no message id. -/
def Storable : StoredRelayMutation → Prop
  | ⟨.mlsBacklog, k, some b⟩ => b.key = k ∧ b.messages ≠ [] ∧ (b.messages.map (·.id)).Nodup
  | _ => True

@[simp] theorem mlsMessages_writeRow (db : Database) (e : Entity) (k : String)
    (v : Option e.Stored) : (db.writeRow e k v).mlsMessages = db.mlsMessages := rfl

@[simp] theorem mlsMessages_writeRoomEpoch (db : Database) (k : String) (v : Option RoomRecord) :
    (db.writeRoomEpoch k v).mlsMessages = db.mlsMessages := by
  unfold writeRoomEpoch
  split
  · rfl
  · split <;> rfl

@[simp] theorem tables_writeRoomEpoch (db : Database) (k : String) (v : Option RoomRecord) :
    (db.writeRoomEpoch k v).tables = db.tables := by
  unfold writeRoomEpoch
  split
  · rfl
  · split <;> rfl

theorem row_congr {db db' : Database} (htables : db'.tables = db.tables)
    (hmessages : db'.mlsMessages = db.mlsMessages) (e : Entity) (k : String) :
    db'.row e k = db.row e k := by
  cases e <;> simp only [row, mlsMessagesOf, htables, hmessages]

theorem row_writeRow {db : Database} {e : Entity} (he : e ≠ .mlsBacklog) (k : String)
    (v : Option e.Stored) (f : Entity) (j : String) :
    (db.writeRow e k v).row f j = ((⟨e, k, v⟩ : StoredRelayMutation).valueAt f j).getD (db.row f j) := by
  by_cases hf : f = .mlsBacklog
  · subst hf
    rw [StoredRelayMutation.valueAt_eq_none_of_ne fun h ↦ he h.1]
    rfl
  · rw [row_of_ne hf, row_of_ne hf]
    by_cases hfe : f = e
    · subst hfe
      by_cases hj : j = k
      · subst hj
        rw [StoredRelayMutation.valueAt_self, Option.getD_some]
        cases v <;> simp [writeRow]
      · rw [StoredRelayMutation.valueAt_eq_none_of_ne fun h ↦ hj h.2.symm, Option.getD_none]
        cases v with
        | none => simp [writeRow, InsertionMap.get_delete_of_ne _ hj]
        | some v => simp [writeRow, InsertionMap.get_set_of_ne _ _ hj]
    · rw [StoredRelayMutation.valueAt_eq_none_of_ne fun h ↦ hfe h.1.symm, Option.getD_none]
      have hsame : (db.writeRow e k v).tables f = db.tables f := Function.update_of_ne hfe _ _
      rw [hsame]

theorem mlsMessagesOf_saveMlsBacklogRows {db : Database} {k : RoomKey} {l : List MlsRelayMessage}
    (hl : (l.map (·.id)).Nodup) : (db.saveMlsBacklogRows k l).mlsMessagesOf k = l := by
  rw [mlsMessagesOf, saveMlsBacklogRows, RankedLog.listing_rewrite]
  · simp [List.map_map, Function.comp_def]
  · simpa [List.map_map, Function.comp_def] using hl

theorem mlsMessagesOf_saveMlsBacklogRows_of_ne {db : Database} {j k : RoomKey}
    (l : List MlsRelayMessage) (h : j ≠ k) :
    (db.saveMlsBacklogRows k l).mlsMessagesOf j = db.mlsMessagesOf j := by
  rw [mlsMessagesOf, mlsMessagesOf, saveMlsBacklogRows, RankedLog.listing, RankedLog.listing,
    RankedLog.rows_rewrite_of_ne _ h]

/-- **One change writes one key**, and leaves every other row alone. -/
theorem row_applyChange {c : StoredRelayMutation} (hc : Storable c) (db : Database) (f : Entity)
    (j : String) : (db.applyChange c).row f j = (c.valueAt f j).getD (db.row f j) := by
  obtain ⟨e, k, v⟩ := c
  by_cases he : e = .mlsBacklog
  · subst he
    by_cases hf : f = .mlsBacklog
    · subst hf
      by_cases hj : j = k
      · subst hj
        rw [StoredRelayMutation.valueAt_self, Option.getD_some]
        cases v with
        | none =>
          have hempty : (db.saveMlsBacklogRows j []).mlsMessagesOf j = [] :=
            mlsMessagesOf_saveMlsBacklogRows List.nodup_nil
          simp [applyChange, row, hempty, StoredBacklog.ofMessages]
        | some b =>
          obtain ⟨rfl, hne, hids⟩ := hc
          obtain ⟨k, messages⟩ := b
          have hrows : (db.saveMlsBacklogRows k messages).mlsMessagesOf k = messages :=
            mlsMessagesOf_saveMlsBacklogRows hids
          simp only [applyChange, row, Option.map_some, Option.getD_some, hrows]
          cases messages with
          | nil => exact absurd rfl hne
          | cons m l => rfl
      · rw [StoredRelayMutation.valueAt_eq_none_of_ne fun h ↦ hj h.2.symm, Option.getD_none]
        simp only [applyChange, row, mlsMessagesOf_saveMlsBacklogRows_of_ne _ hj]
    · rw [StoredRelayMutation.valueAt_eq_none_of_ne fun h ↦ hf h.1.symm, Option.getD_none,
        row_of_ne hf, row_of_ne hf]
      rfl
  · by_cases hr : e = .rooms
    · subst hr
      have hrow := row_congr (tables_writeRoomEpoch db k v) (mlsMessages_writeRoomEpoch db k v) f j
      rw [← hrow]
      exact row_writeRow he k v f j
    · have happly : db.applyChange ⟨e, k, v⟩ = db.writeRow e k v := by
        cases e <;> first | rfl | exact absurd rfl he | exact absurd rfl hr
      rw [happly]
      exact row_writeRow he k v f j

theorem row_foldl_applyChange {l : List StoredRelayMutation} (hl : ∀ c ∈ l, Storable c)
    (db : Database) (e : Entity) (k : String) :
    (l.foldl applyChange db).row e k =
      (StoredRelayMutation.lastChange l e k).getD (db.row e k) := by
  induction l generalizing db with
  | nil => rfl
  | cons c l ih =>
    have hrest := ih (fun c hc ↦ hl c (List.mem_cons_of_mem _ hc)) (db.applyChange c)
    rw [List.foldl_cons, hrest, row_applyChange (hl c List.mem_cons_self),
      ← List.singleton_append, StoredRelayMutation.lastChange_append]
    cases StoredRelayMutation.lastChange l e k with
    | some v => rfl
    | none =>
      cases h : c.valueAt e k <;> simp [StoredRelayMutation.lastChange, h]

/-- **A batch writes the last change of each key** that it does not skip. -/
theorem row_applyStoredRelayMutations {changes : List StoredRelayMutation}
    (hchanges : ∀ c ∈ changes, Storable c) (db : Database) (skippedEntities : List Entity)
    (e : Entity) (k : String) :
    (db.applyStoredRelayMutations changes skippedEntities).row e k =
      if e ∈ skippedEntities then db.row e k
      else (StoredRelayMutation.lastChange changes e k).getD (db.row e k) := by
  have hrow : ({ db with version := some "1" } : Database).row e k = db.row e k :=
    row_congr rfl rfl e k
  rw [applyStoredRelayMutations,
    row_foldl_applyChange fun c hc ↦ hchanges c (List.mem_filter.mp hc).1, hrow]
  split_ifs with he
  · have hnone : StoredRelayMutation.lastChange
        (changes.filter fun c ↦ c.entity ∉ skippedEntities) e k = none := by
      refine StoredRelayMutation.lastChange_eq_none_iff.mpr fun c hc h ↦ ?_
      have hskip := (List.mem_filter.mp hc).2
      rw [h.1] at hskip
      exact absurd he (by simpa using hskip)
    rw [hnone, Option.getD_none]
  · rw [StoredRelayMutation.lastChange_filter fun c hc ↦ by simpa [hc] using he]

end Database

end MultAIplayer
