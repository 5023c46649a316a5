import MultAIplayer.Relay.Sqlite

/-!
# The persistence coordinator

`store-persistence.ts`: the store's reported mutations are drained into a batch, the batch stays
pending until one SQLite unit of work returns, and a unit of work that fails unexpectedly poisons
the coordinator for good.

## One step

Every save runs to its end before anything else does: it returns a promise that is already
resolved, or it throws. A save is therefore a function of the coordinator, and what the environment
does to the unit of work (`WriteFault`) is an argument of it.

## Errors keep what was collected

A save that throws has still drained the store: the batch is pending and goes into the next unit of
work. Only the return of a unit of work empties it.
-/

namespace MultAIplayer

/-- What the environment does to a unit of work. A conflict is another process having advanced the
epoch row of the room first, so that only a Commit can meet it. -/
inductive WriteFault
  | none
  | conflict
  | failure
  deriving DecidableEq

/-- What a save throws: `RelayStaleEpochError` or `RelayPersistenceUnavailableError`. -/
inductive SaveError
  | staleEpoch
  | unavailable
  deriving DecidableEq

/-- The store, its coordinator and the database below them. -/
structure Coordinator where
  store : RelayStore := {}
  pendingChanges : List StoredRelayMutation := []
  isHealthy : Bool := true
  db : Database := {}

/-- The later changes of a batch replace the earlier ones of the same key, in place. -/
def latestChanges (l : List StoredRelayMutation) : List StoredRelayMutation :=
  ((InsertionMap.empty : InsertionMap (Entity × String) StoredRelayMutation).setAll
    (l.map fun c ↦ ((c.entity, c.key), c))).values

namespace Coordinator

/-! ### Saves -/

/-- `collectPendingChanges`. -/
def collectPendingChanges (c : RelayConfig) (now : Instant) (b : Coordinator) : Coordinator :=
  { b with
    store := (drain c now b.store).2
    pendingChanges := latestChanges (b.pendingChanges ++ (drain c now b.store).1) }

/-- `persistenceWrite`, followed by the acknowledgement of the batch when the write returns. -/
def persistenceWrite (fault : WriteFault) (write : Database → Option Database) (b : Coordinator) :
    Coordinator × Option SaveError :=
  if !b.isHealthy then (b, some .unavailable)
  else if fault = .failure then ({ b with isHealthy := false }, some .unavailable)
  else
    match write b.db with
    | none => (b, some .staleEpoch)
    | some db => ({ b with db := db, pendingChanges := [] }, none)

variable (c : RelayConfig) (now : Instant) (fault : WriteFault)

/-- `savePendingChanges`, which is `scheduleStoreSave` and `saveRelayStore`. -/
def savePendingChanges (b : Coordinator) : Coordinator × Option SaveError :=
  if !b.isHealthy then (b, some .unavailable)
  else
    let b := b.collectPendingChanges c now
    if b.pendingChanges.isEmpty then (b, none)
    else b.persistenceWrite fault fun db ↦ some (db.saveChanges b.pendingChanges)

/-- `saveKeyPackages`. -/
def saveKeyPackages (b : Coordinator) : Coordinator × Option SaveError :=
  let b := b.collectPendingChanges c now
  b.persistenceWrite fault fun db ↦ some (db.saveChanges b.pendingChanges)

/-- `saveMlsMessage`. -/
def saveMlsMessage (roomKey : RoomKey) (message : MlsRelayMessage) (prunedIds : List String)
    (b : Coordinator) : Coordinator × Option SaveError :=
  let b := b.collectPendingChanges c now
  b.persistenceWrite fault fun db ↦
    some (db.saveMlsMessage roomKey message prunedIds b.pendingChanges)

/-- `saveMlsCommit`. -/
def saveMlsCommit (roomKey : RoomKey) (message : MlsRelayMessage) (prunedIds : List String)
    (b : Coordinator) : Coordinator × Option SaveError :=
  let b := b.collectPendingChanges c now
  b.persistenceWrite fault fun db ↦
    if fault = .conflict then none
    else db.saveMlsCommit roomKey message prunedIds b.pendingChanges

/-! ### What a save leaves alone -/

/-- What `persistenceWrite` can do: nothing, poison, or one unit of work that empties the batch. -/
theorem persistenceWrite_cases (fault : WriteFault) (write : Database → Option Database)
    (b : Coordinator) :
    (∃ error, b.persistenceWrite fault write = (b, some error)) ∨
    b.persistenceWrite fault write = ({ b with isHealthy := false }, some .unavailable) ∨
    b.isHealthy = true ∧ ∃ db, write b.db = some db ∧
      b.persistenceWrite fault write = ({ b with db := db, pendingChanges := [] }, none) := by
  unfold persistenceWrite
  cases hhealthy : b.isHealthy with
  | false => exact .inl ⟨.unavailable, by simp⟩
  | true =>
    by_cases hfault : fault = .failure
    · exact .inr (.inl (by simp [hfault]))
    · cases hwrite : write b.db with
      | none => exact .inl ⟨.staleEpoch, by simp [hfault]⟩
      | some db => exact .inr (.inr ⟨rfl, db, rfl, by simp [hfault]⟩)

theorem store_persistenceWrite (fault : WriteFault) (write : Database → Option Database)
    (b : Coordinator) : (b.persistenceWrite fault write).1.store = b.store := by
  obtain ⟨error, heq⟩ | heq | ⟨-, db, -, heq⟩ := persistenceWrite_cases fault write b <;> rw [heq]

@[simp] theorem toRecords_collectPendingChanges (b : Coordinator) :
    (b.collectPendingChanges c now).store.toRecords = b.store.toRecords := rfl

/-- A save drains the reports and leaves the collections alone. -/
@[simp] theorem toRecords_savePendingChanges (b : Coordinator) :
    (b.savePendingChanges c now fault).1.store.toRecords = b.store.toRecords := by
  unfold savePendingChanges
  dsimp only
  split_ifs
  · rfl
  · rfl
  · rw [store_persistenceWrite, toRecords_collectPendingChanges]

@[simp] theorem toRecords_saveKeyPackages (b : Coordinator) :
    (b.saveKeyPackages c now fault).1.store.toRecords = b.store.toRecords := by
  rw [saveKeyPackages, store_persistenceWrite, toRecords_collectPendingChanges]

@[simp] theorem toRecords_saveMlsMessage (roomKey : RoomKey) (message : MlsRelayMessage)
    (prunedIds : List String) (b : Coordinator) :
    (b.saveMlsMessage c now fault roomKey message prunedIds).1.store.toRecords =
      b.store.toRecords := by
  rw [saveMlsMessage, store_persistenceWrite, toRecords_collectPendingChanges]

@[simp] theorem toRecords_saveMlsCommit (roomKey : RoomKey) (message : MlsRelayMessage)
    (prunedIds : List String) (b : Coordinator) :
    (b.saveMlsCommit c now fault roomKey message prunedIds).1.store.toRecords =
      b.store.toRecords := by
  rw [saveMlsCommit, store_persistenceWrite, toRecords_collectPendingChanges]

end Coordinator

/-! ### The last change of a key survives -/

open StoredRelayMutation in
theorem lookupEntry_changes (l : List StoredRelayMutation) (e : Entity) (k : String) :
    InsertionMap.lookupEntry (e, k) (l.map fun c ↦ ((c.entity, c.key), c)) =
      (l.findSome? (·.valueAt e k)).map (⟨e, k, ·⟩) := by
  induction l with
  | nil => rfl
  | cons c l ih =>
    by_cases h : c.entity = e ∧ c.key = k
    · obtain ⟨rfl, rfl⟩ := h
      simp [InsertionMap.lookupEntry, valueAt]
    · have hkey : ¬((c.entity, c.key) = (e, k)) := fun he ↦ h (Prod.mk.inj he)
      simp only [List.map_cons, InsertionMap.lookupEntry, hkey, if_false, ih, List.findSome?_cons,
        valueAt_eq_none_of_ne h]

namespace StoredRelayMutation

theorem lastChange_of_mem {l : List StoredRelayMutation} {e : Entity} {k : String}
    {v : Option e.Stored} (h : ⟨e, k, v⟩ ∈ l) (hunique : ∀ w, ⟨e, k, w⟩ ∈ l → w = v) :
    lastChange l e k = some v := by
  cases hlast : lastChange l e k with
  | none => exact absurd ⟨rfl, rfl⟩ (lastChange_eq_none_iff.mp hlast _ h)
  | some w => rw [hunique w (lastChange_eq_some hlast)]

theorem get_latestChanges (l : List StoredRelayMutation) (e : Entity) (k : String) :
    ((InsertionMap.empty : InsertionMap (Entity × String) StoredRelayMutation).setAll
      (l.map fun c ↦ ((c.entity, c.key), c))).get (e, k) = (lastChange l e k).map (⟨e, k, ·⟩) := by
  rw [InsertionMap.get_setAll_reverse, InsertionMap.get_empty, Option.or_none, ← List.map_reverse,
    lookupEntry_changes, lastChange]

theorem mem_latestChanges {l : List StoredRelayMutation} {e : Entity} {k : String}
    {v : Option e.Stored} : ⟨e, k, v⟩ ∈ latestChanges l ↔ lastChange l e k = some v := by
  rw [latestChanges, InsertionMap.mem_values_iff]
  constructor
  · rintro ⟨⟨e', k'⟩, h⟩
    rw [get_latestChanges] at h
    obtain ⟨w, hw, hc⟩ := Option.map_eq_some_iff.mp h
    injection hc with he hk hv
    subst he hk
    rw [hw, eq_of_heq hv]
  · intro h
    exact ⟨(e, k), by rw [get_latestChanges, h]; rfl⟩

/-- **Coalescing loses nothing**: the last change of a key is the same afterwards. -/
theorem lastChange_latestChanges (l : List StoredRelayMutation) (e : Entity) (k : String) :
    lastChange (latestChanges l) e k = lastChange l e k := by
  cases h : lastChange l e k with
  | none =>
    refine lastChange_eq_none_iff.mpr fun c hc hkey ↦ ?_
    obtain ⟨e', k', v⟩ := c
    obtain ⟨rfl, rfl⟩ := hkey
    rw [mem_latestChanges, h] at hc
    cases hc
  | some v =>
    refine lastChange_of_mem (mem_latestChanges.mpr h) fun w hw ↦ ?_
    rw [mem_latestChanges, h] at hw
    exact (Option.some.inj hw).symm

theorem mem_of_mem_latestChanges {l : List StoredRelayMutation} {c : StoredRelayMutation}
    (h : c ∈ latestChanges l) : c ∈ l :=
  lastChange_eq_some (mem_latestChanges.mp h)

end StoredRelayMutation

end MultAIplayer
