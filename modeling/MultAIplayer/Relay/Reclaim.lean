import MultAIplayer.Lib.Newest
import MultAIplayer.Relay.Publish

/-!
# Reclaiming durable capacity

`pruneExpiredState` of `store-codec.ts`, and the save that follows it in `reclaimDurableCapacity`
and `flushRelayStore`: what has expired leaves the store, and every backlog is pruned as a publish
would prune it.
-/

namespace MultAIplayer

/-- `capOldest`: the ids of the entries that a cap removes, oldest first. -/
def oldestBeyond {β : Type} (timestamp : β → Instant) (maximum : ℕ) (l : List (String × β)) :
    List String :=
  idsBeyond maximum (l.insertionSort fun a b ↦ timestamp a.2 ≤ timestamp b.2)

/-- An entry is capped when it is not among the newest of its list. -/
theorem mem_oldestBeyond {β : Type} {timestamp : β → Instant} {maximum : ℕ}
    {m : InsertionMap String β} {l : List (String × β)} (hl : l.Sublist m.entries) {id : String}
    {v : β} (hid : m.get id = some v) :
    id ∈ oldestBeyond timestamp maximum l ↔
      (id, v) ∈ l ∧ (id, v) ∉ l.newest (fun e ↦ (timestamp e.2 : ℤ)) maximum := by
  have hkeys : (l.map Prod.fst).Nodup := m.nodup_keys.sublist (hl.map _)
  have hmem : ∀ e ∈ l, e.1 = id → e = (id, v) := by
    rintro ⟨id', v'⟩ he rfl
    have hget := InsertionMap.mem_entries_iff.mp (hl.subset he)
    rw [hid] at hget
    rw [Option.some.inj hget]
  have htake : ∀ e, e ∈ (l.insertionSort fun a b ↦ timestamp a.2 ≤ timestamp b.2).take
      (l.length - maximum) → e ∈ l := fun e he ↦
    (List.mem_insertionSort _).mp (List.mem_of_mem_take he)
  rw [oldestBeyond, idsBeyond, List.length_insertionSort, List.mem_map]
  constructor
  · rintro ⟨e, he, heq⟩
    have hel := htake e he
    obtain rfl := hmem e hel heq
    exact ⟨hel, fun hnew ↦ (List.mem_newest_iff hkeys.of_map hel).mp hnew he⟩
  · rintro ⟨hel, hnew⟩
    refine ⟨(id, v), ?_, rfl⟩
    by_contra hnot
    exact hnew ((List.mem_newest_iff hkeys.of_map hel).mpr hnot)

/-- `acceptedReceiptPoolKey`. -/
def acceptedReceiptPoolKey (receipt : AcceptedMessageReceipt) : String :=
  match receipt.messageType with
  | .commit => receipt.roomKey ++ "\x00commit"
  | .application => receipt.roomKey ++ "\x00application\x00" ++ receipt.senderUserId

/-- The room id in a room key: what follows the first colon. -/
def roomIdOfKey (key : RoomKey) : Option String :=
  if ':' ∈ key.toList then some (String.ofList (key.toList.dropWhile (· ≠ ':')).tail) else none

/-- What `pruneMlsBacklogs` leaves of a backlog: nothing when the room is gone or inactive. -/
@[grind =] def retainedBacklog (c : RelayConfig) (now : Instant) (r : Records) (key : RoomKey)
    (messages : List MlsRelayMessage) : List MlsRelayMessage :=
  match (roomIdOfKey key).bind r.rooms.get with
  | some room =>
    if room.archivedAt.isSome || room.deletedAt.isSome then [] else pruneMlsBacklog c now messages
  | none => []

namespace RelayStore

/-- `pruneExpiredInvites`. -/
def pruneExpiredInvites (now : Instant) (s : RelayStore) : RelayStore :=
  let expired := (s.invites.filter fun _ invite ↦ isExpiredInvite now invite).keys
  ((s.deleteWhere .invites fun _ invite ↦ isExpiredInvite now invite).deleteWhere .inviteRequests
    fun _ request ↦ request.inviteId ∈ expired).deleteWhere .inviteResponses
    fun _ response ↦ response.inviteId ∈ expired

/-- `capOldest` of the acknowledgement receipts. -/
def capInviteAckReceipts (s : RelayStore) : RelayStore :=
  let removed := oldestBeyond InviteAckReceipt.acknowledgedAt 4096 s.inviteAckReceipts.entries
  s.deleteWhere .inviteAckReceipts fun id _ ↦ id ∈ removed

/-- `pruneAcceptedMessageReceipts`. -/
def pruneAcceptedMessageReceipts (now : Instant) (s : RelayStore) : RelayStore :=
  let s := s.deleteWhere .acceptedMessageReceipts fun _ receipt ↦ isOutdatedReceipt now receipt
  let pools := (s.acceptedMessageReceipts.values.map acceptedReceiptPoolKey).dedup
  let removed := pools.flatMap fun pool ↦ oldestBeyond AcceptedMessageReceipt.acceptedAt
    maxAcceptedReceiptsPerPool
    (s.acceptedMessageReceipts.entries.filter fun e ↦ acceptedReceiptPoolKey e.2 = pool)
  s.deleteWhere .acceptedMessageReceipts fun id _ ↦ id ∈ removed

/-- `pruneMlsBacklogs`: every backlog is written again or deleted. -/
def pruneMlsBacklogs (c : RelayConfig) (now : Instant) (s : RelayStore) : RelayStore :=
  s.update .mlsBacklog
    ((s.mlsBacklog.mapValues (retainedBacklog c now s.toRecords)).filter fun _ l ↦ l ≠ [])
    s.mlsBacklog.keys

/-- `pruneExpiredState`. -/
def pruneExpiredState (c : RelayConfig) (now : Instant) (s : RelayStore) : RelayStore :=
  let s := s.deleteWhere .authSessions fun _ session ↦ session.expiresAt ≤ now
  let s := s.deleteWhere .accountRestrictions fun _ restriction ↦ restriction.expiresAt.any (· ≤ now)
  let s := s.deleteWhere .accountQuotaRecords fun _ quota ↦ quota.resetAt ≤ now
  let s := s.pruneExpiredInvites now
  let s := s.deleteWhere .inviteAckReceipts fun _ receipt ↦ receipt.expiresAt ≤ now
  let s := (s.capInviteAckReceipts.pruneAcceptedMessageReceipts now)
  let s := s.deleteWhere .attachmentBlobs fun _ blob ↦ isExpiredAttachmentBlob now blob
  s.pruneMlsBacklogs c now

end RelayStore

/-- `reclaimDurableCapacity` up to its await. -/
def Coordinator.reclaimDurableCapacity (c : RelayConfig) (now : Instant) (fault : WriteFault)
    (b : Coordinator) : Coordinator × Option SaveError :=
  { b with store := b.store.pruneExpiredState c now }.savePendingChanges c now fault

/-! ### What a reclaim does to the store -/

namespace RelayStore

variable (c : RelayConfig) (now : Instant) (s : RelayStore)

@[simp] theorem teams_pruneExpiredState : (s.pruneExpiredState c now).teams = s.teams := rfl

@[simp] theorem rooms_pruneExpiredState : (s.pruneExpiredState c now).rooms = s.rooms := rfl

@[simp] theorem teamMembers_pruneExpiredState :
    (s.pruneExpiredState c now).teamMembers = s.teamMembers := rfl

@[simp] theorem devices_pruneExpiredState : (s.pruneExpiredState c now).devices = s.devices := rfl

@[simp] theorem keyPackages_pruneExpiredState :
    (s.pruneExpiredState c now).keyPackages = s.keyPackages := rfl

@[simp] theorem consumedKeyPackages_pruneExpiredState :
    (s.pruneExpiredState c now).consumedKeyPackages = s.consumedKeyPackages := rfl

theorem invites_pruneExpiredState : (s.pruneExpiredState c now).invites =
    s.invites.filter fun _ invite ↦ !isExpiredInvite now invite := rfl

theorem mlsBacklog_pruneExpiredState : (s.pruneExpiredState c now).mlsBacklog =
    (s.mlsBacklog.mapValues (retainedBacklog c now s.toRecords)).filter fun _ l ↦ l ≠ [] := rfl

/-- A reclaim prunes each backlog where it is. -/
theorem mlsBacklogOf_pruneExpiredState (key : RoomKey) :
    (s.pruneExpiredState c now).mlsBacklogOf key =
      retainedBacklog c now s.toRecords key (s.mlsBacklogOf key) := by
  have hnil : retainedBacklog c now s.toRecords key [] = [] := by
    unfold retainedBacklog
    split
    · split_ifs
      · rfl
      · simp [pruneMlsBacklog, sliceLast]
    · rfl
  rw [Records.mlsBacklogOf, mlsBacklog_pruneExpiredState, InsertionMap.get_filter,
    InsertionMap.get_mapValues, Records.mlsBacklogOf]
  cases h : s.mlsBacklog.get key with
  | none => simp [hnil]
  | some l =>
    by_cases hl : retainedBacklog c now s.toRecords key l = []
    · simp [Option.filter, hl]
    · simp [Option.filter, hl]

end RelayStore

theorem retainedBacklog_sublist (c : RelayConfig) (now : Instant) (r : Records) (key : RoomKey)
    (l : List MlsRelayMessage) : (retainedBacklog c now r key l).Sublist l := by
  unfold retainedBacklog
  split
  · split_ifs
    · exact List.nil_sublist l
    · exact pruneMlsBacklog_sublist c now l
  · exact List.nil_sublist l

/-- What a reclaim keeps, a prune at the same time keeps. -/
theorem pruneMlsBacklog_retainedBacklog (c : RelayConfig) (now : Instant) (r : Records)
    (key : RoomKey) (l : List MlsRelayMessage) :
    pruneMlsBacklog c now (retainedBacklog c now r key l) = retainedBacklog c now r key l := by
  have hnil : pruneMlsBacklog c now [] = [] := by simp [pruneMlsBacklog, sliceLast]
  unfold retainedBacklog
  split
  · split_ifs
    · exact hnil
    · exact pruneMlsBacklog_pruneMlsBacklog c now l
  · exact hnil

/-- A reclaim writes every backlog again. -/
theorem reported_pruneExpiredState (c : RelayConfig) (now : Instant) (s : RelayStore)
    {key : RoomKey} (h : key ∈ s.mlsBacklog.keys) :
    ⟨.mlsBacklog, key⟩ ∈ (s.pruneExpiredState c now).durableMutations := by
  unfold RelayStore.pruneExpiredState RelayStore.pruneMlsBacklogs
  rw [RelayStore.durableMutations_update]
  exact List.mem_append_right _ (List.mem_map.mpr ⟨key, h, rfl⟩)

end MultAIplayer
