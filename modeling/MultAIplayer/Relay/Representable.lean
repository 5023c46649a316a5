import MultAIplayer.Relay.Reclaim
import MultAIplayer.Relay.WriteThrough

/-!
# Publishing and reclaiming keep the store representable

Everything that a publish stages or takes back and everything that a reclaim prunes is reported, and
leaves a store that the tables can represent: receipt keys separate room and message, and no backlog
repeats a message id.
-/

namespace MultAIplayer

namespace RelayStore

theorem Representable.deleteWhere {s : RelayStore} (h : s.Representable) (e : Entity)
    (p : String → e.Value → Bool) : (s.deleteWhere e p).Representable := by
  refine h.update (fun k hk ↦ ?_) fun k v hv ↦ .inl ?_
  · obtain ⟨v, hv⟩ := InsertionMap.mem_keys_iff.mp hk
    rw [InsertionMap.get_filter] at hv
    exact h.isKey e k v (Option.filter_eq_some_iff.mp hv).1
  · rw [InsertionMap.get_filter] at hv
    exact (Option.filter_eq_some_iff.mp hv).1

theorem Representable.setAll {s : RelayStore} (h : s.Representable) {e : Entity}
    {l : List (String × e.Value)} (hl : ∀ p ∈ l, IsKey e p.1 ∧ DistinctIds e p.2) :
    (s.setAll e l).Representable := by
  refine h.update (fun k hk ↦ ?_) fun k v hv ↦ ?_
  · obtain ⟨p, hp, rfl⟩ := List.mem_map.mp hk
    exact (hl p hp).1
  · rw [InsertionMap.get_setAll_reverse] at hv
    cases hlookup : InsertionMap.lookupEntry k l.reverse with
    | none =>
      rw [hlookup, Option.none_or] at hv
      exact .inl hv
    | some w =>
      rw [hlookup, Option.some_or, Option.some.injEq] at hv
      have hmem := List.mem_reverse.mp (InsertionMap.mem_of_lookupEntry hlookup)
      rw [hv] at hmem
      exact .inr (hl _ hmem)

/-! ### Reclaiming -/

theorem Representable.pruneMlsBacklogs {s : RelayStore} (h : s.Representable) (c : RelayConfig)
    (now : Instant) : (s.pruneMlsBacklogs c now).Representable := by
  refine h.update (fun k _ ↦ nofun) fun k v hv ↦ .inr ⟨nofun, ?_⟩
  rw [InsertionMap.get_filter, InsertionMap.get_mapValues] at hv
  obtain ⟨l, hl, rfl⟩ := Option.map_eq_some_iff.mp (Option.filter_eq_some_iff.mp hv).1
  have hids : (l.map (·.id)).Nodup := h.distinctIds .mlsBacklog k l hl
  exact hids.sublist ((retainedBacklog_sublist c now s.toRecords k l).map _)

theorem Representable.pruneExpiredState {s : RelayStore} (h : s.Representable) (c : RelayConfig)
    (now : Instant) : (s.pruneExpiredState c now).Representable :=
  Representable.pruneMlsBacklogs (((((((((((h.deleteWhere _ _).deleteWhere _ _).deleteWhere _ _
    ).deleteWhere _ _).deleteWhere _ _).deleteWhere _ _).deleteWhere _ _).deleteWhere _ _
    ).deleteWhere _ _).deleteWhere _ _).deleteWhere _ _) c now

theorem tracks_pruneMlsBacklogs (c : RelayConfig) (now : Instant) (s : RelayStore) :
    Tracks s (s.pruneMlsBacklogs c now) := by
  refine tracks_update fun k hk ↦ ?_
  have hnone : s.mlsBacklog.get k = none := by
    cases hget : s.mlsBacklog.get k with
    | none => rfl
    | some l => exact absurd (InsertionMap.mem_keys_iff.mpr ⟨l, hget⟩) hk
  rw [InsertionMap.get_filter, InsertionMap.get_mapValues, hnone]
  exact hnone.symm

theorem tracks_pruneExpiredState (c : RelayConfig) (now : Instant) (s : RelayStore) :
    Tracks s (s.pruneExpiredState c now) :=
  ((((((((((((tracks_deleteWhere s _ _).trans (tracks_deleteWhere _ _ _)).trans
    (tracks_deleteWhere _ _ _)).trans (tracks_deleteWhere _ _ _)).trans
    (tracks_deleteWhere _ _ _)).trans (tracks_deleteWhere _ _ _)).trans
    (tracks_deleteWhere _ _ _)).trans (tracks_deleteWhere _ _ _)).trans
    (tracks_deleteWhere _ _ _)).trans (tracks_deleteWhere _ _ _)).trans
    (tracks_deleteWhere _ _ _)).trans (tracks_pruneMlsBacklogs _ _ _))

end RelayStore

/-! ### Publishing -/

theorem nul_mem_receiptKey (key : RoomKey) (messageId : String) :
    '\x00' ∈ (receiptKey key messageId).toList := by
  simp [receiptKey]

namespace Platform

variable {P : Platform} {now : Instant} {room : RoomRecord} {message : MlsRelayMessage}
  {s : RelayStore}

/-- The new backlog repeats no id when the message's id is new. -/
theorem nodup_backlogAfter (P : Platform) (now : Instant) {r : Records} {key : RoomKey}
    (hprevious : ((r.mlsBacklogOf key).map (·.id)).Nodup)
    (hnew : ∀ m ∈ r.mlsBacklogOf key, m.id ≠ message.id) :
    ((P.backlogAfter now r key message).map (·.id)).Nodup := by
  refine Coordinator.pruneMlsBacklog_nodup_ids ?_
  rw [List.map_append, List.map_singleton, List.nodup_append]
  refine ⟨hprevious, List.nodup_singleton _, fun a ha b hb hab ↦ ?_⟩
  obtain ⟨m, hm, rfl⟩ := List.mem_map.mp ha
  exact hnew m hm (hab.trans (List.mem_singleton.mp hb))

/-- **Staging keeps the store representable** when the message's id is new. -/
theorem representable_stagePublish (h : s.Representable)
    (hnew : ∀ m ∈ s.mlsBacklogOf (roomKey message.teamId message.roomId), m.id ≠ message.id) :
    (P.stagePublish now room message s).Representable := by
  have hprevious : ((s.mlsBacklogOf (roomKey message.teamId message.roomId)).map (·.id)).Nodup := by
    unfold Records.mlsBacklogOf
    cases hget : s.mlsBacklog.get (roomKey message.teamId message.roomId) with
    | none => exact List.nodup_nil
    | some l => exact h.distinctIds .mlsBacklog _ l hget
  have hrest : ∀ s' : RelayStore, s'.Representable → (pruneAcceptedReceipts now
      (roomKey message.teamId message.roomId) ((s'.setMlsBacklog
        (roomKey message.teamId message.roomId) (P.backlogAfter now s.toRecords
          (roomKey message.teamId message.roomId) message)).set .acceptedMessageReceipts
        (receiptKey (roomKey message.teamId message.roomId) message.id)
        (P.receiptFor now (roomKey message.teamId message.roomId) message))).Representable := by
    intro s' hs'
    refine RelayStore.Representable.deleteWhere ?_ _ _
    have hbacklog := RelayStore.Representable.set (e := .mlsBacklog) hs'
      (k := roomKey message.teamId message.roomId) nofun
      (nodup_backlogAfter P now hprevious hnew)
    exact hbacklog.set (fun _ ↦ nul_mem_receiptKey _ _) trivial
  unfold stagePublish
  dsimp only
  split_ifs
  · exact hrest _ (h.set nofun trivial)
  · exact hrest _ h

theorem tracks_stagePublish : RelayStore.Tracks s (P.stagePublish now room message s) := by
  unfold stagePublish
  dsimp only
  split_ifs
  · exact (((RelayStore.tracks_set _ _ _ _).trans (RelayStore.tracks_set _ _ _ _)).trans
      (RelayStore.tracks_set _ _ _ _)).trans (RelayStore.tracks_deleteWhere _ _ _)
  · exact ((RelayStore.tracks_set _ _ _ _).trans (RelayStore.tracks_set _ _ _ _)).trans
      (RelayStore.tracks_deleteWhere _ _ _)

end Platform

theorem representable_rollbackPublish {before : RelayStore} {s : RelayStore} {key : RoomKey}
    {room : RoomRecord} (hbefore : before.Representable) (h : s.Representable) :
    (rollbackPublish before.toRecords key room s).Representable := by
  have hrest : ∀ s' : RelayStore, s'.Representable → (((s'.setRoom room).clear
      .acceptedMessageReceipts).setAll .acceptedMessageReceipts
        before.acceptedMessageReceipts.entries).Representable := by
    intro s' hs'
    have hroom := RelayStore.Representable.set (e := .rooms) hs' (k := room.id) (v := room) nofun
      trivial
    refine (hroom.clear _).setAll (e := .acceptedMessageReceipts) fun p hp ↦ ⟨?_, trivial⟩
    exact hbefore.isKey .acceptedMessageReceipts p.1 p.2 (InsertionMap.mem_entries_iff.mp hp)
  unfold rollbackPublish
  cases hget : before.mlsBacklog.get key with
  | none => exact hrest _ (h.delete _ _)
  | some previous =>
    exact hrest _ (h.set nofun (hbefore.distinctIds .mlsBacklog key previous hget))

theorem tracks_rollbackPublish {before : Records} {s : RelayStore} {key : RoomKey}
    {room : RoomRecord} : RelayStore.Tracks s (rollbackPublish before key room s) := by
  have hrest : ∀ s' : RelayStore, RelayStore.Tracks s' (((s'.setRoom room).clear
      .acceptedMessageReceipts).setAll .acceptedMessageReceipts
        before.acceptedMessageReceipts.entries) := fun s' ↦
    ((RelayStore.tracks_set _ _ _ _).trans (RelayStore.tracks_clear _ _)).trans
      (RelayStore.tracks_setAll _ _ _)
  unfold rollbackPublish
  cases before.mlsBacklog.get key with
  | none => exact (RelayStore.tracks_delete s _ _).trans (hrest _)
  | some previous => exact (RelayStore.tracks_set s _ _ _).trans (hrest _)

end MultAIplayer
