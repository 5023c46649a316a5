import MultAIplayer.Lib.InsertionMap
import MultAIplayer.Protocol.Records

/-!
# The in-memory store

`InMemoryRelayStore` of `state.ts`: sixteen durable collections, each a `Map` that reports every
mutation of its keys, and the log of reported mutations that a save drains.

## One definition for sixteen tracked maps

The collections differ in their value types only, so the tracked operations `set`, `delete` and
`clear` are defined once over `Entity` and the collection they touch is found by `match`. At a
concrete entity a read after a write is decided by `rfl`.

## The inner maps of `teamMembers`

Setting or deleting a member reports the team's key, exactly as replacing the whole membership map
does; `setTeamMember` and `deleteTeamMember` are therefore `set` at `teamMembers`.
-/

namespace MultAIplayer

/-! ### Entities -/

/-- `RelayStoreMutationEntity`: the durable collections. -/
inductive Entity
  | authSessions
  | accountRestrictions
  | accountQuotaRecords
  | teams
  | rooms
  | invites
  | inviteRequests
  | inviteResponses
  | inviteAckReceipts
  | acceptedMessageReceipts
  | devices
  | keyPackages
  | consumedKeyPackages
  | attachmentBlobs
  | teamMembers
  | mlsBacklog
  deriving DecidableEq

/-- The membership of one team, by user id. -/
abbrev TeamMembers := InsertionMap String TeamMemberRecord

/-- What a collection holds under a key. -/
abbrev Entity.Value : Entity → Type
  | .authSessions => AuthSession
  | .accountRestrictions => AccountRestriction
  | .accountQuotaRecords => AccountQuotaRecord
  | .teams => TeamRecord
  | .rooms => RoomRecord
  | .invites => InviteRecord
  | .inviteRequests => InviteJoinRequestRecord
  | .inviteResponses => InviteResponseRecord
  | .inviteAckReceipts => InviteAckReceipt
  | .acceptedMessageReceipts => AcceptedMessageReceipt
  | .devices => DeviceRecord
  | .keyPackages => KeyPackageRecord
  | .consumedKeyPackages => ConsumedKeyPackageRecord
  | .attachmentBlobs => AttachmentBlobRecord
  | .teamMembers => TeamMembers
  | .mlsBacklog => List MlsRelayMessage

/-- The durable collections of the relay. -/
structure Records where
  authSessions : InsertionMap String AuthSession := .empty
  accountRestrictions : InsertionMap String AccountRestriction := .empty
  accountQuotaRecords : InsertionMap String AccountQuotaRecord := .empty
  teams : InsertionMap String TeamRecord := .empty
  rooms : InsertionMap String RoomRecord := .empty
  invites : InsertionMap String InviteRecord := .empty
  inviteRequests : InsertionMap String InviteJoinRequestRecord := .empty
  inviteResponses : InsertionMap String InviteResponseRecord := .empty
  inviteAckReceipts : InsertionMap String InviteAckReceipt := .empty
  acceptedMessageReceipts : InsertionMap String AcceptedMessageReceipt := .empty
  devices : InsertionMap String DeviceRecord := .empty
  keyPackages : InsertionMap String KeyPackageRecord := .empty
  consumedKeyPackages : InsertionMap String ConsumedKeyPackageRecord := .empty
  attachmentBlobs : InsertionMap String AttachmentBlobRecord := .empty
  teamMembers : InsertionMap String TeamMembers := .empty
  mlsBacklog : InsertionMap String (List MlsRelayMessage) := .empty

namespace Records

/-- The collection of an entity. -/
def collection (r : Records) : (e : Entity) → InsertionMap String e.Value
  | .authSessions => r.authSessions
  | .accountRestrictions => r.accountRestrictions
  | .accountQuotaRecords => r.accountQuotaRecords
  | .teams => r.teams
  | .rooms => r.rooms
  | .invites => r.invites
  | .inviteRequests => r.inviteRequests
  | .inviteResponses => r.inviteResponses
  | .inviteAckReceipts => r.inviteAckReceipts
  | .acceptedMessageReceipts => r.acceptedMessageReceipts
  | .devices => r.devices
  | .keyPackages => r.keyPackages
  | .consumedKeyPackages => r.consumedKeyPackages
  | .attachmentBlobs => r.attachmentBlobs
  | .teamMembers => r.teamMembers
  | .mlsBacklog => r.mlsBacklog

/-- Replace the collection of an entity. -/
def withCollection (r : Records) : (e : Entity) → InsertionMap String e.Value → Records
  | .authSessions, m => { r with authSessions := m }
  | .accountRestrictions, m => { r with accountRestrictions := m }
  | .accountQuotaRecords, m => { r with accountQuotaRecords := m }
  | .teams, m => { r with teams := m }
  | .rooms, m => { r with rooms := m }
  | .invites, m => { r with invites := m }
  | .inviteRequests, m => { r with inviteRequests := m }
  | .inviteResponses, m => { r with inviteResponses := m }
  | .inviteAckReceipts, m => { r with inviteAckReceipts := m }
  | .acceptedMessageReceipts, m => { r with acceptedMessageReceipts := m }
  | .devices, m => { r with devices := m }
  | .keyPackages, m => { r with keyPackages := m }
  | .consumedKeyPackages, m => { r with consumedKeyPackages := m }
  | .attachmentBlobs, m => { r with attachmentBlobs := m }
  | .teamMembers, m => { r with teamMembers := m }
  | .mlsBacklog, m => { r with mlsBacklog := m }

@[simp] theorem collection_withCollection_self (r : Records) (e : Entity)
    (m : InsertionMap String e.Value) : (r.withCollection e m).collection e = m := by
  cases e <;> rfl

theorem collection_withCollection_of_ne (r : Records) {e f : Entity}
    (m : InsertionMap String e.Value) (h : f ≠ e) :
    (r.withCollection e m).collection f = r.collection f := by
  cases e <;> cases f <;> first | exact absurd rfl h | rfl

/-- Records are their collections. -/
theorem ext_collection {r r' : Records} (h : ∀ e, r.collection e = r'.collection e) : r = r' := by
  cases r
  cases r'
  congr 1
  exacts [h .authSessions, h .accountRestrictions, h .accountQuotaRecords, h .teams, h .rooms,
    h .invites, h .inviteRequests, h .inviteResponses, h .inviteAckReceipts,
    h .acceptedMessageReceipts, h .devices, h .keyPackages, h .consumedKeyPackages,
    h .attachmentBlobs, h .teamMembers, h .mlsBacklog]

theorem withCollection_collection (r : Records) (e : Entity) :
    r.withCollection e (r.collection e) = r := by
  cases e <;> rfl

theorem withCollection_withCollection (r : Records) (e : Entity) (m m' : InsertionMap String e.Value) :
    (r.withCollection e m).withCollection e m' = r.withCollection e m' := by
  cases e <;> rfl

theorem withCollection_comm (r : Records) {e f : Entity} (h : e ≠ f)
    (m : InsertionMap String e.Value) (n : InsertionMap String f.Value) :
    (r.withCollection e m).withCollection f n = (r.withCollection f n).withCollection e m := by
  cases e <;> cases f <;> first | exact absurd rfl h | rfl

/-- Two stores hold the same under every key; the order of a collection may differ. -/
def Agrees (r r' : Records) : Prop :=
  ∀ e k, (r.collection e).get k = (r'.collection e).get k

theorem Agrees.refl (r : Records) : r.Agrees r := fun _ _ ↦ rfl

theorem Agrees.symm {r r' : Records} (h : r.Agrees r') : r'.Agrees r := fun e k ↦ (h e k).symm

theorem Agrees.trans {r r' r'' : Records} (h : r.Agrees r') (h' : r'.Agrees r'') : r.Agrees r'' :=
  fun e k ↦ (h e k).trans (h' e k)

end Records

/-! ### Mutations -/

/-- `RelayStoreMutation`: one reported key of one collection. -/
structure RelayStoreMutation where
  entity : Entity
  key : String
  deriving DecidableEq

/-- The store: its collections and the mutations reported since the last drain. -/
structure RelayStore extends Records where
  durableMutations : List RelayStoreMutation := []

namespace RelayStore

/-- Replace a collection and report the keys that were touched. -/
def update (s : RelayStore) (e : Entity) (m : InsertionMap String e.Value)
    (touched : List String) : RelayStore where
  toRecords := s.toRecords.withCollection e m
  durableMutations := s.durableMutations ++ touched.map (⟨e, ·⟩)

/-- `DurableMutationMap.set`. -/
def set (s : RelayStore) (e : Entity) (k : String) (v : e.Value) : RelayStore :=
  s.update e ((s.collection e).set k v) [k]

/-- `DurableMutationMap.delete`: an absent key is not reported. -/
def delete (s : RelayStore) (e : Entity) (k : String) : RelayStore :=
  s.update e ((s.collection e).delete k) (if (s.collection e).has k then [k] else [])

/-- `DurableMutationMap.clear`: every key that was present is reported. -/
def clear (s : RelayStore) (e : Entity) : RelayStore :=
  s.update e .empty (s.collection e).keys

/-- Delete the entries of a collection that satisfy a test, in map order. -/
def deleteWhere (s : RelayStore) (e : Entity) (p : String → e.Value → Bool) : RelayStore :=
  s.update e ((s.collection e).filter fun k v ↦ !p k v) ((s.collection e).filter p).keys

/-- Set every listed entry, from left to right. -/
@[grind =] def setAll (s : RelayStore) (e : Entity) (l : List (String × e.Value)) : RelayStore :=
  s.update e ((s.collection e).setAll l) (l.map Prod.fst)

theorem durableMutations_update (s : RelayStore) (e : Entity) (m : InsertionMap String e.Value)
    (touched : List String) :
    (s.update e m touched).durableMutations = s.durableMutations ++ touched.map (⟨e, ·⟩) := rfl

@[simp] theorem collection_update_self (s : RelayStore) (e : Entity)
    (m : InsertionMap String e.Value) (touched : List String) :
    (s.update e m touched).collection e = m :=
  Records.collection_withCollection_self _ e m

theorem collection_update_of_ne (s : RelayStore) {e f : Entity} (m : InsertionMap String e.Value)
    (touched : List String) (h : f ≠ e) :
    (s.update e m touched).collection f = s.collection f :=
  Records.collection_withCollection_of_ne _ m h

/-! ### Every change is reported -/

/-- `s'` is `s` after mutations that were all reported: a key that was not reported still holds
what it held. -/
def Tracks (s s' : RelayStore) : Prop :=
  ∃ l, s'.durableMutations = s.durableMutations ++ l ∧
    ∀ e k, ⟨e, k⟩ ∉ l → (s'.collection e).get k = (s.collection e).get k

theorem Tracks.refl (s : RelayStore) : Tracks s s :=
  ⟨[], (List.append_nil _).symm, fun _ _ _ ↦ rfl⟩

/-- Mutations only add reports. -/
theorem Tracks.subset {s s' : RelayStore} (h : Tracks s s') :
    s.durableMutations ⊆ s'.durableMutations := by
  obtain ⟨l, hl, -⟩ := h
  rw [hl]
  exact List.subset_append_left _ _

theorem Tracks.trans {s s' s'' : RelayStore} (h : Tracks s s') (h' : Tracks s' s'') :
    Tracks s s'' := by
  obtain ⟨l, hl, hget⟩ := h
  obtain ⟨l', hl', hget'⟩ := h'
  refine ⟨l ++ l', by rw [hl', hl, List.append_assoc], fun e k hk ↦ ?_⟩
  rw [List.mem_append, not_or] at hk
  rw [hget' e k hk.2, hget e k hk.1]

theorem tracks_update {s : RelayStore} {e : Entity} {m : InsertionMap String e.Value}
    {touched : List String} (h : ∀ k ∉ touched, m.get k = (s.collection e).get k) :
    Tracks s (s.update e m touched) := by
  refine ⟨touched.map (⟨e, ·⟩), rfl, fun f k hk ↦ ?_⟩
  by_cases hf : f = e
  · subst hf
    have hk' : k ∉ touched := fun hmem ↦ hk (List.mem_map.mpr ⟨k, hmem, rfl⟩)
    rw [update, Records.collection_withCollection_self, h k hk']
  · rw [update, Records.collection_withCollection_of_ne _ _ hf]

theorem tracks_set (s : RelayStore) (e : Entity) (k : String) (v : e.Value) :
    Tracks s (s.set e k v) :=
  tracks_update fun _ hj ↦ InsertionMap.get_set_of_ne _ v fun he ↦ hj (List.mem_singleton.mpr he)

theorem tracks_delete (s : RelayStore) (e : Entity) (k : String) : Tracks s (s.delete e k) := by
  refine tracks_update fun j hj ↦ ?_
  split_ifs at hj with hhas
  · exact InsertionMap.get_delete_of_ne _ fun he ↦ hj (List.mem_singleton.mpr he)
  · rw [InsertionMap.get_delete]
    split_ifs with he
    · rw [he]
      exact (InsertionMap.get_eq_none_of_not_has hhas).symm
    · rfl

theorem tracks_clear (s : RelayStore) (e : Entity) : Tracks s (s.clear e) := by
  refine tracks_update fun k hk ↦ ?_
  rw [InsertionMap.get_empty]
  cases h : (s.collection e).get k with
  | none => rfl
  | some v => exact absurd (InsertionMap.mem_keys_iff.mpr ⟨v, h⟩) hk

theorem tracks_deleteWhere (s : RelayStore) (e : Entity) (p : String → e.Value → Bool) :
    Tracks s (s.deleteWhere e p) := by
  refine tracks_update fun k hk ↦ ?_
  rw [InsertionMap.get_filter]
  cases h : (s.collection e).get k with
  | none => rfl
  | some v =>
    have hp : p k v = false := by
      by_contra hp
      refine hk (InsertionMap.mem_keys_iff.mpr ⟨v, ?_⟩)
      rw [InsertionMap.get_filter, h, Option.filter_some_pos (by simpa using hp)]
    rw [Option.filter_some_pos (by simp [hp])]

theorem tracks_setAll (s : RelayStore) (e : Entity) (l : List (String × e.Value)) :
    Tracks s (s.setAll e l) :=
  tracks_update fun _ hj ↦ InsertionMap.get_setAll_of_not_mem _ hj

end RelayStore

end MultAIplayer
