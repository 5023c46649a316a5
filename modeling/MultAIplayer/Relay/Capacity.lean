import MultAIplayer.Lib.Machine
import MultAIplayer.Lib.Tally
import MultAIplayer.Protocol.RelayMessages
import MultAIplayer.Relay.Store

/-!
# Capacity

The ceilings of the in-memory store: `DurableEntryCapacity` of `state.ts`, which counts entries for
the relay and for each team, `DurableByteCapacity` of `store-byte-capacity.ts`, which adds up the
bytes of backlogs and attachments, and the collections that ask both before they change
(`DurableMutationMap`, `TeamMemberCollectionMap`).

The counters are kept by differences. A team whose count comes back to zero has no counter, and an
empty team id is no team.

A membership map that has been replaced or deleted is no collection of the store any more; the
operations on members are those on the map that the store holds.
-/

namespace MultAIplayer

/-! ### Counters -/

/-- A `Map` of counters, where a missing counter is zero. -/
abbrev Counters := InsertionMap String ℤ

namespace Counters

def count (m : Counters) (key : String) : ℤ := (m.get key).getD 0

@[simp] theorem count_empty (key : String) : count .empty key = 0 := rfl

/-- `adjustCounter`. -/
def adjustCounter (m : Counters) (key : String) (delta : ℤ) : Counters :=
  let next := m.count key + delta
  if next = 0 then m.delete key else m.set key next

theorem count_adjustCounter (m : Counters) (key : String) (delta : ℤ) (k : String) :
    (m.adjustCounter key delta).count k = m.count k + if k = key then delta else 0 := by
  by_cases hk : k = key
  · subst hk
    rw [if_pos rfl, adjustCounter]
    by_cases hzero : m.count k + delta = 0
    · rw [if_pos hzero, hzero, count, InsertionMap.get_delete_self]
      rfl
    · rw [if_neg hzero, count, InsertionMap.get_set_self]
      rfl
  · rw [if_neg hk, add_zero, adjustCounter]
    split_ifs
    · rw [count, InsertionMap.get_delete_of_ne _ hk, count]
    · rw [count, InsertionMap.get_set_of_ne _ _ hk, count]

end Counters

/-! ### Errors -/

/-- What bytes are retained for. -/
inductive ByteResource
  | mlsBacklog
  | attachmentBlobs
  deriving DecidableEq

inductive ByteScope
  | relay
  | team
  | room
  deriving DecidableEq

/-- `RelayStoreCapacityError` and `RelayStoreByteCapacityError`. -/
inductive CapacityError
  | entries (maxDurableEntries : ℕ) (teamId : Option String)
  | bytes (resource : ByteResource) (maximumBytes : ℕ) (scope : ByteScope)
      (scopeId : Option String)
  deriving DecidableEq

/-- An id that is truthy. -/
def truthy (id : Option String) : Option String := id.filter (· ≠ "")

/-! ### Entries -/

structure DurableEntryCapacity where
  used : ℤ := 0
  usedByTeam : Counters := .empty
  maximum : ℕ
  maximumPerTeam : ℕ

namespace DurableEntryCapacity

variable (c : DurableEntryCapacity)

@[grind =]
def adjust (delta : ℤ) (teamId : Option String) : Except CapacityError DurableEntryCapacity :=
  if 0 < delta ∧ c.maximum < c.used + delta then .error (.entries c.maximum none)
  else
    match truthy teamId with
    | none => .ok { c with used := c.used + delta }
    | some teamId =>
      if 0 < delta ∧ c.maximumPerTeam < c.usedByTeam.count teamId + delta then
        .error (.entries c.maximumPerTeam (some teamId))
      else
        .ok
          { c with
            used := c.used + delta
            usedByTeam := c.usedByTeam.adjustCounter teamId delta }

def claim (teamId : Option String) : Except CapacityError DurableEntryCapacity :=
  c.adjust 1 teamId

/-- An adjustment that takes away, which `adjust` never refuses. -/
def giveBack (amount : ℤ) (teamId : Option String) : DurableEntryCapacity :=
  match c.adjust (-amount) teamId with
  | .ok c => c
  | .error _ => c

def release (teamId : Option String) : DurableEntryCapacity := c.giveBack 1 teamId

/-- The counts when a team has given an entry away. -/
def usedWithout (fromTeamId : Option String) : Counters :=
  match truthy fromTeamId with
  | some teamId => c.usedByTeam.adjustCounter teamId (-1)
  | none => c.usedByTeam

def move (fromTeamId toTeamId : Option String) : Except CapacityError DurableEntryCapacity :=
  if fromTeamId = toTeamId then .ok c
  else
    let toUsed := ((truthy toTeamId).map c.usedByTeam.count).getD 0
    match (truthy toTeamId).filter fun _ ↦ (c.maximumPerTeam : ℤ) < toUsed + 1 with
    | some teamId => .error (.entries c.maximumPerTeam (some teamId))
    | none =>
      .ok { c with
        usedByTeam := match truthy toTeamId with
          | some teamId => (c.usedWithout fromTeamId).set teamId (toUsed + 1)
          | none => c.usedWithout fromTeamId }

end DurableEntryCapacity

/-! ### Bytes -/

/-- `RelayStoreByteLimits`, in the order that the constructor of `DurableByteCapacity` demands. -/
structure RelayStoreByteLimits where
  mlsBacklogGlobal : ℕ := 50000000
  mlsBacklogPerTeam : ℕ := 25000000
  mlsBacklogPerRoom : ℕ := 5000000
  attachmentBlobsGlobal : ℕ := 100000000
  attachmentBlobsPerTeam : ℕ := 50000000
  room_le_team : mlsBacklogPerRoom ≤ mlsBacklogPerTeam := by decide
  team_le_relay : mlsBacklogPerTeam ≤ mlsBacklogGlobal := by decide
  attachments_le : attachmentBlobsPerTeam ≤ attachmentBlobsGlobal := by decide

/-- The bounds when the configuration names none. -/
def RelayStoreByteLimits.defaults : RelayStoreByteLimits := {}

structure RetainedByteWeight where
  resource : ByteResource
  bytes : ℕ
  teamId : String
  roomId : Option String := none
  deriving DecidableEq

structure DurableByteCapacity where
  limits : RelayStoreByteLimits
  mlsBacklogBytes : ℤ := 0
  attachmentBlobBytes : ℤ := 0
  mlsByTeam : Counters := .empty
  mlsByRoom : Counters := .empty
  attachmentsByTeam : Counters := .empty

namespace DurableByteCapacity

variable (b : DurableByteCapacity)

/-- `assertCanAdjust`, for a scope that the weight has: the error that it throws, if any. -/
def assertCanAdjust (resource : ByteResource) (delta : ℤ) (teamId : String)
    (roomId : Option String) : Option CapacityError :=
  if delta ≤ 0 then none
  else
    match resource with
    | .mlsBacklog =>
      if b.limits.mlsBacklogGlobal < b.mlsBacklogBytes + delta then
        some (.bytes resource b.limits.mlsBacklogGlobal .relay none)
      else if b.limits.mlsBacklogPerTeam < b.mlsByTeam.count teamId + delta then
        some (.bytes resource b.limits.mlsBacklogPerTeam .team (some teamId))
      else
        match (truthy roomId).filter fun roomId ↦
            (b.limits.mlsBacklogPerRoom : ℤ) < b.mlsByRoom.count roomId + delta with
        | some roomId => some (.bytes resource b.limits.mlsBacklogPerRoom .room (some roomId))
        | none => none
    | .attachmentBlobs =>
      if b.limits.attachmentBlobsGlobal < b.attachmentBlobBytes + delta then
        some (.bytes resource b.limits.attachmentBlobsGlobal .relay none)
      else if b.limits.attachmentBlobsPerTeam < b.attachmentsByTeam.count teamId + delta then
        some (.bytes resource b.limits.attachmentBlobsPerTeam .team (some teamId))
      else none

/-- The totals after an adjustment. -/
def adjusted (resource : ByteResource) (delta : ℤ) (teamId : String) (roomId : Option String) :
    DurableByteCapacity :=
  match resource with
  | .mlsBacklog =>
    { b with
      mlsBacklogBytes := b.mlsBacklogBytes + delta
      mlsByTeam := b.mlsByTeam.adjustCounter teamId delta
      mlsByRoom := match truthy roomId with
        | some roomId => b.mlsByRoom.adjustCounter roomId delta
        | none => b.mlsByRoom }
  | .attachmentBlobs =>
    { b with
      attachmentBlobBytes := b.attachmentBlobBytes + delta
      attachmentsByTeam := b.attachmentsByTeam.adjustCounter teamId delta }

@[grind =]
def adjust (resource : ByteResource) (delta : ℤ) (teamId : String) (roomId : Option String) :
    DurableByteCapacity × Option CapacityError :=
  match b.assertCanAdjust resource delta teamId roomId with
  | some error => (b, some error)
  | none => (b.adjusted resource delta teamId roomId, none)

/-- `replace`. The totals are those that it leaves also when it throws. -/
def replace : Option RetainedByteWeight → Option RetainedByteWeight →
    DurableByteCapacity × Option CapacityError
  -- entries of other collections are not weighed: `byteCapacity?.` skips the call
  | none, none => (b, none)
  | some previous, none => b.adjust previous.resource (-previous.bytes) previous.teamId previous.roomId
  | none, some next => b.adjust next.resource next.bytes next.teamId next.roomId
  | some previous, some next =>
    if previous.resource = next.resource ∧ previous.teamId = next.teamId ∧
        previous.roomId = next.roomId then
      b.adjust next.resource (next.bytes - previous.bytes) next.teamId next.roomId
    else
      match b.adjust previous.resource (-previous.bytes) previous.teamId previous.roomId with
      | (b, some error) => (b, some error)
      | (b, none) =>
        match b.adjust next.resource next.bytes next.teamId next.roomId with
        | (b, none) => (b, none)
        | (b, some error) =>
          let undone := b.adjust previous.resource previous.bytes previous.teamId previous.roomId
          (undone.1, some (undone.2.getD error))

end DurableByteCapacity

/-! ### What an entry counts for -/

/-- `teamFromRoomKey`. -/
def teamFromRoomKey (key : RoomKey) : String :=
  if ':' ∈ key.toList then String.ofList (key.toList.takeWhile (· ≠ ':'))
  else String.ofList key.toList.dropLast

/-- `retainedJsonBytes` of a backlog. -/
def retainedJsonBytes (messages : List MlsRelayMessage) : ℕ :=
  Text.utf8Length ("[" ++ String.intercalate "," (messages.map (·.stringify)) ++ "]")

theorem retainedJsonBytes_singleton {m : MlsRelayMessage} {n : ℕ}
    (h : Text.utf8Length m.stringify = n) : retainedJsonBytes [m] = n + 2 := by
  have hlist : String.intercalate "," ([m].map (·.stringify)) = m.stringify := by simp
  unfold retainedJsonBytes
  rw [hlist, Text.utf8Length_append, Text.utf8Length_append, h]
  have hopen : Text.utf8Length "[" = 1 := by decide
  have hclose : Text.utf8Length "]" = 1 := by decide
  omega

namespace Entity

/-- The team that an entry is attributed to. -/
def teamIdForEntry : (e : Entity) → String → e.Value → Option String
  | .teams, _, team => some team.id
  | .rooms, _, room => some room.teamId
  | .invites, _, invite => some invite.teamId
  | .inviteResponses, _, response => some response.responseBinding.teamId
  | .inviteAckReceipts, _, receipt => some receipt.teamId
  | .acceptedMessageReceipts, _, receipt => some (teamFromRoomKey receipt.roomKey)
  | .consumedKeyPackages, _, consumed => consumed.teamId
  | .attachmentBlobs, _, blob => some blob.teamId
  | .teamMembers, teamId, _ => some teamId
  | .mlsBacklog, key, _ => some (teamFromRoomKey key)
  | .authSessions, _, _ | .accountRestrictions, _, _ | .accountQuotaRecords, _, _
  | .inviteRequests, _, _ | .devices, _, _ | .keyPackages, _, _ => none

/-- How many durable entries an entry is: a membership map counts as one plus its members. -/
def units : (e : Entity) → e.Value → ℤ
  | .teamMembers, members => 1 + members.size
  | .authSessions, _ | .accountRestrictions, _ | .accountQuotaRecords, _ | .teams, _ | .rooms, _
  | .invites, _ | .inviteRequests, _ | .inviteResponses, _ | .inviteAckReceipts, _
  | .acceptedMessageReceipts, _ | .devices, _ | .keyPackages, _ | .consumedKeyPackages, _
  | .attachmentBlobs, _ | .mlsBacklog, _ => 1

/-- The bytes that an entry retains, where they are bounded. -/
def byteWeight : (e : Entity) → String → e.Value → Option RetainedByteWeight
  | .mlsBacklog, key, messages =>
    some ⟨.mlsBacklog, retainedJsonBytes messages, teamFromRoomKey key, some key⟩
  | .attachmentBlobs, _, blob =>
    some ⟨.attachmentBlobs, Text.utf8Length blob.sealedBlob, blob.teamId, none⟩
  | .authSessions, _, _ | .accountRestrictions, _, _ | .accountQuotaRecords, _, _ | .teams, _, _
  | .rooms, _, _ | .invites, _, _ | .inviteRequests, _, _ | .inviteResponses, _, _
  | .inviteAckReceipts, _, _ | .acceptedMessageReceipts, _, _ | .devices, _, _
  | .keyPackages, _, _ | .consumedKeyPackages, _, _ | .teamMembers, _, _ => none

end Entity

/-! ### The bounded store -/

/-- The store with its two capacities. -/
structure BoundedStore where
  store : RelayStore := {}
  capacity : DurableEntryCapacity
  byteCapacity : DurableByteCapacity

namespace BoundedStore

variable (s : BoundedStore)

/-- The claim of a new entry, or the move of an old one. -/
def claimEntry (e : Entity) (k : String) (v : e.Value) :
    Option e.Value → Except CapacityError DurableEntryCapacity
  | none => s.capacity.claim (e.teamIdForEntry k v)
  | some previous => s.capacity.move (e.teamIdForEntry k previous) (e.teamIdForEntry k v)

/-- `DurableMutationMap.set`. -/
def setTracked (e : Entity) (k : String) (v : e.Value) : BoundedStore × Option CapacityError :=
  let previous := (s.store.collection e).get k
  let before := previous.bind (e.byteWeight k)
  match s.byteCapacity.replace before (e.byteWeight k v) with
  | (bytes, some error) => ({ s with byteCapacity := bytes }, some error)
  | (bytes, none) =>
    match s.claimEntry e k v previous with
    | .ok capacity => (⟨s.store.set e k v, capacity, bytes⟩, none)
    | .error error =>
      let undone := bytes.replace (e.byteWeight k v) before
      ({ s with byteCapacity := undone.1 }, some (undone.2.getD error))

/-- What the deletion of an entry gives back. -/
def releaseEntry (e : Entity) (k : String) (v : e.Value) : BoundedStore :=
  { s with
    capacity := s.capacity.release (e.teamIdForEntry k v)
    byteCapacity := (s.byteCapacity.replace (e.byteWeight k v) none).1 }

/-- `DurableMutationMap.delete`. -/
def deleteTracked (e : Entity) (k : String) : BoundedStore :=
  match (s.store.collection e).get k with
  | none => s
  | some v => { s.releaseEntry e k v with store := s.store.delete e k }

/-- `DurableMutationMap.clear`. -/
def clearTracked (e : Entity) : BoundedStore :=
  { (s.store.collection e).entries.foldl (fun s p ↦ s.releaseEntry e p.1 p.2) s with
    store := s.store.clear e }

/-- `TeamMemberCollectionMap.set`. -/
def setTeamMembers (teamId : String) (members : TeamMembers) :
    BoundedStore × Option CapacityError :=
  let previousSize : ℕ := ((s.store.teamMembers.get teamId).map (·.size)).getD 0
  let delta : ℤ := members.size - previousSize + if s.store.teamMembers.has teamId then 0 else 1
  match s.capacity.adjust delta (some teamId) with
  | .error error => (s, some error)
  | .ok capacity => ({ s with store := s.store.set .teamMembers teamId members, capacity }, none)

/-- `TeamMemberCollectionMap.delete`. -/
def deleteTeamMembers (teamId : String) : BoundedStore :=
  match s.store.teamMembers.get teamId with
  | none => s
  | some members =>
    { s with
      store := s.store.delete .teamMembers teamId
      capacity := s.capacity.giveBack (1 + members.size) (some teamId) }

/-- `TeamMemberCollectionMap.clear`. -/
def clearTeamMembers : BoundedStore :=
  s.store.teamMembers.keys.foldl deleteTeamMembers s

/-- `DurableMutationMap.set` of the membership map that the store holds. -/
def setMember (teamId userId : String) (member : TeamMemberRecord) :
    BoundedStore × Option CapacityError :=
  match s.store.teamMembers.get teamId with
  | none => (s, none)
  | some members =>
    match if members.has userId then s.capacity.move (some teamId) (some teamId)
      else s.capacity.claim (some teamId) with
    | .error error => (s, some error)
    | .ok capacity =>
      ({ s with
        store := s.store.set .teamMembers teamId (members.set userId member)
        capacity }, none)

/-- `DurableMutationMap.delete` of the membership map that the store holds. -/
def deleteMember (teamId userId : String) : BoundedStore :=
  match s.store.teamMembers.get teamId with
  | none => s
  | some members =>
    if members.has userId then
      { s with
        store := s.store.set .teamMembers teamId (members.delete userId)
        capacity := s.capacity.release (some teamId) }
    else s

/-- `DurableMutationMap.clear` of the membership map that the store holds. -/
def clearMembers (teamId : String) : BoundedStore :=
  match s.store.teamMembers.get teamId with
  | none => s
  | some members =>
    { s with
      store := s.store.update .teamMembers (s.store.teamMembers.set teamId .empty)
        (members.keys.map fun _ ↦ teamId)
      capacity := members.keys.foldl (fun c _ ↦ c.release (some teamId)) s.capacity }

end BoundedStore

/-- The operations on the durable collections. -/
inductive StoreOp
  | set (e : Entity) (k : String) (v : e.Value)
  | delete (e : Entity) (k : String)
  | clear (e : Entity)
  | setMember (teamId userId : String) (member : TeamMemberRecord)
  | deleteMember (teamId userId : String)
  | clearMembers (teamId : String)

/-- Carry out an operation. -/
def BoundedStore.apply (s : BoundedStore) : StoreOp → BoundedStore × Option CapacityError
  | .set .teamMembers teamId members => s.setTeamMembers teamId members
  | .set e k v => s.setTracked e k v
  | .delete .teamMembers teamId => (s.deleteTeamMembers teamId, none)
  | .delete e k => (s.deleteTracked e k, none)
  | .clear .teamMembers => (s.clearTeamMembers, none)
  | .clear e => (s.clearTracked e, none)
  | .setMember teamId userId member => s.setMember teamId userId member
  | .deleteMember teamId userId => (s.deleteMember teamId userId, none)
  | .clearMembers teamId => (s.clearMembers teamId, none)

end MultAIplayer
