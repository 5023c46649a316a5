import MultAIplayer.Relay.Publish
import MultAIplayer.Relay.Requests

/-!
# The accepted epoch of a room

The relay counts the Commits that it has accepted in a room. Only a publish advances the count
(`acceptedEpoch_publishForRoom`), by one, and for a Commit of the active host that is built on the
epoch that the count stands for. No request advances it (`Request.advancesNoRoom_handle`), whether
its save returns or throws.
-/

namespace MultAIplayer

namespace Records

variable {r r' r'' : Records}

/-- The accepted epoch of a room, zero where the relay knows none. -/
@[grind =] def acceptedEpoch (r : Records) (roomId : String) : ℕ :=
  ((r.rooms.get roomId).bind (·.acceptedMlsEpoch)).getD 0

theorem acceptedEpoch_of_get {roomId : String} {room : RoomRecord}
    (h : r.rooms.get roomId = some room) : r.acceptedEpoch roomId = room.acceptedMlsEpoch.getD 0 := by
  rw [acceptedEpoch, h]
  rfl

/-- Every room is kept under its own id, and none is further than in other records. -/
def RoomsWithin (r' r : Records) : Prop :=
  ∀ k room, r'.rooms.get k = some room →
    room.id = k ∧ room.acceptedMlsEpoch.getD 0 ≤ r.acceptedEpoch k

/-- Every room is kept under its own id. -/
abbrev RoomsNamed (r : Records) : Prop := r.RoomsWithin r

theorem RoomsWithin.acceptedEpoch_le (h : r'.RoomsWithin r) (roomId : String) :
    r'.acceptedEpoch roomId ≤ r.acceptedEpoch roomId := by
  cases hroom : r'.rooms.get roomId with
  | none =>
    rw [acceptedEpoch, hroom]
    exact Nat.zero_le _
  | some room =>
    rw [acceptedEpoch_of_get hroom]
    exact (h roomId room hroom).2

theorem RoomsWithin.trans (h' : r''.RoomsWithin r') (h : r'.RoomsWithin r) : r''.RoomsWithin r :=
  fun k room hroom ↦ ⟨(h' k room hroom).1, (h' k room hroom).2.trans (h.acceptedEpoch_le k)⟩

theorem RoomsWithin.named (h : r'.RoomsWithin r) : r'.RoomsNamed :=
  fun k room hroom ↦ ⟨(h k room hroom).1, (acceptedEpoch_of_get hroom).ge⟩

theorem RoomsWithin.of_rooms_eq (h : r.RoomsNamed) (hrooms : ∀ k, r'.rooms.get k = r.rooms.get k) :
    r'.RoomsWithin r :=
  fun k room hroom ↦ h k room (hrooms k ▸ hroom)

end Records

/-! ### Edits -/

/-- An edit that advances no room. -/
def StoreEdit.AdvancesNoRoom (r : Records) : StoreEdit → Prop
  | .set .rooms k room => room.id = k ∧ room.acceptedMlsEpoch.getD 0 ≤ r.acceptedEpoch k
  | _ => True

/-- A transaction that advances no room, whichever way it ends. -/
structure Transaction.AdvancesNoRoom (r : Records) (t : Transaction) : Prop where
  stage : ∀ d ∈ t.stage, d.AdvancesNoRoom r
  rollback : ∀ d ∈ t.rollback, d.AdvancesNoRoom r

namespace Records

variable {r r' : Records}

theorem RoomsWithin.edit (h : r'.RoomsWithin r) {d : StoreEdit} (hd : d.AdvancesNoRoom r) :
    (r'.edit d).RoomsWithin r := by
  intro k room hroom
  by_cases he : d.entity = .rooms
  · cases d with
    | set e i v =>
      obtain rfl : e = .rooms := he
      have hroom : ((r'.withCollection .rooms (r'.rooms.set i v)).collection .rooms).get k =
        some room := hroom
      rw [collection_withCollection_self, InsertionMap.get_set] at hroom
      split_ifs at hroom with hk
      · obtain rfl := Option.some.inj hroom
        exact hk ▸ hd
      · exact h k room hroom
    | delete e i =>
      obtain rfl : e = .rooms := he
      have hroom : ((r'.withCollection .rooms (r'.rooms.delete i)).collection .rooms).get k =
        some room := hroom
      rw [collection_withCollection_self, InsertionMap.get_delete] at hroom
      split_ifs at hroom
      exact h k room hroom
    | deleteWhere e p =>
      obtain rfl : e = .rooms := he
      have hroom : ((r'.withCollection .rooms (r'.rooms.filter fun k v ↦ !p k v)).collection
        .rooms).get k = some room := hroom
      rw [collection_withCollection_self, InsertionMap.get_filter] at hroom
      exact h k room (Option.filter_eq_some_iff.mp hroom).1
  · have hroom : ((r'.edit d).collection .rooms).get k = some room := hroom
    rw [collection_edit_of_ne he] at hroom
    exact h k room hroom

theorem RoomsWithin.editAll (h : r'.RoomsWithin r) {l : List StoreEdit}
    (hl : ∀ d ∈ l, d.AdvancesNoRoom r) : (r'.editAll l).RoomsWithin r := by
  induction l generalizing r' with
  | nil => exact h
  | cons d l ih =>
    exact ih (h.edit (hl d List.mem_cons_self)) fun d hd ↦ hl d (List.mem_cons_of_mem _ hd)

/-- A room with its id and its epoch advances nothing. -/
theorem RoomsWithin.setRoom (h : r.RoomsNamed) {k : String} {room room' : RoomRecord}
    (hroom : r.rooms.get k = some room) (hid : room'.id = room.id)
    (hepoch : room'.acceptedMlsEpoch.getD 0 ≤ room.acceptedMlsEpoch.getD 0) :
    (StoreEdit.setRoom room').AdvancesNoRoom r := by
  obtain ⟨rfl, hle⟩ := h k room hroom
  exact ⟨rfl, hid ▸ hepoch.trans hle⟩

/-- Rooms with their ids and their epochs advance nothing. -/
theorem RoomsWithin.setRooms (h : r.RoomsNamed) {l : List RoomRecord} (hl : l ⊆ r.rooms.values)
    (f : RoomRecord → RoomRecord)
    (hf : ∀ room, (f room).id = room.id ∧ (f room).acceptedMlsEpoch = room.acceptedMlsEpoch) :
    ∀ d ∈ l.map fun room ↦ StoreEdit.setRoom (f room), d.AdvancesNoRoom r := by
  intro d hd
  obtain ⟨room, hroom, rfl⟩ := List.mem_map.mp hd
  obtain ⟨k, hk⟩ := InsertionMap.mem_values_iff.mp (hl hroom)
  exact h.setRoom hk (hf room).1 (by rw [(hf room).2])

theorem advancesNoRoom_restoreEntries {e : Entity} (he : e ≠ .rooms)
    (m : InsertionMap String e.Value) : ∀ d ∈ MultAIplayer.restoreEntries m, d.AdvancesNoRoom r := by
  intro d hd
  obtain ⟨p, -, rfl⟩ := List.mem_map.mp hd
  cases e <;> first | exact absurd rfl he | trivial

theorem advancesNoRoom_revokeInviteArtifactsWhere (revoked : InviteRecord → Bool) :
    ∀ d ∈ r.revokeInviteArtifactsWhere revoked, d.AdvancesNoRoom r := by
  simp [revokeInviteArtifactsWhere, StoreEdit.AdvancesNoRoom]

end Records

@[simp] theorem RoomRecord.acceptedMlsEpoch_afterLifecycleAction (room : RoomRecord)
    (action : LifecycleAction) (now : Instant) :
    (room.afterLifecycleAction action now).acceptedMlsEpoch = room.acceptedMlsEpoch := by
  cases action <;> rfl

/-! ### Requests -/

namespace HttpContext

variable {x : HttpContext} {c : Commit} {teamId userId roomId : String}

theorem advancesNoRoom_removeTeamMember (h : x.records.RoomsNamed)
    (hc : x.removeTeamMember teamId userId = .commit c) :
    c.transaction.AdvancesNoRoom x.records := by
  obtain ⟨team, members, -, -, -, -, -, -, heq⟩ := removeTeamMember_eq_commit hc
  rw [heq]
  have hrooms : x.deletedRoomsHostedBy teamId userId ⊆ x.records.rooms.values :=
    List.filter_sublist.subset
  constructor
  · intro d hd
    rcases List.mem_append.mp hd with hd | hd
    · rcases List.mem_append.mp hd with hd | hd
      · exact h.setRooms hrooms (·.withoutHostIdentity "Former member") (fun _ ↦ ⟨rfl, rfl⟩) d hd
      · simp only [List.mem_cons, List.not_mem_nil, or_false] at hd
        rcases hd with rfl | rfl <;> trivial
    · exact Records.advancesNoRoom_revokeInviteArtifactsWhere _ d hd
  · intro d hd
    rcases List.mem_append.mp hd with hd | hd
    · rcases List.mem_append.mp hd with hd | hd
      · simp only [List.mem_cons, List.not_mem_nil, or_false] at hd
        rcases hd with rfl | rfl <;> trivial
      · exact h.setRooms hrooms id (fun _ ↦ ⟨rfl, rfl⟩) d hd
    · unfold restoreTeamInviteArtifacts at hd
      dsimp only at hd
      simp only [List.mem_append] at hd
      rcases hd with ((hd | hd) | hd) | hd <;>
        exact Records.advancesNoRoom_restoreEntries (by decide) _ d hd

theorem advancesNoRoom_teamLifecycle (h : x.records.RoomsNamed) {action : Option LifecycleAction}
    (hc : x.teamLifecycle teamId action = .commit c) : c.transaction.AdvancesNoRoom x.records := by
  obtain ⟨team, next, -, -, heq⟩ := teamLifecycle_eq_commit hc
  rw [heq]
  refine ⟨fun d hd ↦ ?_, List.forall_mem_nil _⟩
  rcases List.mem_cons.mp hd with rfl | hd
  · trivial
  · rcases List.mem_append.mp hd with hd | hd
    · exact h.setRooms List.filter_sublist.subset (·.afterLifecycleAction next x.now)
        (fun _ ↦ ⟨by cases next <;> rfl, by simp⟩) d hd
    · split_ifs at hd
      · exact Records.advancesNoRoom_revokeInviteArtifactsWhere _ d hd
      · cases hd

theorem advancesNoRoom_roomLifecycle (h : x.records.RoomsNamed) {name : String}
    {action : Option LifecycleAction} (hc : x.roomLifecycle roomId action userId name = .commit c) :
    c.transaction.AdvancesNoRoom x.records := by
  obtain ⟨room, next, hroom, heq⟩ := roomLifecycle_eq_commit hc
  rw [heq]
  refine ⟨List.forall_mem_cons.mpr ⟨?_, fun d hd ↦ ?_⟩, List.forall_mem_nil _⟩
  · exact h.setRoom hroom (by cases next <;> rfl) (by simp)
  · split_ifs at hd
    · exact Records.advancesNoRoom_revokeInviteArtifactsWhere _ d hd
    · cases hd

theorem advancesNoRoom_roomSettings (h : x.records.RoomsNamed) {body : RoomSettingsInput}
    (hc : x.roomSettings roomId body = .commit c) : c.transaction.AdvancesNoRoom x.records := by
  obtain ⟨room, hroom, heq⟩ := roomSettings_eq_commit hc
  rw [heq]
  exact ⟨List.forall_mem_singleton.mpr (h.setRoom hroom rfl (Nat.le_refl _)), List.forall_mem_nil _⟩

/-- A host that claims a room without an epoch starts its count at zero. -/
theorem advancesNoRoom_roomHost (h : x.records.RoomsNamed) {body : RoomHostInput}
    (hc : x.roomHost roomId body = .commit c) : c.transaction.AdvancesNoRoom x.records := by
  obtain ⟨room, deviceId, hroom, -, heq⟩ := roomHost_eq_commit hc
  rw [heq]
  exact ⟨List.forall_mem_singleton.mpr (h.setRoom hroom rfl (Nat.zero_le _)), List.forall_mem_nil _⟩

theorem advancesNoRoom_createRoom {id : String} {body : RoomCreationInput} {withinQuota : Bool}
    (hc : x.createRoom id body withinQuota = .commit c) :
    c.transaction.AdvancesNoRoom x.records := by
  obtain ⟨name, approvalPolicy, -, -, -, heq⟩ := createRoom_eq_commit hc
  rw [heq]
  exact ⟨List.forall_mem_singleton.mpr ⟨rfl, Nat.zero_le _⟩, List.forall_mem_singleton.mpr trivial⟩

theorem advancesNoRoom_acknowledgeInvite {inviteId requestId deviceId : String}
    {hasExactKeys : Bool}
    (hc : x.acknowledgeInvite inviteId requestId deviceId hasExactKeys = .commit c) :
    c.transaction.AdvancesNoRoom x.records := by
  obtain ⟨record, team, invite, -, -, -, -, -, -, heq⟩ := acknowledgeInvite_eq_commit hc
  rw [heq]
  constructor
  · intro d hd
    rcases List.mem_append.mp hd with hd | hd
    · split_ifs at hd
      · simp only [List.mem_cons, List.not_mem_nil, or_false] at hd
        rcases hd with rfl | rfl <;> trivial
      · cases hd
    · simp only [List.mem_cons, List.not_mem_nil, or_false] at hd
      rcases hd with rfl | rfl | rfl | rfl <;> trivial
  · intro d hd
    rcases List.mem_append.mp hd with hd | hd
    · simp only [List.mem_cons, List.not_mem_nil, or_false] at hd
      rcases hd with rfl | rfl | rfl | rfl | rfl <;> trivial
    · exact Records.advancesNoRoom_restoreEntries (by decide) _ d hd

theorem advancesNoRoom_replaceMembers (p : String) (members : TeamMembers) :
    ∀ d ∈ x.replaceMembers p members, d.AdvancesNoRoom x.records := by
  refine List.forall_mem_cons.mpr ⟨trivial, fun d hd ↦ ?_⟩
  obtain ⟨team, -, rfl⟩ := List.mem_map.mp hd
  trivial

theorem advancesNoRoom_deleteAccount (h : x.records.RoomsNamed) {isConfirmed : Bool}
    (hc : x.deleteAccount isConfirmed = .commit c) : c.transaction.AdvancesNoRoom x.records := by
  obtain ⟨session, -, -, -, heq, -⟩ := deleteAccount_eq_commit hc
  rw [heq]
  constructor
  · intro d hd
    simp only [deletionTransaction, deleteAccountOwnedRelayData, List.mem_append] at hd
    rcases hd with (((hd | hd) | hd) | hd) | hd
    · simp only [List.mem_cons, List.not_mem_nil, or_false] at hd
      rcases hd with rfl | rfl | rfl | rfl <;> trivial
    · obtain ⟨p, -, rfl⟩ := List.mem_map.mp hd
      trivial
    · obtain ⟨p, -, hd⟩ := List.mem_flatMap.mp hd
      exact advancesNoRoom_replaceMembers _ _ d hd
    · exact h.setRooms List.filter_sublist.subset (·.withoutHostIdentity "Deleted user")
        (fun _ ↦ ⟨rfl, rfl⟩) d hd
    · simp only [List.mem_cons, List.not_mem_nil, or_false] at hd
      rcases hd with rfl | rfl | rfl | rfl <;> trivial
  · intro d hd
    simp only [deletionTransaction, restoreAccountDeletionState, List.mem_append] at hd
    rcases hd with (((((((((hd | hd) | hd) | hd) | hd) | hd) | hd) | hd) | hd) | hd) | hd
    · exact Records.advancesNoRoom_restoreEntries (by decide) _ d hd
    · exact Records.advancesNoRoom_restoreEntries (by decide) _ d hd
    · exact Records.advancesNoRoom_restoreEntries (by decide) _ d hd
    · exact Records.advancesNoRoom_restoreEntries (by decide) _ d hd
    · exact h.setRooms List.filter_sublist.subset id (fun _ ↦ ⟨rfl, rfl⟩) d hd
    · exact Records.advancesNoRoom_restoreEntries (by decide) _ d hd
    · exact Records.advancesNoRoom_restoreEntries (by decide) _ d hd
    · exact Records.advancesNoRoom_restoreEntries (by decide) _ d hd
    · exact Records.advancesNoRoom_restoreEntries (by decide) _ d hd
    · obtain ⟨p, -, hd⟩ := List.mem_flatMap.mp hd
      exact advancesNoRoom_replaceMembers _ _ d hd
    · exact Records.advancesNoRoom_restoreEntries (by decide) _ d hd

end HttpContext

/-- **No request advances a room**, whether its save returns or throws. -/
theorem Request.advancesNoRoom_handle {x : HttpContext} {request : Request} {c : Commit}
    (h : x.records.RoomsNamed) (hc : request.handle x = .commit c) :
    c.transaction.AdvancesNoRoom x.records := by
  unfold Request.handle at hc
  split at hc
  · cases hc
  cases request with
  | removeTeamMember teamId userId => exact HttpContext.advancesNoRoom_removeTeamMember h hc
  | teamLifecycle teamId action => exact HttpContext.advancesNoRoom_teamLifecycle h hc
  | roomSettings roomId body => exact HttpContext.advancesNoRoom_roomSettings h hc
  | roomHost roomId body => exact HttpContext.advancesNoRoom_roomHost h hc
  | roomLifecycle roomId action userId name => exact HttpContext.advancesNoRoom_roomLifecycle h hc
  | createRoom id body withinQuota => exact HttpContext.advancesNoRoom_createRoom hc
  | acknowledgeInvite inviteId requestId deviceId hasExactKeys =>
    exact HttpContext.advancesNoRoom_acknowledgeInvite hc
  | deleteAccount isConfirmed => exact HttpContext.advancesNoRoom_deleteAccount h hc
  -- the others name no room
  | setTeamMemberRole teamId userId role =>
    obtain ⟨members, target, next, -, -, -, -, heq⟩ := HttpContext.setTeamMemberRole_eq_commit hc
    rw [heq]
    exact ⟨List.forall_mem_singleton.mpr trivial, List.forall_mem_nil _⟩
  | transferOwner teamId userId =>
    obtain ⟨members, target, -, -, heq⟩ := HttpContext.transferOwner_eq_commit hc
    rw [heq]
    exact ⟨List.forall_mem_singleton.mpr trivial, List.forall_mem_singleton.mpr trivial⟩
  | createTeam id name withinQuota =>
    obtain ⟨name, -, -, heq⟩ := HttpContext.createTeam_eq_commit hc
    rw [heq, HttpContext.teamCreationTransaction]
    refine ⟨?_, List.forall_mem_cons.mpr ⟨trivial, List.forall_mem_singleton.mpr trivial⟩⟩
    cases x.session with
    | none => exact List.forall_mem_singleton.mpr trivial
    | some session =>
      exact List.forall_mem_cons.mpr ⟨trivial, List.forall_mem_singleton.mpr trivial⟩
  | createInvite id teamId roomId =>
    obtain ⟨invite, rfl, -, -, -, -, heq⟩ := HttpContext.createInvite_eq_commit hc
    rw [heq]
    exact ⟨List.forall_mem_singleton.mpr trivial, List.forall_mem_singleton.mpr trivial⟩
  | getInvite inviteId =>
    obtain ⟨invite, -, heq⟩ := HttpContext.getInvite_eq_commit hc
    rw [heq]
    exact ⟨by simp [Records.deleteInviteArtifacts, StoreEdit.AdvancesNoRoom], List.forall_mem_nil _⟩
  | deleteRoomInvites teamId roomId =>
    rw [HttpContext.deleteRoomInvites_eq_commit hc]
    exact ⟨Records.advancesNoRoom_revokeInviteArtifactsWhere _, List.forall_mem_nil _⟩
  | requestInvite body =>
    obtain ⟨invite, request, -, -, -, -, -, -, -, heq⟩ := HttpContext.requestInvite_eq_commit hc
    rw [heq]
    exact ⟨List.forall_mem_singleton.mpr trivial, List.forall_mem_nil _⟩
  | respondInvite body =>
    obtain ⟨session, invite, room, request, record, -, -, -, -, -, -, -, -, -, -, heq⟩ :=
      HttpContext.respondInvite_eq_commit hc
    rw [heq]
    exact ⟨List.forall_mem_cons.mpr ⟨trivial, List.forall_mem_singleton.mpr trivial⟩,
      List.forall_mem_cons.mpr ⟨trivial, List.forall_mem_singleton.mpr trivial⟩⟩
  | uploadKeyPackages deviceId uploads withinBudget =>
    obtain ⟨accepted, heq, -⟩ := HttpContext.uploadKeyPackages_eq_commit hc
    rw [heq]
    constructor <;> intro d hd <;> obtain ⟨item, -, rfl⟩ := List.mem_map.mp hd <;> trivial
  | consumeKeyPackage input =>
    obtain ⟨teamId, invite, item, -, -, -, -, -, heq, -⟩ := HttpContext.consumeKeyPackage_eq_commit hc
    rw [heq]
    constructor <;> refine List.forall_mem_cons.mpr ⟨trivial, List.forall_mem_cons.mpr ⟨trivial, ?_⟩⟩ <;>
      exact List.forall_mem_singleton.mpr trivial
  | registerDevice identity =>
    obtain ⟨device, -, -, hstage, hrollback⟩ := HttpContext.registerDevice_eq_commit hc
    constructor
    · rw [hstage]
      exact List.forall_mem_singleton.mpr trivial
    · rw [hrollback]
      split <;> exact List.forall_mem_singleton.mpr trivial
  | issueVerifiedSession sessionIdHash user =>
    obtain ⟨-, -, heq⟩ := HttpContext.issueVerifiedSession_eq_commit hc
    rw [heq]
    refine ⟨List.forall_mem_append.mpr ⟨fun d hd ↦ ?_, List.forall_mem_singleton.mpr trivial⟩,
      List.forall_mem_cons.mpr ⟨trivial, fun d hd ↦ ?_⟩⟩ <;>
    · obtain ⟨p, -, rfl⟩ := List.mem_map.mp hd
      trivial
  | logout =>
    obtain ⟨session, -, heq⟩ := HttpContext.logout_eq_commit hc
    rw [heq]
    exact ⟨List.forall_mem_singleton.mpr trivial, List.forall_mem_nil _⟩
  | discardDeadSession sessionIdHash =>
    rw [HttpContext.discardDeadSession_eq_commit hc]
    exact ⟨List.forall_mem_singleton.mpr trivial, List.forall_mem_nil _⟩
  | restrictAccount restriction =>
    obtain ⟨-, hstage, hrollback⟩ := HttpContext.restrictAccount_eq_commit hc
    constructor
    · rw [hstage]
      exact List.forall_mem_singleton.mpr trivial
    · rw [hrollback]
      split <;> exact List.forall_mem_singleton.mpr trivial
  | unrestrictAccount userId =>
    obtain ⟨previous, -, heq⟩ := HttpContext.unrestrictAccount_eq_commit hc
    rw [heq]
    exact ⟨List.forall_mem_singleton.mpr trivial, List.forall_mem_singleton.mpr trivial⟩
  | evictAccount userId =>
    rw [← Handling.commit.inj hc]
    exact ⟨List.forall_mem_singleton.mpr trivial, List.forall_mem_nil _⟩

/-- The records after a transaction, whether its save returns or throws. -/
theorem Coordinator.roomsWithin_perform {c : RelayConfig} {now : Instant} {fault : WriteFault}
    {t : Transaction} {b : Coordinator} (h : b.store.toRecords.RoomsNamed)
    (ht : t.AdvancesNoRoom b.store.toRecords) :
    (b.perform c now fault t).1.store.toRecords.RoomsWithin b.store.toRecords := by
  have hstage : (b.store.editAll t.stage).toRecords.RoomsWithin b.store.toRecords := by
    rw [RelayStore.toRecords_editAll]
    exact h.editAll ht.stage
  have hsave := toRecords_savePendingChanges c now fault { b with store := b.store.editAll t.stage }
  unfold perform
  generalize { b with store := b.store.editAll t.stage }.savePendingChanges c now fault = result
    at hsave ⊢
  obtain ⟨saved, _ | error⟩ := result
  · rw [hsave]
    exact hstage
  · show (saved.store.editAll t.rollback).toRecords.RoomsWithin b.store.toRecords
    rw [RelayStore.toRecords_editAll, hsave]
    exact hstage.editAll ht.rollback

/-! ### Publishing -/

namespace Platform

variable {P : Platform} {now : Instant} {fault : WriteFault} {fits remainsAuthorized : Bool}
  {message : MlsRelayMessage} {b : Coordinator}

/-- **Only a Commit of the active host, built on the accepted epoch, advances its room**, by one. -/
theorem acceptedEpoch_publishForRoom (h : b.store.toRecords.RoomsNamed) :
    ((P.publishForRoom now fault fits remainsAuthorized message
        b).1.store.toRecords.RoomsWithin b.store.toRecords) ∨
      (message.messageType = .commit ∧
        message.epochHint = b.store.toRecords.acceptedEpoch message.roomId ∧
        (∃ room, b.store.rooms.get message.roomId = some room ∧
          room.isActiveHost message.senderUserId message.senderDeviceId = true) ∧
        (P.publishForRoom now fault fits remainsAuthorized message
          b).1.store.toRecords.RoomsNamed ∧
        ∀ roomId, (P.publishForRoom now fault fits remainsAuthorized message
          b).1.store.toRecords.acceptedEpoch roomId =
            if roomId = message.roomId then message.epochHint + 1
            else b.store.toRecords.acceptedEpoch roomId) := by
  have hnamed : ∀ room, b.store.rooms.get message.roomId = some room → room.id = message.roomId :=
    fun room hroom ↦ (h _ room hroom).1
  obtain ⟨-, hagrees⟩ | ⟨-, room, hdecide, heq⟩ := toRecords_publishForRoom_of_named hnamed
  · exact .inl (Records.RoomsWithin.of_rooms_eq h fun k ↦ hagrees .rooms k)
  · obtain ⟨-, -, -, -, hroom, hvalid⟩ := decidePublish_eq_stage hdecide
    have hrooms : (P.publishForRoom now fault fits remainsAuthorized message
        b).1.store.rooms = _ :=
      (congrArg Records.rooms heq).trans (rooms_stagePublish P now room message b.store)
    cases htype : message.messageType with
    | application =>
      refine .inl (Records.RoomsWithin.of_rooms_eq h fun k ↦ ?_)
      rw [hrooms, htype, if_neg (by decide)]
    | commit =>
      obtain ⟨hepoch, hhost, -⟩ := validatePublishAuthority_commit htype hvalid
      rw [htype, if_pos rfl, hnamed room hroom] at hrooms
      have hget : ∀ k, (P.publishForRoom now fault fits remainsAuthorized message
          b).1.store.rooms.get k = if k = message.roomId then
            some (roomAfterCommit room message (room.acceptedMlsEpoch.getD 0))
          else b.store.rooms.get k := by
        intro k
        rw [hrooms, InsertionMap.get_set]
      have hadvanced : (roomAfterCommit room message
          (room.acceptedMlsEpoch.getD 0)).acceptedMlsEpoch = some (message.epochHint + 1) := by
        rw [hepoch]
        unfold roomAfterCommit
        split_ifs <;> rfl
      refine .inr ⟨rfl, hepoch.trans (Records.acceptedEpoch_of_get hroom).symm,
        ⟨room, hroom, hhost⟩, fun k other hother ↦ ⟨?_, (Records.acceptedEpoch_of_get hother).ge⟩,
        fun k ↦ ?_⟩
      · rw [hget] at hother
        split_ifs at hother with hk
        · rw [← Option.some.inj hother, roomAfterCommit_id, hnamed room hroom, hk]
        · exact (h k other hother).1
      · rw [Records.acceptedEpoch, hget]
        split_ifs
        · rw [Option.bind_some, hadvanced]
          rfl
        · rfl

/-- What the relay says when it decides that a message has expired. -/
theorem decidePublish_eq_expired {r : Records} {text : String}
    (h : P.decidePublish r remainsAuthorized message =
      .refuse (.refused ⟨.applicationEpochExpired, text⟩)) :
    message.messageType = .application ∧
      2 < r.acceptedEpoch message.roomId - message.epochHint := by
  unfold decidePublish at h
  dsimp only at h
  split_ifs at h
  · cases h
  · cases h
  split at h
  · split at h <;> cases h
  split at h
  · split at h <;> cases h
  split at h
  · cases h
  rename_i room hroom
  rw [Records.acceptedEpoch_of_get hroom]
  split at h
  · rename_i error hvalid
    obtain rfl : error = _ := by simpa using h
    unfold validatePublishAuthority at hvalid
    split_ifs at hvalid with hcommit hahead hexpired
    · simp at hvalid
    · simp at hvalid
    · exact hexpired
    all_goals simp at hvalid
  · cases h

/-- **A publish is refused as expired only outside the window** of two epochs. -/
theorem publishForRoom_eq_expired {text : String}
    (h : (P.publishForRoom now fault fits remainsAuthorized message b).2 =
      .failed (.refused ⟨.applicationEpochExpired, text⟩)) :
    message.messageType = .application ∧
      2 < b.store.toRecords.acceptedEpoch message.roomId - message.epochHint := by
  unfold publishForRoom at h
  dsimp only at h
  split at h
  · cases h
  · rename_i error hdecide
    obtain rfl : error = _ := by simpa using h
    exact decidePublish_eq_expired hdecide
  · split at h
    · simp at h
    · split at h
      · cases h
      · simp [RelayPublishError.competingCommit] at h
      · simp at h

end Platform

end MultAIplayer
