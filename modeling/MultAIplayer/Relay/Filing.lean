import MultAIplayer.Relay.Keys
import MultAIplayer.Relay.Requests

/-!
# Records under the keys that they name

Every record names the key that it is kept under: its own id, or a key that is made of several of its
fields. The loader refuses a row that does not (`storageKeyForRow`), so a relay that stored one could
not be started again.

No route breaks this (`isFiled_handle`), as long as the ids that the relay draws itself are of the
alphabet that `nanoid` draws from.
-/

namespace MultAIplayer

/-- A record that names the key that it is kept under. -/
def Entity.Files : (e : Entity) → String → e.Value → Prop
  | .teams, k, team => team.id = k ∧ matchesRelayIdPattern k = true
  | .rooms, k, room => room.id = k ∧ matchesRelayIdPattern k = true ∧
      matchesRelayIdPattern room.teamId = true
  | .invites, k, invite => invite.id = k ∧ k ≠ ""
  | .inviteRequests, k, request => request.requestId = k ∧ k ≠ ""
  | .inviteResponses, k, response => response.requestId = k ∧ k ≠ ""
  | .inviteAckReceipts, k, receipt => receipt.requestId = k ∧ k ≠ ""
  | .devices, k, device => deviceKey device.userId device.deviceId = k ∧ device.userId ≠ "" ∧
      device.deviceId ≠ ""
  | .keyPackages, k, keyPackage => keyPackage.id = k ∧ k ≠ "" ∧ keyPackage.keyPackageHash ≠ ""
  | .consumedKeyPackages, k, consumed => consumed.keyPackageHash = k ∧ k ≠ ""
  | .authSessions, k, session => session.sessionIdHash = k ∧ k ≠ ""
  | .accountRestrictions, k, restriction => restriction.userId = k ∧ k ≠ ""
  | .accountQuotaRecords, k, quota => quota.key = k ∧ k ≠ ""
  | .attachmentBlobs, k, blob => blob.id = k ∧ k ≠ ""
  | .acceptedMessageReceipts, k, receipt => receiptKey receipt.roomKey receipt.messageId = k ∧
      receipt.messageId ≠ "" ∧ ∃ teamId roomId : RelayId, receipt.roomKey = roomKey teamId roomId
  | .teamMembers, k, members => matchesRelayIdPattern k = true ∧
      ∀ userId member, members.get userId = some member → member.teamId = k ∧ member.userId = userId
  | .mlsBacklog, k, messages => ∀ m ∈ messages, roomKey m.teamId m.roomId = k ∧ m.id ≠ ""

/-- Every record names the key that it is kept under. -/
def Records.Filed (r : Records) : Prop :=
  ∀ e k v, (r.collection e).get k = some v → e.Files k v

/-- An edit that keeps every record under the key that it names. -/
@[grind =] def StoreEdit.IsFiled : StoreEdit → Prop
  | .set e k v => e.Files k v
  | .delete _ _ | .deleteWhere _ _ => True

/-- A transaction that keeps every record under the key that it names, whichever way it ends. -/
structure Transaction.IsFiled (t : Transaction) : Prop where
  stage : ∀ d ∈ t.stage, d.IsFiled
  rollback : ∀ d ∈ t.rollback, d.IsFiled

namespace Records

variable {r : Records}

theorem filed_empty : ({} : Records).Filed := fun e k v hv ↦ by cases e <;> cases hv

theorem Filed.edit (h : r.Filed) {d : StoreEdit} (hd : d.IsFiled) : (r.edit d).Filed := by
  intro e k v hv
  by_cases he : d.entity = e
  · subst he
    cases d with
    | set f i w =>
      change ((r.withCollection f _).collection f).get k = some v at hv
      rw [collection_withCollection_self, InsertionMap.get_set] at hv
      split_ifs at hv with hk
      · rw [hk, ← Option.some.inj hv]
        exact hd
      · exact h f k v hv
    | delete f i =>
      change ((r.withCollection f _).collection f).get k = some v at hv
      rw [collection_withCollection_self, InsertionMap.get_delete] at hv
      split_ifs at hv
      exact h f k v hv
    | deleteWhere f p =>
      change ((r.withCollection f _).collection f).get k = some v at hv
      rw [collection_withCollection_self, InsertionMap.get_filter] at hv
      exact h f k v (Option.filter_eq_some_iff.mp hv).1
  · rw [collection_edit_of_ne he] at hv
    exact h e k v hv

theorem Filed.editAll (h : r.Filed) {l : List StoreEdit} (hl : ∀ d ∈ l, d.IsFiled) :
    (r.editAll l).Filed := by
  induction l generalizing r with
  | nil => exact h
  | cons d l ih =>
    exact ih (h.edit (hl d List.mem_cons_self)) fun d hd ↦ hl d (List.mem_cons_of_mem _ hd)

theorem Filed.keyed (h : r.Filed) : r.Keyed := by
  intro e k v hv j hj
  have hfiles := h e k v hv
  cases e with
  | teams | rooms | invites | inviteRequests | inviteResponses | keyPackages | consumedKeyPackages
  | devices =>
    obtain rfl := Option.mem_some_iff.mp hj
    exact hfiles.1
  | _ => cases hj

theorem Filed.team (h : r.Filed) {k : String} {team : TeamRecord}
    (hteam : r.teams.get k = some team) : team.id = k ∧ matchesRelayIdPattern k = true :=
  h .teams k team hteam

theorem Filed.members (h : r.Filed) {k : String} {members : TeamMembers}
    (hmembers : r.teamMembers.get k = some members) :
    matchesRelayIdPattern k = true ∧ ∀ userId member, members.get userId = some member →
      member.teamId = k ∧ member.userId = userId :=
  h .teamMembers k members hmembers

theorem Filed.keyPackage (h : r.Filed) {k : String} {keyPackage : KeyPackageRecord}
    (hkeyPackage : r.keyPackages.get k = some keyPackage) :
    keyPackage.id = k ∧ k ≠ "" ∧ keyPackage.keyPackageHash ≠ "" :=
  h .keyPackages k keyPackage hkeyPackage

theorem Filed.device (h : r.Filed) {k : String} {device : DeviceRecord}
    (hdevice : r.devices.get k = some device) :
    deviceKey device.userId device.deviceId = k ∧ device.userId ≠ "" ∧ device.deviceId ≠ "" :=
  h .devices k device hdevice

/-! ### Edits -/

/-- What the records hold can be set again. -/
theorem Filed.restoreEntries (h : r.Filed) {e : Entity} {m : InsertionMap String e.Value}
    (hm : ∀ k v, m.get k = some v → (r.collection e).get k = some v) :
    ∀ d ∈ restoreEntries m, d.IsFiled := by
  intro d hd
  obtain ⟨p, hp, rfl⟩ := List.mem_map.mp hd
  exact h e p.1 p.2 (hm _ _ (InsertionMap.mem_entries_iff.mp hp))

theorem Filed.restoreEntries_filter (h : r.Filed) {e : Entity} (p : String → e.Value → Bool) :
    ∀ d ∈ MultAIplayer.restoreEntries (e := e) ((r.collection e).filter p), d.IsFiled :=
  h.restoreEntries fun k v hv ↦ by
    rw [InsertionMap.get_filter] at hv
    exact (Option.filter_eq_some_iff.mp hv).1

/-- A team with its id is under its key. -/
theorem Filed.setTeam (h : r.Filed) {k : String} {team team' : TeamRecord}
    (hteam : r.teams.get k = some team) (hid : team'.id = team.id) :
    (StoreEdit.setTeam team').IsFiled := by
  obtain ⟨rfl, hk⟩ := h.team hteam
  exact ⟨rfl, hid ▸ hk⟩

theorem Filed.setRoom (h : r.Filed) {k : String} {room room' : RoomRecord}
    (hroom : r.rooms.get k = some room) (hid : room'.id = room.id)
    (hteamId : room'.teamId = room.teamId) : (StoreEdit.setRoom room').IsFiled := by
  obtain ⟨rfl, hk, hteam⟩ : room.id = k ∧ matchesRelayIdPattern k = true ∧
    matchesRelayIdPattern room.teamId = true := h .rooms k room hroom
  exact ⟨rfl, hid ▸ hk, hteamId ▸ hteam⟩

/-- Rooms are under their keys with another host. -/
theorem Filed.setRooms (h : r.Filed) {l : List RoomRecord} (hl : l ⊆ r.rooms.values)
    (f : RoomRecord → RoomRecord) (hf : ∀ room, (f room).id = room.id ∧
      (f room).teamId = room.teamId) : ∀ d ∈ l.map fun room ↦ StoreEdit.setRoom (f room),
        d.IsFiled := by
  intro d hd
  obtain ⟨room, hroom, rfl⟩ := List.mem_map.mp hd
  obtain ⟨k, hk⟩ := InsertionMap.mem_values_iff.mp (hl hroom)
  exact h.setRoom hk (hf room).1 (hf room).2

theorem isFiled_setTeamMembers {k : String} {members : TeamMembers}
    (hk : matchesRelayIdPattern k = true)
    (hmembers : ∀ userId member, members.get userId = some member →
      member.teamId = k ∧ member.userId = userId) : (StoreEdit.setTeamMembers k members).IsFiled :=
  ⟨hk, hmembers⟩

/-- The members without one of them. -/
theorem Filed.setTeamMembers_delete (h : r.Filed) {k userId : String} {members : TeamMembers}
    (hmembers : r.teamMembers.get k = some members) :
    (StoreEdit.setTeamMembers k (members.delete userId)).IsFiled := by
  refine isFiled_setTeamMembers (h.members hmembers).1 fun other member hmember ↦ ?_
  rw [InsertionMap.get_delete] at hmember
  split_ifs at hmember
  exact (h.members hmembers).2 other member hmember

/-- The members with one of them, or with a new one. -/
theorem Filed.setTeamMembers_set (h : r.Filed) {k : String} {members : TeamMembers}
    {member : TeamMemberRecord} (hmembers : r.teamMembers.get k = some members)
    (hmember : member.teamId = k) :
    (StoreEdit.setTeamMembers k (members.set member.userId member)).IsFiled := by
  refine isFiled_setTeamMembers (h.members hmembers).1 fun other found hfound ↦ ?_
  rw [InsertionMap.get_set] at hfound
  split_ifs at hfound with hother
  · obtain rfl := Option.some.inj hfound
    exact ⟨hmember, hother.symm⟩
  · exact (h.members hmembers).2 other found hfound

theorem isFiled_revokeInviteArtifactsWhere (revoked : InviteRecord → Bool) :
    ∀ d ∈ r.revokeInviteArtifactsWhere revoked, d.IsFiled := by
  simp [revokeInviteArtifactsWhere, StoreEdit.IsFiled]

end Records

/-! ### Requests -/

/-- The ids that the relay draws for a request, and the device that `normalizeDeviceRegistration`
reads, are what they should be. -/
def Request.DrawsIds : Request → Prop
  | .createTeam id _ _ | .createRoom id _ _ => matchesRelayIdPattern id = true
  | .createInvite id _ _ | .issueVerifiedSession id _ => id ≠ ""
  | .registerDevice identity => identity.userId ≠ "" ∧ identity.deviceId ≠ ""
  | _ => True

namespace HttpContext

variable {x : HttpContext} {c : Commit} {teamId userId : String}

theorem isFiled_setTeamMemberRole (h : x.records.Filed) {role : Option TeamRole}
    (hc : x.setTeamMemberRole teamId userId role = .commit c) : c.transaction.IsFiled := by
  obtain ⟨members, target, next, hmembers, htarget, -, -, heq⟩ := setTeamMemberRole_eq_commit hc
  rw [heq]
  obtain ⟨hteam, rfl⟩ := (h.members hmembers).2 userId target htarget
  refine ⟨List.forall_mem_singleton.mpr ?_, List.forall_mem_nil _⟩
  have hmember : ({ target with role := next } : TeamMemberRecord).teamId = teamId := hteam
  exact h.setTeamMembers_set hmembers hmember

theorem isFiled_transferOwner (h : x.records.Filed) (hc : x.transferOwner teamId userId = .commit c) :
    c.transaction.IsFiled := by
  obtain ⟨members, target, hmembers, -, heq⟩ := transferOwner_eq_commit hc
  rw [heq]
  have hfiled := h.members hmembers
  refine ⟨List.forall_mem_singleton.mpr ?_, List.forall_mem_singleton.mpr hfiled⟩
  refine Records.isFiled_setTeamMembers hfiled.1 fun other member hmember ↦ ?_
  rw [transferTeamOwnership, InsertionMap.get_mapValues] at hmember
  obtain ⟨before, hbefore, rfl⟩ := Option.map_eq_some_iff.mp hmember
  have hown := hfiled.2 other before hbefore
  split_ifs <;> exact hown

theorem isFiled_removeTeamMember (h : x.records.Filed)
    (hc : x.removeTeamMember teamId userId = .commit c) : c.transaction.IsFiled := by
  obtain ⟨team, members, target, hteam, hmembers, -, -, -, heq⟩ := removeTeamMember_eq_commit hc
  rw [heq]
  have hrooms : x.deletedRoomsHostedBy teamId userId ⊆ x.records.rooms.values :=
    List.filter_sublist.subset
  constructor
  · intro d hd
    rcases List.mem_append.mp hd with hd | hd
    · rcases List.mem_append.mp hd with hd | hd
      · exact h.setRooms hrooms (·.withoutHostIdentity "Former member") (fun _ ↦ ⟨rfl, rfl⟩) d hd
      · rcases List.mem_cons.mp hd with rfl | hd
        · exact h.setTeamMembers_delete hmembers
        · rw [List.mem_singleton.mp hd]
          exact h.setTeam hteam rfl
    · exact Records.isFiled_revokeInviteArtifactsWhere _ d hd
  · intro d hd
    rcases List.mem_append.mp hd with hd | hd
    · rcases List.mem_append.mp hd with hd | hd
      · rcases List.mem_cons.mp hd with rfl | hd
        · exact h.members hmembers
        · rw [List.mem_singleton.mp hd]
          exact h.setTeam hteam rfl
      · exact h.setRooms hrooms id (fun _ ↦ ⟨rfl, rfl⟩) d hd
    · unfold restoreTeamInviteArtifacts at hd
      dsimp only at hd
      simp only [List.mem_append] at hd
      rcases hd with ((hd | hd) | hd) | hd
      · exact h.restoreEntries_filter (e := .invites) _ d hd
      · exact h.restoreEntries_filter (e := .inviteRequests) _ d hd
      · exact h.restoreEntries_filter (e := .inviteResponses) _ d hd
      · exact h.restoreEntries_filter (e := .inviteAckReceipts) _ d hd

theorem isFiled_teamLifecycle (h : x.records.Filed) {action : Option LifecycleAction}
    (hc : x.teamLifecycle teamId action = .commit c) : c.transaction.IsFiled := by
  obtain ⟨team, next, hteam, -, heq⟩ := teamLifecycle_eq_commit hc
  rw [heq]
  refine ⟨fun d hd ↦ ?_, List.forall_mem_nil _⟩
  rcases List.mem_cons.mp hd with rfl | hd
  · exact h.setTeam hteam (by cases next <;> rfl)
  · rcases List.mem_append.mp hd with hd | hd
    · exact h.setRooms List.filter_sublist.subset (·.afterLifecycleAction next x.now)
        (fun _ ↦ by cases next <;> exact ⟨rfl, rfl⟩) d hd
    · split_ifs at hd
      · exact Records.isFiled_revokeInviteArtifactsWhere _ d hd
      · cases hd

theorem isFiled_createTeam {id name : String} {withinQuota : Bool}
    (hid : matchesRelayIdPattern id = true) (hc : x.createTeam id name withinQuota = .commit c) :
    c.transaction.IsFiled := by
  obtain ⟨name, -, -, heq⟩ := createTeam_eq_commit hc
  rw [heq]
  have hteam : (StoreEdit.setTeam (x.createdTeam id name)).IsFiled := ⟨rfl, hid⟩
  refine ⟨?_, by simp [teamCreationTransaction, StoreEdit.IsFiled]⟩
  unfold teamCreationTransaction
  cases x.session with
  | none => exact List.forall_mem_singleton.mpr hteam
  | some session =>
    refine List.forall_mem_cons.mpr ⟨hteam, List.forall_mem_singleton.mpr ?_⟩
    refine Records.isFiled_setTeamMembers hid fun other member hmember ↦ ?_
    unfold foundingMembers at hmember
    rw [InsertionMap.get_set] at hmember
    split_ifs at hmember with hother
    · rw [← Option.some.inj hmember]
      exact ⟨rfl, hother.symm⟩
    · cases hmember

theorem isFiled_roomLifecycle (h : x.records.Filed) {roomId userId name : String}
    {action : Option LifecycleAction} (hc : x.roomLifecycle roomId action userId name = .commit c) :
    c.transaction.IsFiled := by
  obtain ⟨room, next, hroom, heq⟩ := roomLifecycle_eq_commit hc
  rw [heq]
  refine ⟨List.forall_mem_cons.mpr ⟨?_, fun d hd ↦ ?_⟩, List.forall_mem_nil _⟩
  · exact h.setRoom hroom (by cases next <;> rfl) (by cases next <;> rfl)
  · split_ifs at hd
    · exact Records.isFiled_revokeInviteArtifactsWhere _ d hd
    · cases hd

theorem isFiled_createRoom (h : x.records.Filed) {id : String} {body : RoomCreationInput}
    {withinQuota : Bool} (hid : matchesRelayIdPattern id = true)
    (hc : x.createRoom id body withinQuota = .commit c) : c.transaction.IsFiled := by
  obtain ⟨name, approvalPolicy, -, -, hteam, heq⟩ := createRoom_eq_commit hc
  obtain ⟨team, hteam⟩ := Option.isSome_iff_exists.mp hteam
  rw [heq]
  exact ⟨List.forall_mem_singleton.mpr ⟨rfl, hid, (h.team hteam).2⟩,
    List.forall_mem_singleton.mpr trivial⟩

theorem isFiled_acknowledgeInvite (h : x.records.Filed) {inviteId requestId deviceId : String}
    {hasExactKeys : Bool}
    (hc : x.acknowledgeInvite inviteId requestId deviceId hasExactKeys = .commit c) :
    c.transaction.IsFiled := by
  obtain ⟨record, team, invite, hrecord, -, hteam, hinvite, -, -, heq⟩ :=
    acknowledgeInvite_eq_commit hc
  obtain ⟨hrequestId, hne⟩ : record.requestId = requestId ∧ requestId ≠ "" :=
    h .inviteResponses requestId record hrecord
  obtain ⟨hteamId, hplain⟩ := h.team hteam
  rw [← hteamId] at hteam hplain
  have hmembers : ∀ userId member, ((x.records.teamMembers.get team.id).getD .empty).get userId =
      some member → member.teamId = team.id ∧ member.userId = userId := by
    intro userId member hmember
    cases hget : x.records.teamMembers.get team.id with
    | none =>
      rw [hget] at hmember
      cases hmember
    | some members =>
      rw [hget] at hmember
      exact (h.members hget).2 userId member hmember
  rw [heq]
  constructor
  · intro d hd
    rcases List.mem_append.mp hd with hd | hd
    · split_ifs at hd
      · rcases List.mem_cons.mp hd with rfl | hd
        · refine Records.isFiled_setTeamMembers hplain fun userId member hmember ↦ ?_
          unfold withRequester at hmember
          split_ifs at hmember
          · exact hmembers userId member hmember
          · rw [InsertionMap.get_set] at hmember
            split_ifs at hmember with hown
            · rw [← Option.some.inj hmember]
              exact ⟨rfl, hown.symm⟩
            · exact hmembers userId member hmember
        · rw [List.mem_singleton.mp hd]
          exact h.setTeam hteam rfl
      · cases hd
    · simp only [List.mem_cons, List.not_mem_nil, or_false] at hd
      rcases hd with rfl | rfl | rfl | rfl
      · trivial
      · trivial
      · exact ⟨rfl, hrequestId ▸ hne⟩
      · trivial
  · intro d hd
    rcases List.mem_append.mp hd with hd | hd
    · simp only [List.mem_cons, List.not_mem_nil, or_false] at hd
      rcases hd with rfl | rfl | rfl | rfl | rfl
      · exact ⟨rfl, hrequestId ▸ hne⟩
      · exact Records.isFiled_setTeamMembers hplain hmembers
      · exact h.setTeam hteam rfl
      · obtain ⟨hid, hne⟩ : invite.id = record.inviteId ∧ record.inviteId ≠ "" :=
          h .invites record.inviteId invite hinvite
        exact ⟨rfl, hid ▸ hne⟩
      · trivial
    · exact h.restoreEntries (e := .inviteAckReceipts) (fun _ _ hget ↦ hget) d hd

theorem isFiled_respondInvite (h : x.records.Filed) {body : InviteResponseInput}
    (hc : x.respondInvite body = .commit c) : c.transaction.IsFiled := by
  obtain ⟨session, invite, room, request, record, -, -, -, -, hrequest, -, -, hcandidate, -, -, heq⟩ :=
    respondInvite_eq_commit hc
  have hfiled : request.requestId = body.requestId ∧ body.requestId ≠ "" :=
    h .inviteRequests body.requestId request hrequest
  have hne : request.requestId ≠ "" := hfiled.1 ▸ hfiled.2
  have hrecord : record.requestId = request.requestId := by
    unfold inviteResponseCandidate at hcandidate
    split at hcandidate
    · rw [← Option.some.inj hcandidate]
    · cases hcandidate
  rw [heq]
  refine ⟨List.forall_mem_cons.mpr ⟨trivial, List.forall_mem_singleton.mpr ⟨rfl, hrecord ▸ hne⟩⟩,
    List.forall_mem_cons.mpr ⟨trivial, List.forall_mem_singleton.mpr ⟨rfl, hne⟩⟩⟩

theorem isFiled_consumeKeyPackage (h : x.records.Filed) {input : ConsumptionInput}
    (hc : x.consumeKeyPackage input = .commit c) : c.transaction.IsFiled := by
  obtain ⟨teamId, invite, item, hinvite, -, hitem, -, -, heq, -⟩ := consumeKeyPackage_eq_commit hc
  obtain ⟨hid, hne, hhash⟩ := h.keyPackage hitem
  obtain ⟨hinviteId, hinviteNe⟩ : invite.id = input.inviteId ∧ input.inviteId ≠ "" :=
    h .invites input.inviteId invite hinvite
  rw [heq]
  constructor
  · refine List.forall_mem_cons.mpr ⟨trivial, List.forall_mem_cons.mpr ⟨⟨rfl, hhash⟩, ?_⟩⟩
    exact List.forall_mem_singleton.mpr ⟨rfl, hinviteId ▸ hinviteNe⟩
  · refine List.forall_mem_cons.mpr ⟨trivial, List.forall_mem_cons.mpr ⟨⟨rfl, hid ▸ hne, hhash⟩, ?_⟩⟩
    exact List.forall_mem_singleton.mpr ⟨rfl, hinviteId ▸ hinviteNe⟩

theorem isFiled_registerDevice (h : x.records.Filed) {identity : DeviceRecord}
    (hids : identity.userId ≠ "" ∧ identity.deviceId ≠ "")
    (hc : x.registerDevice identity = .commit c) : c.transaction.IsFiled := by
  obtain ⟨device, huser, hdevice, hstage, hrollback⟩ := registerDevice_eq_commit hc
  refine ⟨?_, ?_⟩
  · rw [hstage]
    exact List.forall_mem_singleton.mpr ⟨rfl, huser ▸ hids.1, hdevice ▸ hids.2⟩
  · rw [hrollback]
    split
    · rename_i existing hexisting
      exact List.forall_mem_singleton.mpr ⟨rfl, (h.device hexisting).2⟩
    · exact List.forall_mem_singleton.mpr trivial

theorem isFiled_replaceMembers (h : x.records.Filed) {p : String × TeamMembers}
    {members : TeamMembers} (hmembers : (StoreEdit.setTeamMembers p.1 members).IsFiled) :
    ∀ d ∈ x.replaceMembers p.1 members, d.IsFiled := by
  refine List.forall_mem_cons.mpr ⟨hmembers, fun d hd ↦ ?_⟩
  obtain ⟨team, hteam, rfl⟩ := List.mem_map.mp hd
  exact h.setTeam (Option.mem_toList.mp hteam) rfl

theorem isFiled_deleteAccount (h : x.records.Filed) {isConfirmed : Bool}
    (hc : x.deleteAccount isConfirmed = .commit c) : c.transaction.IsFiled := by
  obtain ⟨session, -, -, -, heq, -⟩ := deleteAccount_eq_commit hc
  have hmember : ∀ p ∈ x.membershipsOf session.user.id, x.records.teamMembers.get p.1 = some p.2 :=
    fun p hp ↦ InsertionMap.mem_entries_iff.mp (List.mem_filter.mp hp).1
  rw [heq]
  constructor
  · intro d hd
    simp only [deletionTransaction, deleteAccountOwnedRelayData, List.mem_append] at hd
    rcases hd with (((hd | hd) | hd) | hd) | hd
    · simp only [List.mem_cons, List.not_mem_nil, or_false] at hd
      rcases hd with rfl | rfl | rfl | rfl <;> trivial
    · obtain ⟨p, hp, rfl⟩ := List.mem_map.mp hd
      have hget := InsertionMap.mem_entries_iff.mp hp
      rw [consumedKeyPackagesOf, InsertionMap.get_filter] at hget
      have hfiled : p.2.keyPackageHash = p.1 ∧ p.1 ≠ "" :=
        h .consumedKeyPackages p.1 p.2 (Option.filter_eq_some_iff.mp hget).1
      exact ⟨rfl, hfiled.2⟩
    · obtain ⟨p, hp, hd⟩ := List.mem_flatMap.mp hd
      exact isFiled_replaceMembers h (h.setTeamMembers_delete (hmember p hp)) d hd
    · exact h.setRooms List.filter_sublist.subset (·.withoutHostIdentity "Deleted user")
        (fun _ ↦ ⟨rfl, rfl⟩) d hd
    · simp only [List.mem_cons, List.not_mem_nil, or_false] at hd
      rcases hd with rfl | rfl | rfl | rfl <;> trivial
  · intro d hd
    simp only [deletionTransaction, restoreAccountDeletionState, List.mem_append] at hd
    rcases hd with (((((((((hd | hd) | hd) | hd) | hd) | hd) | hd) | hd) | hd) | hd) | hd
    · exact h.restoreEntries_filter (e := .authSessions) _ d hd
    · exact h.restoreEntries_filter (e := .devices) _ d hd
    · exact h.restoreEntries_filter (e := .keyPackages) _ d hd
    · exact h.restoreEntries_filter (e := .consumedKeyPackages) _ d hd
    · exact h.setRooms List.filter_sublist.subset id (fun _ ↦ ⟨rfl, rfl⟩) d hd
    · exact h.restoreEntries_filter (e := .invites) _ d hd
    · exact h.restoreEntries_filter (e := .inviteRequests) _ d hd
    · exact h.restoreEntries_filter (e := .inviteResponses) _ d hd
    · exact h.restoreEntries_filter (e := .inviteAckReceipts) _ d hd
    · obtain ⟨p, hp, hd⟩ := List.mem_flatMap.mp hd
      have hfiled := h.members (hmember p hp)
      refine isFiled_replaceMembers h (Records.isFiled_setTeamMembers hfiled.1
        fun userId member hget ↦ ?_) d hd
      unfold withMemberBack at hget
      split at hget
      · rename_i back hback
        rw [InsertionMap.get_set] at hget
        split_ifs at hget with hown
        · obtain rfl := Option.some.inj hget
          rw [hown]
          exact hfiled.2 _ back hback
        · rw [InsertionMap.get_delete, if_neg hown] at hget
          exact hfiled.2 userId member hget
      · exact hfiled.2 userId member hget
    · exact h.restoreEntries_filter (e := .accountQuotaRecords) _ d hd

theorem isFiled_issueVerifiedSession (h : x.records.Filed) {sessionIdHash : String}
    {user : AuthUser} (hne : sessionIdHash ≠ "")
    (hc : x.issueVerifiedSession sessionIdHash user = .commit c) : c.transaction.IsFiled := by
  obtain ⟨-, -, heq⟩ := issueVerifiedSession_eq_commit hc
  rw [heq]
  constructor
  · intro d hd
    rcases List.mem_append.mp hd with hd | hd
    · obtain ⟨p, -, rfl⟩ := List.mem_map.mp hd
      trivial
    · rw [List.mem_singleton.mp hd]
      exact ⟨rfl, hne⟩
  · refine List.forall_mem_cons.mpr ⟨trivial, fun d hd ↦ ?_⟩
    obtain ⟨p, hp, rfl⟩ := List.mem_map.mp hd
    exact h .authSessions p.1 p.2 (mem_selectAuthSessionsToEvict hp).1

theorem isFiled_roomSettings (h : x.records.Filed) {roomId : String} {body : RoomSettingsInput}
    (hc : x.roomSettings roomId body = .commit c) : c.transaction.IsFiled := by
  obtain ⟨room, hroom, heq⟩ := roomSettings_eq_commit hc
  rw [heq]
  exact ⟨List.forall_mem_singleton.mpr (h.setRoom hroom rfl rfl), List.forall_mem_nil _⟩

theorem isFiled_roomHost (h : x.records.Filed) {roomId : String} {body : RoomHostInput}
    (hc : x.roomHost roomId body = .commit c) : c.transaction.IsFiled := by
  obtain ⟨room, deviceId, hroom, -, heq⟩ := roomHost_eq_commit hc
  rw [heq]
  exact ⟨List.forall_mem_singleton.mpr (h.setRoom hroom rfl rfl), List.forall_mem_nil _⟩

theorem isFiled_createInvite {id roomId : String} (hid : id ≠ "")
    (hc : x.createInvite id teamId roomId = .commit c) : c.transaction.IsFiled := by
  obtain ⟨invite, rfl, -, -, -, -, heq⟩ := createInvite_eq_commit hc
  rw [heq]
  exact ⟨List.forall_mem_singleton.mpr ⟨rfl, hid⟩, List.forall_mem_singleton.mpr trivial⟩

theorem isFiled_getInvite {inviteId : String} (hc : x.getInvite inviteId = .commit c) :
    c.transaction.IsFiled := by
  obtain ⟨invite, -, heq⟩ := getInvite_eq_commit hc
  rw [heq]
  exact ⟨by simp [Records.deleteInviteArtifacts, StoreEdit.IsFiled], List.forall_mem_nil _⟩

theorem isFiled_deleteRoomInvites {roomId : String}
    (hc : x.deleteRoomInvites teamId roomId = .commit c) : c.transaction.IsFiled := by
  rw [deleteRoomInvites_eq_commit hc]
  exact ⟨Records.isFiled_revokeInviteArtifactsWhere _, List.forall_mem_nil _⟩

theorem isFiled_requestInvite {body : InviteRequestInput} (hc : x.requestInvite body = .commit c) :
    c.transaction.IsFiled := by
  obtain ⟨invite, request, -, -, -, hne, -, -, -, heq⟩ := requestInvite_eq_commit hc
  rw [heq]
  exact ⟨List.forall_mem_singleton.mpr ⟨rfl, hne⟩, List.forall_mem_nil _⟩

theorem isFiled_uploadKeyPackages {deviceId : String} {uploads : List KeyPackageUpload}
    {withinBudget : Bool} (hc : x.uploadKeyPackages deviceId uploads withinBudget = .commit c) :
    c.transaction.IsFiled := by
  obtain ⟨accepted, heq, -, -, hnamed, -⟩ := uploadKeyPackages_eq_commit hc
  rw [heq]
  constructor
  · intro d hd
    obtain ⟨item, hitem, rfl⟩ := List.mem_map.mp hd
    exact ⟨rfl, (hnamed item hitem).1, (hnamed item hitem).2⟩
  · intro d hd
    obtain ⟨item, -, rfl⟩ := List.mem_map.mp hd
    trivial

theorem isFiled_restrictAccount (h : x.records.Filed) {restriction : AccountRestriction}
    (hc : x.restrictAccount restriction = .commit c) : c.transaction.IsFiled := by
  obtain ⟨hne, hstage, hrollback⟩ := restrictAccount_eq_commit hc
  refine ⟨hstage ▸ List.forall_mem_singleton.mpr ⟨rfl, hne⟩, ?_⟩
  rw [hrollback]
  split
  · rename_i previous hprevious
    exact List.forall_mem_singleton.mpr (h .accountRestrictions _ previous hprevious)
  · exact List.forall_mem_singleton.mpr trivial

theorem isFiled_unrestrictAccount (h : x.records.Filed)
    (hc : x.unrestrictAccount userId = .commit c) : c.transaction.IsFiled := by
  obtain ⟨previous, hprevious, heq⟩ := unrestrictAccount_eq_commit hc
  rw [heq]
  exact ⟨List.forall_mem_singleton.mpr trivial,
    List.forall_mem_singleton.mpr (h .accountRestrictions _ previous hprevious)⟩

theorem isFiled_logout (hc : x.logout = .commit c) : c.transaction.IsFiled := by
  obtain ⟨session, -, heq⟩ := logout_eq_commit hc
  rw [heq]
  exact ⟨List.forall_mem_singleton.mpr trivial, List.forall_mem_nil _⟩

theorem isFiled_discardDeadSession {sessionIdHash : String}
    (hc : x.discardDeadSession sessionIdHash = .commit c) : c.transaction.IsFiled := by
  rw [discardDeadSession_eq_commit hc]
  exact ⟨List.forall_mem_singleton.mpr trivial, List.forall_mem_nil _⟩

theorem isFiled_evictAccount (hc : evictAccount userId = .commit c) : c.transaction.IsFiled := by
  rw [← Handling.commit.inj hc]
  exact ⟨List.forall_mem_singleton.mpr trivial, List.forall_mem_nil _⟩

end HttpContext

/-- **No route breaks the filing**, whether its save returns or throws. -/
theorem Request.isFiled_handle {x : HttpContext} {request : Request} {c : Commit}
    (h : x.records.Filed) (hids : request.DrawsIds) (hc : request.handle x = .commit c) :
    c.transaction.IsFiled := by
  unfold Request.handle at hc
  split at hc
  · cases hc
  cases request with
  | setTeamMemberRole teamId userId role => exact HttpContext.isFiled_setTeamMemberRole h hc
  | transferOwner teamId userId => exact HttpContext.isFiled_transferOwner h hc
  | removeTeamMember teamId userId => exact HttpContext.isFiled_removeTeamMember h hc
  | teamLifecycle teamId action => exact HttpContext.isFiled_teamLifecycle h hc
  | createTeam id name withinQuota => exact HttpContext.isFiled_createTeam hids hc
  | roomSettings roomId body => exact HttpContext.isFiled_roomSettings h hc
  | roomHost roomId body => exact HttpContext.isFiled_roomHost h hc
  | roomLifecycle roomId action userId name => exact HttpContext.isFiled_roomLifecycle h hc
  | createRoom id body withinQuota => exact HttpContext.isFiled_createRoom h hids hc
  | createInvite id teamId roomId => exact HttpContext.isFiled_createInvite hids hc
  | getInvite inviteId => exact HttpContext.isFiled_getInvite hc
  | deleteRoomInvites teamId roomId => exact HttpContext.isFiled_deleteRoomInvites hc
  | requestInvite body => exact HttpContext.isFiled_requestInvite hc
  | respondInvite body => exact HttpContext.isFiled_respondInvite h hc
  | acknowledgeInvite inviteId requestId deviceId hasExactKeys =>
    exact HttpContext.isFiled_acknowledgeInvite h hc
  | uploadKeyPackages deviceId uploads withinBudget => exact HttpContext.isFiled_uploadKeyPackages hc
  | consumeKeyPackage input => exact HttpContext.isFiled_consumeKeyPackage h hc
  | registerDevice identity => exact HttpContext.isFiled_registerDevice h hids hc
  | deleteAccount isConfirmed => exact HttpContext.isFiled_deleteAccount h hc
  | issueVerifiedSession sessionIdHash user =>
    exact HttpContext.isFiled_issueVerifiedSession h hids hc
  | logout => exact HttpContext.isFiled_logout hc
  | discardDeadSession sessionIdHash => exact HttpContext.isFiled_discardDeadSession hc
  | restrictAccount restriction => exact HttpContext.isFiled_restrictAccount h hc
  | unrestrictAccount userId => exact HttpContext.isFiled_unrestrictAccount h hc
  | evictAccount userId => exact HttpContext.isFiled_evictAccount hc

end MultAIplayer
