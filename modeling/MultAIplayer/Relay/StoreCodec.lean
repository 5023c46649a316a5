import MultAIplayer.Relay.InviteRoutes
import MultAIplayer.Relay.StoreMutations

/-!
# Loading what was stored

`applyStoredState` of `store-codec.ts`, for teams, rooms, invites, responses, memberships and the
receipts of acknowledgements. Rows of teams, rooms and memberships are critical: the relay does not
start with one that it cannot read. A row of the others is skipped.

The other collections are left out, and so are the checks after the last row: they change none of
these collections, they can only refuse to start.
-/

namespace MultAIplayer

/-! ### Schemas -/

/-- The schema `TeamRecord`. -/
@[grind =] def TeamRecord.isValid (team : TeamRecord) : Bool :=
  isRelayId team.id && boundedString 1 maxDisplayNameChars team.name && isCount team.members

/-- The schema `TeamMemberRecord`. -/
@[grind =] def TeamMemberRecord.isValid (member : TeamMemberRecord) : Bool :=
  isRelayId member.teamId && isUserId member.userId

/-- The schema `RoomRecord`. -/
@[grind =] def RoomRecord.isValid (room : RoomRecord) : Bool :=
  isRelayId room.id && isRelayId room.teamId && room.acceptedMlsEpoch.all isCount &&
    boundedString 1 maxRoomNameChars room.name && boundedString 1 maxDisplayNameChars room.host &&
    room.hostUserId.all isUserId && room.activeHostDeviceId.all isDeviceId &&
    (room.hostStatus ≠ .active || room.hostUserId.isSome)

/-- The schema `InviteRecord`. -/
@[grind =] def InviteRecord.isValid (invite : InviteRecord) : Bool :=
  boundedString 1 maxEnvelopeIdChars invite.id && isRelayId invite.teamId &&
    isRelayId invite.roomId && invite.creatorUserId.all isUserId &&
    invite.approvedUserId.all isUserId && invite.approvedDeviceId.all isDeviceId &&
    invite.keyPackageHash.all isSha256Digest

/-! ### Rows -/

section Rows

variable {α : Type}

/-- `applyStoredRows`, for one collection. -/
@[grind =] def applyStoredRows (normalize : α → Option α)
    (apply : α → InsertionMap String α → InsertionMap String α) (critical : Bool) :
    List α → InsertionMap String α → Option (InsertionMap String α)
  | [], m => some m
  | row :: rows, m =>
    match normalize row with
    | some row => applyStoredRows normalize apply critical rows (apply row m)
    | none => if critical then none else applyStoredRows normalize apply critical rows m

end Rows

/-- `normalizeTeam`. -/
def normalizeTeam (team : TeamRecord) : Option TeamRecord := if team.isValid then some team else none

/-- `normalizeRoom`. -/
def normalizeRoom (r : Records) (room : RoomRecord) : Option RoomRecord :=
  if !room.isValid || !r.teams.has room.teamId then none
  else if room.hostStatus = .active &&
      (room.hostUserId.isNone || room.activeHostDeviceId.isNone || room.acceptedMlsEpoch.isNone) then
    none
  else if room.hostStatus = .offline && room.activeHostDeviceId.isSome then none
  else some room

/-- `normalizeInvite`. -/
def normalizeInvite (r : Records) (invite : InviteRecord) : Option InviteRecord :=
  if !invite.isValid then none
  else
    match normalizeRelayId invite.id maxEnvelopeIdChars, r.teams.get invite.teamId,
        r.rooms.get invite.roomId with
    | some id, some team, some room =>
      if team.deletedAt.isSome || room.deletedAt.isSome || room.teamId ≠ team.id then none
      else some { invite with id }
    | _, _, _ => none

/-- `normalizeWelcome`. -/
def normalizeWelcome (r : Records) (response : InviteResponseRecord) : Option InviteResponseRecord :=
  let binding := response.responseBinding
  let linked := (r.invites.get response.inviteId).any fun invite ↦
    binding.inviteId = response.inviteId && binding.requestId = response.requestId &&
      binding.requesterUserId = response.requesterUserId &&
      binding.requesterDeviceId = response.requesterDeviceId &&
      binding.keyPackageHash = response.keyPackageHash && binding.status = response.status &&
      invite.teamId = binding.teamId && invite.roomId = binding.roomId &&
      (response.status ≠ .approved ||
        (invite.approvedUserId = some response.requesterUserId &&
          invite.approvedDeviceId = some response.requesterDeviceId &&
          invite.keyPackageHash = some response.keyPackageHash))
  if response.isValid && linked && isCanonicalPaddedBase64 response.responseMac 128 &&
      response.welcome.all (isCanonicalPaddedBase64 · maxOpaqueChars) then
    some response
  else none

/-- `normalizeInviteAckReceipt`. -/
@[grind =]
def normalizeInviteAckReceipt (now : Instant) (r : Records) (receipt : InviteAckReceipt) :
    Option InviteAckReceipt :=
  if !isSha256Digest receipt.keyPackageHash then none
  else
    match normalizeRelayId receipt.inviteId maxEnvelopeIdChars,
        normalizeRelayId receipt.requestId maxEnvelopeIdChars,
        normalizeRelayId receipt.teamId maxRelayIdChars,
        normalizeMetadataText receipt.requesterUserId maxUserIdChars,
        normalizeMetadataText receipt.requesterDeviceId maxDeviceIdChars with
    | some inviteId, some requestId, some teamId, some requesterUserId, some requesterDeviceId =>
      if receipt.expiresAt ≤ now then none
      else if !r.teams.has teamId ||
          (receipt.status = .approved && !r.hasTeamMember teamId requesterUserId) then none
      else
        some { receipt with inviteId, requestId, teamId, requesterUserId, requesterDeviceId }
    | _, _, _, _, _ => none

/-! ### Memberships -/

/-- `addStoredMember`, for the members of a row. -/
@[grind =]
def addStoredMembers (teamId : String) : List TeamMemberRecord → TeamMembers → Option TeamMembers
  | [], members => some members
  | member :: rest, members =>
    if member.isValid && member.teamId = teamId && !members.has member.userId then
      addStoredMembers teamId rest (members.set member.userId member)
    else none

/-- The loop over `stored.teamMembers`, with `applyStoredTeamMembers`. The teams whose rows have been
read are `restored`. -/
@[grind =] def applyStoredTeamMembers (teams : InsertionMap String TeamRecord) :
    List StoredTeamMembers → List String → InsertionMap String TeamMembers →
      Option (InsertionMap String TeamMembers)
  | [], _, m => some m
  | row :: rows, restored, m =>
    if row.teamId = "" ∨ row.teamId ∈ restored then none
    else
      match (normalizeRelayId row.teamId maxRelayIdChars).filter teams.has with
      | none => none
      | some teamId =>
        (addStoredMembers teamId row.members .empty).bind fun members ↦
          applyStoredTeamMembers teams rows (row.teamId :: restored)
            (if members.size = 0 then m else m.set teamId members)

/-! ### Loading -/

/-- The rows of the memberships. -/
def Records.storedTeamMembers (r : Records) : List StoredTeamMembers :=
  r.teamMembers.entries.map fun p ↦ ⟨p.1, p.2.values⟩

/-- What a relay that starts has of the records of the one before; `none` when it does not start. -/
@[grind =] def Records.reload (now : Instant) (saved : Records) : Option Records :=
  (applyStoredRows normalizeTeam (fun team m ↦ m.set team.id team) true
    saved.teams.values .empty).bind fun teams ↦
  let r : Records := { teams }
  (applyStoredRows (normalizeRoom r) (fun room m ↦ m.set room.id room) true
    saved.rooms.values .empty).bind fun rooms ↦
  let r := { r with rooms }
  (applyStoredRows (normalizeInvite r)
    (fun invite m ↦ if isExpiredInvite now invite then m else m.set invite.id invite) false
    saved.invites.values .empty).bind fun invites ↦
  let r := { r with invites }
  (applyStoredRows (normalizeWelcome r)
    (fun response m ↦ if m.has response.requestId then m else m.set response.requestId response) false
    saved.inviteResponses.values .empty).bind fun inviteResponses ↦
  let r := { r with inviteResponses }
  (applyStoredTeamMembers teams saved.storedTeamMembers [] .empty).bind fun teamMembers ↦
  let r := { r with teamMembers }
  (applyStoredRows (normalizeInviteAckReceipt now r)
    (fun receipt m ↦ m.set receipt.requestId receipt) false
    saved.inviteAckReceipts.values .empty).map fun inviteAckReceipts ↦
  { r with inviteAckReceipts }

/-! ### What a load keeps -/

section Loaded

variable {α : Type} {normalize : α → Option α}
  {apply : α → InsertionMap String α → InsertionMap String α} {critical : Bool} {l : List α}
  {m m' : InsertionMap String α} {k : String}

/-- What a load has under a key came from a row. -/
theorem applyStoredRows_origin {key : α → String}
    (happly : ∀ v m k w, (apply v m).get k = some w → m.get k = some w ∨ w = v ∧ key v = k)
    (h : applyStoredRows normalize apply critical l m = some m') {v : α} (hv : m'.get k = some v) :
    m.get k = some v ∨ ∃ row ∈ l, normalize row = some v ∧ key v = k := by
  induction l generalizing m with
  | nil =>
    cases h
    exact .inl hv
  | cons row l ih =>
    unfold applyStoredRows at h
    split at h
    · rename_i read hread
      rcases ih h with hm | ⟨row', hrow', hsource⟩
      · rcases happly _ _ _ _ hm with hm | ⟨rfl, hkey⟩
        · exact .inl hm
        · exact .inr ⟨row, List.mem_cons_self, hread, hkey⟩
      · exact .inr ⟨row', List.mem_cons_of_mem _ hrow', hsource⟩
    · split at h
      · cases h
      · rcases ih h with hm | ⟨row', hrow', hsource⟩
        · exact .inl hm
        · exact .inr ⟨row', List.mem_cons_of_mem _ hrow', hsource⟩

variable {key : α → String}

theorem applyStoredRows_has
    (h : applyStoredRows normalize (fun v m ↦ m.set (key v) v) critical l m = some m')
    (hk : m.has k = true) : m'.has k = true := by
  induction l generalizing m with
  | nil =>
    cases h
    exact hk
  | cons row l ih =>
    unfold applyStoredRows at h
    split at h
    · refine ih h ?_
      unfold InsertionMap.has at hk ⊢
      rw [InsertionMap.get_set]
      split_ifs
      · rfl
      · exact hk
    · split at h
      · cases h
      · exact ih h hk

/-- A row that can be read is there afterwards. -/
theorem applyStoredRows_has_of_mem
    (h : applyStoredRows normalize (fun v m ↦ m.set (key v) v) critical l m = some m') {row v : α}
    (hrow : row ∈ l) (hread : normalize row = some v) : m'.has (key v) = true := by
  induction l generalizing m with
  | nil => cases hrow
  | cons row' l ih =>
    unfold applyStoredRows at h
    rcases List.mem_cons.mp hrow with rfl | hrow
    · rw [hread] at h
      refine applyStoredRows_has h ?_
      rw [InsertionMap.has, InsertionMap.get_set_self]
      rfl
    · split at h
      · exact ih h hrow
      · split at h
        · cases h
        · exact ih h hrow

/-- A critical row can be read when the relay starts. -/
theorem normalize_of_critical
    (h : applyStoredRows normalize apply true l m = some m') {row : α} (hrow : row ∈ l) :
    ∃ v, normalize row = some v := by
  induction l generalizing m with
  | nil => cases hrow
  | cons row' l ih =>
    unfold applyStoredRows at h
    rcases List.mem_cons.mp hrow with rfl | hrow
    · split at h
      · rename_i v hv
        exact ⟨v, hv⟩
      · cases h
    · split at h
      · exact ih h hrow
      · cases h

/-- **A row that is the only one of its key is loaded.** -/
theorem get_applyStoredRows
    (h : applyStoredRows normalize (fun v m ↦ m.set (key v) v) critical l .empty = some m')
    {row v : α} (hrow : row ∈ l) (hread : normalize row = some v)
    (honly : ∀ row' ∈ l, ∀ w, normalize row' = some w → key w = key v → row' = row) :
    m'.get (key v) = some v := by
  obtain ⟨w, hw⟩ := InsertionMap.has_iff.mp (applyStoredRows_has_of_mem h hrow hread)
  have hset : ∀ (v : α) (m : InsertionMap String α) k w, (m.set (key v) v).get k = some w →
      m.get k = some w ∨ w = v ∧ key v = k := by
    intro v m k w hw
    rw [InsertionMap.get_set] at hw
    split_ifs at hw with hk
    · exact .inr ⟨(Option.some.inj hw).symm, hk.symm⟩
    · exact .inl hw
  rcases applyStoredRows_origin hset h hw with hempty | ⟨row', hrow', hread', hkey⟩
  · cases hempty
  · rw [honly row' hrow' w hread' hkey, hread] at hread'
    rw [hw, Option.some.inj hread']

end Loaded

theorem normalizeRelayId_eq_some {value id : String} {maxChars : ℕ}
    (h : normalizeRelayId value maxChars = some id) : id = value := by
  unfold normalizeRelayId at h
  split_ifs at h
  exact (Option.some.inj h).symm

theorem addStoredMembers_get {teamId : String} {l : List TeamMemberRecord} {m m' : TeamMembers}
    (h : addStoredMembers teamId l m = some m') {userId : String} {member : TeamMemberRecord}
    (hmember : m.get userId = some member) : m'.get userId = some member := by
  induction l generalizing m with
  | nil =>
    cases h
    exact hmember
  | cons first l ih =>
    unfold addStoredMembers at h
    split at h
    · rename_i hadds
      refine ih h ?_
      have hother : userId ≠ first.userId := by
        rintro rfl
        rw [InsertionMap.has, hmember] at hadds
        simp at hadds
      rw [InsertionMap.get_set_of_ne _ _ hother]
      exact hmember
    · cases h

/-- Every member of a row is loaded. -/
theorem addStoredMembers_of_mem {teamId : String} {l : List TeamMemberRecord} {m m' : TeamMembers}
    (h : addStoredMembers teamId l m = some m') {member : TeamMemberRecord} (hmember : member ∈ l) :
    m'.get member.userId = some member := by
  induction l generalizing m with
  | nil => cases hmember
  | cons first l ih =>
    unfold addStoredMembers at h
    split at h
    · rcases List.mem_cons.mp hmember with rfl | hmember
      · exact addStoredMembers_get h (InsertionMap.get_set_self _ _ _)
      · exact ih h hmember
    · cases h

section Memberships

variable {teams : InsertionMap String TeamRecord} {l : List StoredTeamMembers}
  {restored : List String} {m m' : InsertionMap String TeamMembers}

/-- The memberships of a team whose row has been read stay as they are. -/
theorem applyStoredTeamMembers_get (h : applyStoredTeamMembers teams l restored m = some m')
    {teamId : String} (hrestored : teamId ∈ restored) : m'.get teamId = m.get teamId := by
  induction l generalizing restored m with
  | nil =>
    cases h
    rfl
  | cons row l ih =>
    unfold applyStoredTeamMembers at h
    split at h
    · cases h
    rename_i hnew
    split at h
    · cases h
    rename_i id hid
    obtain ⟨members, -, h⟩ := Option.bind_eq_some_iff.mp h
    rw [ih h (List.mem_cons_of_mem _ hrestored)]
    split_ifs
    · rfl
    · refine InsertionMap.get_set_of_ne _ _ fun heq ↦ hnew (.inr ?_)
      rwa [← normalizeRelayId_eq_some (Option.filter_eq_some_iff.mp hid).1, ← heq]

/-- **Every membership is loaded**, when the relay starts. -/
theorem applyStoredTeamMembers_of_mem (h : applyStoredTeamMembers teams l restored m = some m')
    {row : StoredTeamMembers} (hrow : row ∈ l) {member : TeamMemberRecord}
    (hmember : member ∈ row.members) :
    ∃ members, m'.get row.teamId = some members ∧ members.get member.userId = some member := by
  induction l generalizing restored m with
  | nil => cases hrow
  | cons first l ih =>
    unfold applyStoredTeamMembers at h
    split at h
    · cases h
    split at h
    · cases h
    rename_i id hid
    obtain ⟨members, hmembers, h⟩ := Option.bind_eq_some_iff.mp h
    rcases List.mem_cons.mp hrow with rfl | hrow
    · have hget := addStoredMembers_of_mem hmembers hmember
      have hsize : members.size ≠ 0 := by
        intro hzero
        rw [InsertionMap.eq_empty_of_size_eq_zero hzero] at hget
        cases hget
      refine ⟨members, ?_, hget⟩
      rw [applyStoredTeamMembers_get h List.mem_cons_self, if_neg hsize,
        normalizeRelayId_eq_some (Option.filter_eq_some_iff.mp hid).1]
      exact InsertionMap.get_set_self _ _ _
    · exact ih h hrow

end Memberships

end MultAIplayer
