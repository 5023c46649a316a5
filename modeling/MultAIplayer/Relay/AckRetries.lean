import MultAIplayer.Lib.Machine
import MultAIplayer.Relay.Acknowledgement
import MultAIplayer.Relay.DurableLog
import MultAIplayer.Relay.Filing

/-!
# Repeating an acknowledgement

An acknowledgement that has been saved leaves a receipt, and as long as the relay keeps it
(`Retained`) the requester may acknowledge again: each repetition is answered like the first one and
changes nothing, also when the relay was restarted in between.

A receipt lives for thirty days. It is loaded again when its ids are of the relay id alphabet, which
the route that stores a request does not ask of the ids that the requester chooses.
-/

namespace MultAIplayer

/-! ### What a reload keeps -/

section Reload

variable {teams : InsertionMap String TeamRecord}

/-- Every member that a row brings has its own key. -/
theorem addStoredMembers_filed {teamId : String} {l : List TeamMemberRecord} {m m' : TeamMembers}
    (h : addStoredMembers teamId l m = some m')
    (hm : ∀ userId member, m.get userId = some member →
      member.teamId = teamId ∧ member.userId = userId) :
    ∀ userId member, m'.get userId = some member →
      member.teamId = teamId ∧ member.userId = userId := by
  induction l generalizing m with
  | nil =>
    cases h
    exact hm
  | cons first l ih =>
    unfold addStoredMembers at h
    split at h
    · rename_i hadds
      simp only [Bool.and_eq_true, decide_eq_true_eq] at hadds
      refine ih h fun userId member hmember ↦ ?_
      rw [InsertionMap.get_set] at hmember
      split_ifs at hmember with hown
      · rw [← Option.some.inj hmember]
        exact ⟨hadds.1.2, hown.symm⟩
      · exact hm userId member hmember
    · cases h

theorem applyStoredTeamMembers_filed {l : List StoredTeamMembers} {restored : List String}
    {m m' : InsertionMap String TeamMembers}
    (hteams : ∀ k, teams.has k = true → matchesRelayIdPattern k = true)
    (h : applyStoredTeamMembers teams l restored m = some m')
    (hm : ∀ k members, m.get k = some members → Entity.Files .teamMembers k members) :
    ∀ k members, m'.get k = some members → Entity.Files .teamMembers k members := by
  induction l generalizing restored m with
  | nil =>
    cases h
    exact hm
  | cons row l ih =>
    unfold applyStoredTeamMembers at h
    split at h
    · cases h
    split at h
    · cases h
    rename_i id hid
    obtain ⟨members, hmembers, h⟩ := Option.bind_eq_some_iff.mp h
    refine ih h fun k found hfound ↦ ?_
    split_ifs at hfound
    · exact hm k found hfound
    · rw [InsertionMap.get_set] at hfound
      split_ifs at hfound with hk
      · rw [← Option.some.inj hfound, hk]
        exact ⟨hteams id (Option.filter_eq_some_iff.mp hid).2,
          addStoredMembers_filed hmembers fun _ _ hget ↦ nomatch hget⟩
      · exact hm k found hfound

variable {now : Instant} {r saved : Records}

theorem normalizeTeam_eq_some {team v : TeamRecord} (h : normalizeTeam team = some v) : v = team := by
  unfold normalizeTeam at h
  split_ifs at h
  exact (Option.some.inj h).symm

theorem normalizeRoom_eq_some {room v : RoomRecord} (h : normalizeRoom r room = some v) : v = room := by
  unfold normalizeRoom at h
  split_ifs at h
  exact (Option.some.inj h).symm

theorem normalizeInvite_eq_some {invite v : InviteRecord} (h : normalizeInvite r invite = some v) :
    v = invite := by
  unfold normalizeInvite at h
  split_ifs at h
  split at h
  · rename_i id _ _ hid _ _
    split_ifs at h
    rw [← Option.some.inj h, normalizeRelayId_eq_some hid]
  · cases h

theorem normalizeWelcome_eq_some {response v : InviteResponseRecord}
    (h : normalizeWelcome r response = some v) : v = response := by
  unfold normalizeWelcome at h
  dsimp only at h
  split_ifs at h
  exact (Option.some.inj h).symm

theorem normalizeInviteAckReceipt_requestId {receipt v : InviteAckReceipt}
    (h : normalizeInviteAckReceipt now r receipt = some v) : v.requestId = receipt.requestId := by
  unfold normalizeInviteAckReceipt at h
  split at h
  · cases h
  split at h
  · rename_i inviteId requestId teamId userId deviceId _ hrequestId _ _ _
    split at h
    · cases h
    split at h
    · cases h
    rw [← Option.some.inj h]
    exact normalizeRelayId_eq_some hrequestId
  · cases h

/-- What a collection has after a load is a row of it, under the key that the row names. -/
theorem applyStoredRows_get_empty {α : Type} {normalize : α → Option α}
    {apply : α → InsertionMap String α → InsertionMap String α} {critical : Bool} {l : List α}
    {m : InsertionMap String α} (key : α → String)
    (happly : ∀ v m k w, (apply v m).get k = some w → m.get k = some w ∨ w = v ∧ key v = k)
    (h : applyStoredRows normalize apply critical l .empty = some m) {k : String} {v : α}
    (hv : m.get k = some v) : ∃ row ∈ l, normalize row = some v ∧ key v = k := by
  rcases applyStoredRows_origin happly h hv with hempty | hrow
  · cases hempty
  · exact hrow

theorem get_set_origin {α : Type} (key : α → String) (v : α) (m : InsertionMap String α)
    (k : String) (w : α) (h : (m.set (key v) v).get k = some w) :
    m.get k = some w ∨ w = v ∧ key v = k := by
  rw [InsertionMap.get_set] at h
  split_ifs at h with hk
  · exact .inr ⟨(Option.some.inj h).symm, hk.symm⟩
  · exact .inl h

/-- **What was loaded is under the keys that it names.** -/
theorem Records.Filed.reload (h : saved.Filed) (hr : saved.reload now = some r) : r.Filed := by
  unfold Records.reload at hr
  obtain ⟨teams, hteams, hr⟩ := Option.bind_eq_some_iff.mp hr
  obtain ⟨rooms, hrooms, hr⟩ := Option.bind_eq_some_iff.mp hr
  obtain ⟨invites, hinvites, hr⟩ := Option.bind_eq_some_iff.mp hr
  obtain ⟨inviteResponses, hresponses, hr⟩ := Option.bind_eq_some_iff.mp hr
  obtain ⟨teamMembers, hmembers, hr⟩ := Option.bind_eq_some_iff.mp hr
  obtain ⟨inviteAckReceipts, hreceipts, rfl⟩ := Option.map_eq_some_iff.mp hr
  have hrow : ∀ (e : Entity) (v : e.Value), v ∈ (saved.collection e).values → ∃ k, e.Files k v := by
    intro e v hv
    obtain ⟨k, hk⟩ := InsertionMap.mem_values_iff.mp hv
    exact ⟨k, h e k v hk⟩
  have hteam : ∀ k team, teams.get k = some team → Entity.Files .teams k team := by
    intro k team hteam
    obtain ⟨row, hmem, hread, rfl⟩ :=
      applyStoredRows_get_empty TeamRecord.id (get_set_origin TeamRecord.id) hteams hteam
    obtain rfl := normalizeTeam_eq_some hread
    obtain ⟨j, rfl, hplain⟩ := hrow .teams team hmem
    exact ⟨rfl, hplain⟩
  intro e k v hv
  cases e with
  | teams => exact hteam k v hv
  | rooms =>
    obtain ⟨row, hmem, hread, rfl⟩ :=
      applyStoredRows_get_empty RoomRecord.id (get_set_origin RoomRecord.id) hrooms hv
    obtain rfl := normalizeRoom_eq_some hread
    obtain ⟨j, rfl, hplain⟩ := hrow .rooms v hmem
    exact ⟨rfl, hplain⟩
  | invites =>
    obtain ⟨row, hmem, hread, rfl⟩ :=
      applyStoredRows_get_empty InviteRecord.id (fun v m k w hw ↦ by
        split_ifs at hw
        · exact .inl hw
        · exact get_set_origin InviteRecord.id v m k w hw) hinvites hv
    obtain rfl := normalizeInvite_eq_some hread
    obtain ⟨j, rfl, hne⟩ := hrow .invites v hmem
    exact ⟨rfl, hne⟩
  | inviteResponses =>
    obtain ⟨row, hmem, hread, rfl⟩ :=
      applyStoredRows_get_empty InviteResponseRecord.requestId (fun v m k w hw ↦ by
        split_ifs at hw
        · exact .inl hw
        · exact get_set_origin InviteResponseRecord.requestId v m k w hw) hresponses hv
    obtain rfl := normalizeWelcome_eq_some hread
    obtain ⟨j, rfl, hne⟩ := hrow .inviteResponses v hmem
    exact ⟨rfl, hne⟩
  | inviteAckReceipts =>
    obtain ⟨row, hmem, hread, rfl⟩ :=
      applyStoredRows_get_empty InviteAckReceipt.requestId
        (get_set_origin InviteAckReceipt.requestId) hreceipts hv
    obtain ⟨j, rfl, hne⟩ := hrow .inviteAckReceipts row hmem
    exact ⟨rfl, normalizeInviteAckReceipt_requestId hread ▸ hne⟩
  | teamMembers =>
    refine applyStoredTeamMembers_filed (fun k hk ↦ ?_) hmembers (fun _ _ hget ↦ by cases hget) k v hv
    obtain ⟨team, hteamGet⟩ := InsertionMap.has_iff.mp hk
    exact (hteam k team hteamGet).2
  | _ => cases hv

end Reload

/-! ### What a repetition relies on -/

/-- What the relay keeps of an acknowledgement while its receipt lives. -/
structure Retained (r : Records) (receipt : InviteAckReceipt) : Prop where
  filed : r.Filed
  team : r.teams.has receipt.teamId = true
  responseGone : r.inviteResponses.get receipt.requestId = none
  kept : r.inviteAckReceipts.get receipt.requestId = some receipt
  member : receipt.status = .approved →
    r.hasTeamMember receipt.teamId receipt.requesterUserId = true

/-- A receipt whose texts the loader leaves as they are. -/
structure InviteAckReceipt.IsReadable (receipt : InviteAckReceipt) : Prop where
  keyPackageHash : isSha256Digest receipt.keyPackageHash = true
  inviteId : normalizeRelayId receipt.inviteId maxEnvelopeIdChars = some receipt.inviteId
  requestId : normalizeRelayId receipt.requestId maxEnvelopeIdChars = some receipt.requestId
  teamId : normalizeRelayId receipt.teamId maxRelayIdChars = some receipt.teamId
  requesterUserId :
    normalizeMetadataText receipt.requesterUserId maxUserIdChars = some receipt.requesterUserId
  requesterDeviceId :
    normalizeMetadataText receipt.requesterDeviceId maxDeviceIdChars = some receipt.requesterDeviceId

namespace Retained

variable {r saved : Records} {receipt : InviteAckReceipt} {now : Instant}

/-- The loader reads the receipt. -/
theorem normalize_receipt (hreadable : receipt.IsReadable) (hlive : now < receipt.expiresAt)
    (hteam : r.teams.has receipt.teamId = true) (hmember : receipt.status = .approved →
      r.hasTeamMember receipt.teamId receipt.requesterUserId = true) :
    normalizeInviteAckReceipt now r receipt = some receipt := by
  have hadmitted : (!r.teams.has receipt.teamId || (decide (receipt.status = .approved) &&
      !r.hasTeamMember receipt.teamId receipt.requesterUserId)) = false := by
    rw [hteam, Bool.not_true, Bool.false_or, Bool.and_eq_false_iff]
    by_cases happroved : receipt.status = .approved
    · exact .inr (by rw [hmember happroved]; rfl)
    · exact .inl (decide_eq_false happroved)
  unfold normalizeInviteAckReceipt
  rw [hreadable.keyPackageHash, hreadable.inviteId, hreadable.requestId, hreadable.teamId,
    hreadable.requesterUserId, hreadable.requesterDeviceId]
  dsimp only
  rw [if_neg (not_le.mpr hlive), hadmitted]
  rfl

/-- **A restart keeps the acknowledgement.** -/
theorem reload (h : Retained saved receipt) (hreadable : receipt.IsReadable)
    (hlive : now < receipt.expiresAt) (hr : saved.reload now = some r) : Retained r receipt := by
  have hfiled := h.filed.reload hr
  unfold Records.reload at hr
  obtain ⟨teams, hteams, hr⟩ := Option.bind_eq_some_iff.mp hr
  obtain ⟨rooms, hrooms, hr⟩ := Option.bind_eq_some_iff.mp hr
  obtain ⟨invites, hinvites, hr⟩ := Option.bind_eq_some_iff.mp hr
  obtain ⟨inviteResponses, hresponses, hr⟩ := Option.bind_eq_some_iff.mp hr
  obtain ⟨teamMembers, hmembers, hr⟩ := Option.bind_eq_some_iff.mp hr
  obtain ⟨inviteAckReceipts, hreceipts, rfl⟩ := Option.map_eq_some_iff.mp hr
  have hteam : teams.has receipt.teamId = true := by
    obtain ⟨team, hget⟩ := InsertionMap.has_iff.mp h.team
    have hmem : team ∈ saved.teams.values := InsertionMap.mem_values_iff.mpr ⟨_, hget⟩
    obtain ⟨v, hread⟩ := normalize_of_critical hteams hmem
    have hloaded := applyStoredRows_has_of_mem hteams hmem hread
    rw [normalizeTeam_eq_some hread, (h.filed.team hget).1] at hloaded
    exact hloaded
  have hmember : receipt.status = .approved → Records.hasTeamMember
      { teams, rooms, invites, inviteResponses, teamMembers } receipt.teamId
        receipt.requesterUserId = true := by
    intro happroved
    obtain ⟨member, hmember⟩ := Option.isSome_iff_exists.mp (h.member happroved)
    obtain ⟨members, hget, hmember⟩ := Option.bind_eq_some_iff.mp hmember
    have hrow : (⟨receipt.teamId, members.values⟩ : StoredTeamMembers) ∈ saved.storedTeamMembers :=
      List.mem_map.mpr ⟨(_, members), InsertionMap.mem_entries_iff.mpr hget, rfl⟩
    obtain ⟨loaded, hloaded, hfound⟩ := applyStoredTeamMembers_of_mem hmembers hrow
      (InsertionMap.mem_values_iff.mpr ⟨_, hmember⟩)
    rw [((h.filed.members hget).2 _ member hmember).2] at hfound
    refine Option.isSome_iff_exists.mpr ⟨member, ?_⟩
    exact Option.bind_eq_some_iff.mpr ⟨loaded, hloaded, hfound⟩
  refine ⟨hfiled, hteam, ?_, ?_, hmember⟩
  · cases hget : inviteResponses.get receipt.requestId with
    | none => rfl
    | some v =>
      obtain ⟨row, hmem, hread, hkey⟩ :=
        applyStoredRows_get_empty InviteResponseRecord.requestId (fun v m k w hw ↦ by
          split_ifs at hw
          · exact .inl hw
          · exact get_set_origin InviteResponseRecord.requestId v m k w hw) hresponses hget
      obtain rfl := normalizeWelcome_eq_some hread
      obtain ⟨k, hk⟩ := InsertionMap.mem_values_iff.mp hmem
      have hgone := h.responseGone
      rw [← hkey, h.filed.keyed.responseId hk, hk] at hgone
      cases hgone
  · have hrow : receipt ∈ saved.inviteAckReceipts.values :=
      InsertionMap.mem_values_iff.mpr ⟨_, h.kept⟩
    refine get_applyStoredRows hreceipts hrow (normalize_receipt hreadable hlive hteam hmember)
      fun row hmem w hread hkey ↦ ?_
    obtain ⟨k, hk⟩ := InsertionMap.mem_values_iff.mp hmem
    have hown : row.requestId = k ∧ k ≠ "" := h.filed .inviteAckReceipts k row hk
    rw [← hown.1, ← normalizeInviteAckReceipt_requestId hread, hkey, h.kept] at hk
    exact (Option.some.inj hk).symm

end Retained

/-! ### Repetitions -/

/-- The requester acknowledges again, or the relay is restarted. -/
inductive AckMove
  | acknowledge (x : HttpContext)
  | restart (now : Instant)

namespace AckMove

/-- Whether a move is an acknowledgement. -/
def isAcknowledge : AckMove → Bool
  | .acknowledge _ => true
  | .restart _ => false

/-- A move while the receipt lives: an acknowledgement by the signed-in requester from its own
device, or a restart that can read the receipt. -/
def IsRetry (receipt : InviteAckReceipt) : AckMove → Prop
  | .acknowledge x => (x.session.map (·.user.id)) = some receipt.requesterUserId ∧
      x.hasDeviceSession receipt.requesterUserId receipt.requesterDeviceId = true ∧
      x.now < receipt.expiresAt
  | .restart now => receipt.IsReadable ∧ now < receipt.expiresAt

end AckMove

/-- The records after a handler, when its save returns. -/
def Handling.saved (r : Records) : Handling → Records
  | .answer _ => r
  | .commit c => r.editAll c.transaction.stage

/-- One move of a relay, `none` when it does not start. -/
def ackStep (receipt : InviteAckReceipt) (r : Option Records) (move : AckMove) :
    Option Records × List Handling :=
  match r, move with
  | none, _ => (none, [])
  | some r, .acknowledge x =>
    let handling := { x with records := r }.acknowledgeInvite receipt.inviteId receipt.requestId
      receipt.requesterDeviceId true
    (some (handling.saved r), [handling])
  | some r, .restart now => (r.reload now, [])

namespace Retained

variable {r : Records} {receipt : InviteAckReceipt}

/-- **A repetition** is answered and changes nothing. -/
theorem acknowledge_again {x : HttpContext} (h : Retained x.records receipt)
    (hretry : (AckMove.acknowledge x).IsRetry receipt) :
    x.acknowledgeInvite receipt.inviteId receipt.requestId receipt.requesterDeviceId true =
      .answer .done := by
  obtain ⟨hsession, hdevice, hlive⟩ := hretry
  obtain ⟨session, hsession, huser⟩ := Option.map_eq_some_iff.mp hsession
  have hexact : x.isExactInviteAckReceipt receipt.inviteId receipt.requestId session.user.id
      receipt.requesterDeviceId = true := by
    unfold HttpContext.isExactInviteAckReceipt
    rw [h.kept, huser]
    cases hstatus : receipt.status with
    | denied => simp [hstatus, hlive]
    | approved => simp [hstatus, hlive, h.member hstatus]
  unfold HttpContext.acknowledgeInvite
  rw [hsession, h.responseGone]
  dsimp only
  rw [hexact, huser, hdevice]
  rfl

/-- What one move keeps. -/
theorem step (h : Retained r receipt) {move : AckMove} (hretry : move.IsRetry receipt) :
    (∀ x, move = .acknowledge x → ackStep receipt (some r) move = (some r, [.answer .done])) ∧
    ∀ r', (ackStep receipt (some r) move).1 = some r' → Retained r' receipt := by
  cases move with
  | acknowledge x =>
    have hagain := acknowledge_again (x := { x with records := r }) h hretry
    have hstep : ackStep receipt (some r) (.acknowledge x) = (some r, [.answer .done]) := by
      unfold ackStep
      dsimp only
      rw [hagain]
      rfl
    refine ⟨fun _ _ ↦ hstep, fun r' hr' ↦ ?_⟩
    rw [hstep] at hr'
    rwa [← Option.some.inj hr']
  | restart now => exact ⟨nofun, fun r' hr' ↦ h.reload hretry.1 hretry.2 hr'⟩

end Retained

theorem ackStep_none (receipt : InviteAckReceipt) (moves : List AckMove) :
    Machine.run (ackStep receipt) none moves = (none, []) := by
  induction moves with
  | nil => rfl
  | cons move moves ih =>
    rw [Machine.run_cons]
    have hstep : ackStep receipt none move = (none, []) := by cases move <;> rfl
    rw [hstep, ih]
    rfl

/-- **Repetitions change nothing**: a relay that has been acknowledged to again and restarted holds
what it would hold after the restarts alone, and has answered every repetition. -/
theorem Retained.run {receipt : InviteAckReceipt} {moves : List AckMove} {r : Records}
    (h : Retained r receipt) (hmoves : ∀ move ∈ moves, move.IsRetry receipt) :
    (Machine.run (ackStep receipt) (some r) moves).1 =
        (Machine.run (ackStep receipt) (some r) (moves.filter fun move ↦ !move.isAcknowledge)).1 ∧
      ∀ r', (Machine.run (ackStep receipt) (some r) moves).1 = some r' → Retained r' receipt ∧
        (Machine.run (ackStep receipt) (some r) moves).2 =
          List.replicate (moves.countP AckMove.isAcknowledge) (.answer .done) := by
  induction moves generalizing r with
  | nil => exact ⟨rfl, fun r' hr' ↦ ⟨Option.some.inj hr' ▸ h, rfl⟩⟩
  | cons move moves ih =>
    have hretry := hmoves move List.mem_cons_self
    have hrest : ∀ move ∈ moves, move.IsRetry receipt :=
      fun m hm ↦ hmoves m (List.mem_cons_of_mem _ hm)
    obtain ⟨hanswer, hkeeps⟩ := h.step hretry
    cases move with
    | acknowledge x =>
      rw [Machine.run_cons, hanswer x rfl, List.filter_cons_of_neg (by simp [AckMove.isAcknowledge]),
        List.countP_cons_of_pos (by rfl)]
      refine ⟨(ih h hrest).1, fun r' hr' ↦ ⟨((ih h hrest).2 r' hr').1, ?_⟩⟩
      rw [((ih h hrest).2 r' hr').2]
      rfl
    | restart now =>
      rw [List.filter_cons_of_pos (by simp [AckMove.isAcknowledge]), Machine.run_cons,
        Machine.run_cons, List.countP_cons_of_neg (by simp [AckMove.isAcknowledge])]
      have hquiet : (ackStep receipt (some r) (.restart now)).2 = [] := rfl
      rw [hquiet, List.nil_append]
      cases hnext : (ackStep receipt (some r) (.restart now)).1 with
      | none =>
        rw [ackStep_none, ackStep_none]
        exact ⟨rfl, nofun⟩
      | some next => exact ih (hkeeps next hnext) hrest

/-! ### Acknowledging for good -/

section Settled

variable {x : HttpContext} {s : BoundedStore} {inviteId requestId requesterDeviceId : String}
  {hasExactKeys : Bool} {c : Commit}

/-- What an acknowledgement that commits has passed, on records that are filed. -/
theorem ackPassed_of_commit (hfiled : x.records.Filed)
    (hc : x.acknowledgeInvite inviteId requestId requesterDeviceId hasExactKeys = .commit c) :
    ∃ team invite record, x.records.inviteResponses.get requestId = some record ∧
      AckPassed x.records team invite record ∧
      c.transaction = x.ackTransaction team invite record := by
  obtain ⟨record, team, invite, hrecord, -, hteam, hinvite, -, hauthorized, heq⟩ :=
    HttpContext.acknowledgeInvite_eq_commit hc
  have hrequestId := hfiled.keyed.responseId hrecord
  have hteamId := (hfiled.team hteam).1
  have hbinding : invite.teamId = record.responseBinding.teamId := by
    simp only [HttpContext.inviteResponseRemainsAuthorized, Bool.and_eq_true,
      decide_eq_true_eq] at hauthorized
    exact hauthorized.1.1.1.1.1.1.1.1
  refine ⟨team, invite, record, hrecord, ?_, heq⟩
  exact ⟨hrequestId ▸ hrecord, hteamId ▸ hteam, hinvite, hfiled.keyed.invite_id hinvite,
    hteamId.symm, hbinding.trans hteamId.symm⟩

/-- A saved acknowledgement is retained, unless 4096 others are as new. -/
theorem retained_acknowledged {r : Records} {team : TeamRecord} {invite : InviteRecord}
    {record : InviteResponseRecord} (h : AckPassed r team invite record)
    (hfiled : (x.acknowledged r team record).Filed)
    (hfew : (r.inviteAckReceipts.entries.countP fun p ↦ x.now ≤ p.2.acknowledgedAt) < 4096) :
    Retained (x.acknowledged r team record) (x.ackReceipt team.id record) := by
  have hdone := acknowledged_acknowledged x r team record
  have hteam : (x.acknowledged r team record).teams.has team.id = true := by
    unfold HttpContext.acknowledged HttpContext.admitted InsertionMap.has
    split_ifs
    · rw [InsertionMap.get_set_self]
      rfl
    · rw [h.getTeam]
      rfl
  refine ⟨hfiled, hteam, hdone.responseGone, (hdone.receipt hfew).1, fun happroved ↦ ?_⟩
  obtain ⟨members, hmembers, hcount, -⟩ := hdone.admitted happroved
  obtain ⟨member, hmember⟩ := InsertionMap.mem_keys_iff.mp
    (List.count_pos_iff.mp (hcount.symm ▸ Nat.one_pos))
  exact Option.isSome_iff_exists.mpr
    ⟨member, Option.bind_eq_some_iff.mpr ⟨members, hmembers, hmember⟩⟩

end Settled

/-! ### A receipt that has expired -/

/-- An approved answer of the host of `sampleRoom` to a joiner. -/
def sampleResponse : InviteResponseRecord where
  requestId := "request-1"
  inviteId := "invite-1"
  requesterUserId := "user-2"
  requesterDeviceId := "device-2"
  keyPackageHash := "hash-1"
  status := .approved
  responseBinding :=
    { inviteId := "invite-1", teamId := "team-1", roomId := "room-1", keyEpoch := 0
      keyPackageHash := "hash-1", requestId := "request-1", requestNonce := "nonce-1"
      requesterUserId := "user-2", requesterDeviceId := "device-2", hostUserId := "user-1"
      hostDeviceId := "device-1", expiresAt := "", status := .approved, decidedAt := "" }
  responseMac := "AAAA"
  createdAt := sampleNow

def sampleInvite : InviteRecord where
  id := "invite-1"
  teamId := "team-1"
  roomId := "room-1"
  approvedUserId := some "user-2"
  approvedDeviceId := some "device-2"
  keyPackageHash := some "hash-1"
  createdAt := sampleNow

/-- The host among the members of `sampleRoom`'s team. -/
def sampleMembers : TeamMembers :=
  InsertionMap.empty.set "user-1" ⟨"team-1", "user-1", .owner, sampleNow⟩

/-- A store with an answer that waits for its acknowledgement. -/
def sampleAnswered : BoundedStore :=
  (Machine.run BoundedStore.step (BoundedStore.empty 10 10 .defaults)
    [.set .teams "team-1" ⟨"team-1", "Team", 1, none, none, none⟩, .set .rooms "room-1" sampleRoom,
      .set .teamMembers "team-1" sampleMembers, .set .invites "invite-1" sampleInvite,
      .set .inviteResponses "request-1" sampleResponse]).1

/-- The joiner on its device, at a time. -/
def sampleJoiner (now : Instant) : HttpContext where
  platform := samplePlatform
  now := now
  records := {}
  session := some ⟨"session-1", ⟨"user-2", "joiner", none, none⟩, now⟩
  deviceSessions := InsertionMap.empty.set "token-1" ⟨"token-1", "user-2", "device-2", now⟩
  deviceSessionToken := some "token-1"

theorem filed_sampleAnswered : sampleAnswered.store.toRecords.Filed := by
  have hmembers : Entity.Files .teamMembers "team-1" sampleMembers := by
    refine ⟨by decide, fun userId member hget ↦ ?_⟩
    rw [sampleMembers, InsertionMap.get_set] at hget
    split_ifs at hget with hown
    · rw [← Option.some.inj hget]
      exact ⟨rfl, hown.symm⟩
    · cases hget
  have hteams := Records.filed_empty.edit
    (d := .set .teams "team-1" ⟨"team-1", "Team", 1, none, none, none⟩) ⟨rfl, by decide⟩
  have hrooms := hteams.edit (d := .set .rooms "room-1" sampleRoom)
    ⟨rfl, by decide, by decide⟩
  have hinvites := (hrooms.edit (d := .set .teamMembers "team-1" sampleMembers) hmembers).edit
    (d := .set .invites "invite-1" sampleInvite) ⟨rfl, by decide⟩
  exact hinvites.edit (d := .set .inviteResponses "request-1" sampleResponse) ⟨rfl, by decide⟩

end MultAIplayer
