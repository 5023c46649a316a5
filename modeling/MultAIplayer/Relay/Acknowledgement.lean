import MultAIplayer.Relay.BoundedTransactions
import MultAIplayer.Relay.StoreCodec
import MultAIplayer.Lib.Newest

/-!
# Acknowledging an invite response

`POST /invites/:inviteId/response/:requestId/ack` over the store with ceilings, what it leaves when
the save fails, and what a repeated acknowledgement meets later, restarts included.

The transaction touches one key of four collections and all receipts (`IsAckKey`). Its rollback
writes these keys again from a snapshot, so what other tasks did to them meanwhile is lost, and what
they did elsewhere is kept.

The rollback sets the invite before it clears the receipts. For a moment the store holds one entry
more than before the acknowledgement, which a store without room for it refuses.
-/

namespace MultAIplayer

/-- How an acknowledgement ends. -/
inductive AckEnd
  | answered (reply : HttpReply)
  | transacted (ended : TransactionEnd)
  deriving DecidableEq

/-- The keys that an acknowledgement writes. -/
def IsAckKey (teamId inviteId requestId : String) : Entity → String → Prop
  | .teams, k | .teamMembers, k => k = teamId
  | .invites, k => k = inviteId
  | .inviteResponses, k => k = requestId
  | .inviteAckReceipts, _ => True
  | _, _ => False

namespace HttpContext

/-- A request to a store with ceilings. -/
def on (x : HttpContext) (s : BoundedStore) : HttpContext := { x with records := s.store.toRecords }

/-- The route, with the call of `saveRelayStore` and the tasks that run while it is awaited. -/
def acknowledge (x : HttpContext) (inviteId requestId requesterDeviceId : String)
    (hasExactKeys : Bool) (call : SaveCall) (others : List StoreOp) (s : BoundedStore) :
    BoundedStore × AckEnd :=
  match (x.on s).acknowledgeInvite inviteId requestId requesterDeviceId hasExactKeys with
  | .answer reply => (s, .answered reply)
  | .commit c =>
    let ended := s.transact c.transaction call others
    (ended.1, .transacted ended.2)

end HttpContext

/-! ### The records of a transaction -/

section Records

variable (x : HttpContext) (r : Records) (team : TeamRecord) (invite : InviteRecord)
  (record : InviteResponseRecord)

/-- The members of a team, none where the team has no membership map. -/
def Records.membersOf (teamId : String) : TeamMembers := (r.teamMembers.get teamId).getD .empty

/-- The receipts after an acknowledgement. -/
def HttpContext.receiptsAfter : InsertionMap String InviteAckReceipt :=
  let receipts := r.inviteAckReceipts.set record.requestId (x.ackReceipt team.id record)
  receipts.filter fun id _ ↦ !decide (id ∈ x.inviteAckReceiptsToPrune receipts)

/-- The records with other collections of those that an acknowledgement writes. -/
def Records.patched (teamMembers : InsertionMap String TeamMembers)
    (teams : InsertionMap String TeamRecord) (invites : InsertionMap String InviteRecord)
    (inviteResponses : InsertionMap String InviteResponseRecord)
    (inviteAckReceipts : InsertionMap String InviteAckReceipt) : Records :=
  { r with teamMembers, teams, invites, inviteResponses, inviteAckReceipts }

/-- What is staged whether or not the requester is admitted. -/
def HttpContext.ackTail : List StoreEdit :=
  let receipts := r.inviteAckReceipts.set record.requestId (x.ackReceipt team.id record)
  [.delete .invites record.inviteId, .delete .inviteResponses record.requestId,
    .set .inviteAckReceipts record.requestId (x.ackReceipt team.id record),
    .deleteWhere .inviteAckReceipts fun id _ ↦ id ∈ x.inviteAckReceiptsToPrune receipts]

/-- The records with the requester among the members. -/
def HttpContext.admitted : Records :=
  if record.status = .approved then
    let members := x.withRequester team.id (r.membersOf team.id) record.requesterUserId
    { r with
      teamMembers := r.teamMembers.set team.id members
      teams := r.teams.set team.id { team with members := members.size } }
  else r

/-- The records after an acknowledgement. -/
def HttpContext.acknowledged : Records :=
  { x.admitted r team record with
    invites := r.invites.delete record.inviteId
    inviteResponses := r.inviteResponses.delete record.requestId
    inviteAckReceipts := x.receiptsAfter r team record }

/-- The records that a rollback makes of others. -/
def Records.putBack (before : Records) : Records :=
  { r with
    inviteResponses := r.inviteResponses.set record.requestId record
    teamMembers := r.teamMembers.set team.id (before.membersOf team.id)
    teams := r.teams.set team.id team
    invites := r.invites.set invite.id invite
    inviteAckReceipts := before.inviteAckReceipts }

theorem Records.edit_clear (e : Entity) :
    r.edit (.deleteWhere e fun _ _ ↦ true) = r.withCollection e .empty := by
  show r.withCollection e _ = _
  refine congrArg _ (InsertionMap.ext ?_)
  exact List.filter_eq_nil_iff.mpr fun _ _ ↦ by simp

theorem Records.editAll_restoreEntries {e : Entity} (m : InsertionMap String e.Value) :
    (r.withCollection e .empty).editAll (restoreEntries m) = r.withCollection e m := by
  have hsets : ∀ (l : List (String × e.Value)) (r : Records),
      r.editAll (l.map fun p ↦ .set e p.1 p.2) =
        r.withCollection e ((r.collection e).setAll l) := by
    intro l
    induction l with
    | nil =>
      intro r
      exact (r.withCollection_collection e).symm
    | cons p l ih =>
      intro r
      rw [List.map_cons, Records.editAll_cons, ih]
      show (r.withCollection e _).withCollection e
        (((r.withCollection e _).collection e).setAll l) = _
      rw [Records.collection_withCollection_self, Records.withCollection_withCollection]
      rfl
  rw [restoreEntries, hsets, Records.collection_withCollection_self,
    Records.withCollection_withCollection,
    show InsertionMap.empty.setAll m.entries = m from InsertionMap.setAll_eq_of_entries rfl]

/-- What is staged. -/
theorem editAll_stage (h : x.records = r) :
    r.editAll (x.ackTransaction team invite record).stage = x.acknowledged r team record := by
  subst h
  unfold HttpContext.ackTransaction HttpContext.acknowledged HttpContext.admitted
  cases record.status with
  | approved => rfl
  | denied => rfl

/-- What the rollback puts back. -/
theorem editAll_rollback :
    r.editAll (x.ackTransaction team invite record).rollback =
      r.putBack team invite record x.records := by
  unfold HttpContext.ackTransaction
  rw [Records.editAll_append]
  simp only [Records.editAll_cons, Records.editAll_nil, Records.edit_clear]
  rw [Records.editAll_restoreEntries]
  rfl

end Records

/-! ### What the records weigh -/

/-- What an acknowledgement has passed. -/
structure AckPassed (r : Records) (team : TeamRecord) (invite : InviteRecord)
    (record : InviteResponseRecord) : Prop where
  getResponse : r.inviteResponses.get record.requestId = some record
  getTeam : r.teams.get team.id = some team
  getInvite : r.invites.get record.inviteId = some invite
  ownInviteId : invite.id = record.inviteId
  responseTeam : record.responseBinding.teamId = team.id
  inviteTeam : invite.teamId = team.id

/-- The ceilings have room for one more entry of a team. -/
structure BoundedStore.HasRoomFor (s : BoundedStore) (teamId : String) : Prop where
  entries : s.capacity.used + 1 ≤ s.capacity.maximum
  team : s.capacity.usedByTeam.count teamId + 1 ≤ s.capacity.maximumPerTeam

theorem BoundedStore.HasRoomFor.total_le {s : BoundedStore} {teamId : String}
    (h : s.HasRoomFor teamId) (haccounted : s.Accounted) {account : Option String}
    (haccount : account ≠ some "") :
    s.store.total (entryWeight account) + share account (some teamId) ≤ s.entryCeiling account := by
  cases account with
  | none =>
    have hused : s.capacity.used = s.store.total (entryWeight none) := haccounted.used
    show s.store.total (entryWeight none) + 1 ≤ (s.capacity.maximum : ℤ)
    rw [← hused]
    exact h.entries
  | some t =>
    have hne : t ≠ "" := fun heq ↦ haccount (congrArg some heq)
    have hused : s.capacity.usedByTeam.count t = s.store.total (entryWeight (some t)) :=
      haccounted.usedByTeam t hne
    show s.store.total (entryWeight (some t)) +
      (if some teamId = some t then (1 : ℤ) else 0) ≤ (s.capacity.maximumPerTeam : ℤ)
    rw [← hused]
    split_ifs with heq
    · obtain rfl := Option.some.inj heq
      exact h.team
    · rw [add_zero]
      exact haccounted.within.2 t hne

namespace AckPassed

open BoundedStore

variable {x : HttpContext} {r : Records} {team : TeamRecord} {invite : InviteRecord}
  {record : InviteResponseRecord} {account : Option String} {s : BoundedStore}

theorem total_patched (w : (e : Entity) → String → e.Value → ℤ)
    (members : InsertionMap String TeamMembers) (teams : InsertionMap String TeamRecord)
    (invites : InsertionMap String InviteRecord)
    (responses : InsertionMap String InviteResponseRecord)
    (receipts : InsertionMap String InviteAckReceipt) :
    (r.patched members teams invites responses receipts).total w =
      r.total w + (members.tally (w .teamMembers) - r.teamMembers.tally (w .teamMembers)) +
        (teams.tally (w .teams) - r.teams.tally (w .teams)) +
        (invites.tally (w .invites) - r.invites.tally (w .invites)) +
        (responses.tally (w .inviteResponses) - r.inviteResponses.tally (w .inviteResponses)) +
        (receipts.tally (w .inviteAckReceipts) -
          r.inviteAckReceipts.tally (w .inviteAckReceipts)) := by
  show Records.total (((((r.withCollection .teamMembers members).withCollection .teams
    teams).withCollection .invites invites).withCollection .inviteResponses
      responses).withCollection .inviteAckReceipts receipts) w = _
  rw [Records.total_withCollection, Records.total_withCollection, Records.total_withCollection,
    Records.total_withCollection, Records.total_withCollection]
  rfl

/-- The team weighs the same with another count. -/
theorem tally_teams (h : AckPassed r team invite record) (n : ℕ) :
    (r.teams.set team.id { team with members := n }).tally (entryWeight account .teams) =
      r.teams.tally (entryWeight account .teams) := by
  have hnew := entryWeight_of_ne (e := .teams) (by simp) account team.id { team with members := n }
  have hold := entryWeight_of_ne (e := .teams) (by simp) account team.id team
  rw [InsertionMap.tally_set, InsertionMap.weightAt, h.getTeam, Option.elim, hnew, hold]
  exact add_sub_cancel_right _ _

theorem tally_invites (h : AckPassed r team invite record) :
    (r.invites.delete record.inviteId).tally (entryWeight account .invites) =
      r.invites.tally (entryWeight account .invites) - share account (some team.id) := by
  have hweight := entryWeight_of_ne (e := .invites) (by simp) account record.inviteId invite
  rw [InsertionMap.tally_delete, InsertionMap.weightAt, h.getInvite, Option.elim, hweight]
  show _ - share account (some invite.teamId) = _
  rw [h.inviteTeam]

theorem tally_responses (h : AckPassed r team invite record) :
    (r.inviteResponses.delete record.requestId).tally (entryWeight account .inviteResponses) =
      r.inviteResponses.tally (entryWeight account .inviteResponses) -
        share account (some team.id) := by
  have hweight :=
    entryWeight_of_ne (e := .inviteResponses) (by simp) account record.requestId record
  rw [InsertionMap.tally_delete, InsertionMap.weightAt, h.getResponse, Option.elim, hweight]
  show _ - share account (some record.responseBinding.teamId) = _
  rw [h.responseTeam]

variable (x r team record account) in
/-- The receipts weigh one receipt more at most. -/
theorem tally_set_receipt_le :
    (r.inviteAckReceipts.set record.requestId (x.ackReceipt team.id record)).tally
        (entryWeight account .inviteAckReceipts) ≤
      r.inviteAckReceipts.tally (entryWeight account .inviteAckReceipts) +
        share account (some team.id) := by
  have hweight : entryWeight account .inviteAckReceipts record.requestId
      (x.ackReceipt team.id record) = share account (some team.id) :=
    entryWeight_of_ne (e := .inviteAckReceipts) (by simp) account _ _
  have hold : 0 ≤ r.inviteAckReceipts.weightAt (entryWeight account .inviteAckReceipts)
      record.requestId := by
    unfold InsertionMap.weightAt
    cases r.inviteAckReceipts.get record.requestId with
    | none => exact le_rfl
    | some receipt => exact entryWeight_nonneg account .inviteAckReceipts _ _
  rw [InsertionMap.tally_set, hweight]
  omega

variable (x r team record account) in
theorem tally_receipts_le :
    (x.receiptsAfter r team record).tally (entryWeight account .inviteAckReceipts) ≤
      r.inviteAckReceipts.tally (entryWeight account .inviteAckReceipts) +
        share account (some team.id) :=
  (InsertionMap.tally_filter_le _ (entryWeight_nonneg account .inviteAckReceipts) _).trans
    (tally_set_receipt_le x r team record account)

/-! ### Putting back -/

theorem responses_putBack (h : AckPassed r team invite record) (k : String) :
    ((r.inviteResponses.delete record.requestId).set record.requestId record).get k =
      r.inviteResponses.get k := by
  rw [InsertionMap.get_set, InsertionMap.get_delete]
  split_ifs with hk
  · rw [hk, h.getResponse]
  · rfl

theorem invites_putBack (h : AckPassed r team invite record) (k : String) :
    ((r.invites.delete record.inviteId).set invite.id invite).get k = r.invites.get k := by
  rw [InsertionMap.get_set, InsertionMap.get_delete, h.ownInviteId]
  split_ifs with hk
  · rw [hk, h.getInvite]
  · rfl

theorem teams_putBack (h : AckPassed r team invite record) :
    (x.admitted r team record).teams.set team.id team = r.teams := by
  unfold HttpContext.admitted
  split_ifs
  · exact (InsertionMap.set_set _ _ _ _).trans (InsertionMap.set_eq_self h.getTeam)
  · exact InsertionMap.set_eq_self h.getTeam

theorem members_putBack (hmap : r.teamMembers.has team.id = true) :
    (x.admitted r team record).teamMembers.set team.id (r.membersOf team.id) = r.teamMembers := by
  have hself : r.teamMembers.set team.id (r.membersOf team.id) = r.teamMembers := by
    obtain ⟨members, hmembers⟩ := InsertionMap.has_iff.mp hmap
    refine InsertionMap.set_eq_self ?_
    rw [Records.membersOf, hmembers]
    rfl
  unfold HttpContext.admitted
  split_ifs
  · exact (InsertionMap.set_set _ _ _ _).trans hself
  · exact hself

theorem acknowledged_eq : x.acknowledged r team record =
    r.patched (x.admitted r team record).teamMembers (x.admitted r team record).teams
      (r.invites.delete record.inviteId) (r.inviteResponses.delete record.requestId)
      (x.receiptsAfter r team record) := by
  unfold HttpContext.acknowledged HttpContext.admitted
  split_ifs <;> rfl

/-- **A rollback puts everything back** under its key, when the team has a membership map. -/
theorem putBack_agrees (h : AckPassed r team invite record)
    (hmap : r.teamMembers.has team.id = true) :
    ((x.acknowledged r team record).putBack team invite record r).Agrees r := by
  rw [acknowledged_eq]
  intro e k
  cases e with
  | inviteResponses => exact h.responses_putBack k
  | invites => exact h.invites_putBack k
  | teams => exact congrArg (InsertionMap.get · k) (h.teams_putBack (x := x))
  | teamMembers => exact congrArg (InsertionMap.get · k) (members_putBack (x := x) hmap)
  | _ => rfl

theorem tally_teams_admitted (h : AckPassed r team invite record) :
    (x.admitted r team record).teams.tally (entryWeight account .teams) =
      r.teams.tally (entryWeight account .teams) := by
  unfold HttpContext.admitted
  split_ifs
  · exact h.tally_teams _
  · rfl

theorem admitted_eq : x.admitted r team record =
    r.patched (x.admitted r team record).teamMembers (x.admitted r team record).teams r.invites
      r.inviteResponses r.inviteAckReceipts := by
  unfold HttpContext.admitted
  split_ifs <;> rfl

theorem total_admitted (h : AckPassed r team invite record) :
    (x.admitted r team record).total (entryWeight account) = r.total (entryWeight account) +
      ((x.admitted r team record).teamMembers.tally (entryWeight account .teamMembers) -
        r.teamMembers.tally (entryWeight account .teamMembers)) := by
  rw [admitted_eq, total_patched, ← admitted_eq, h.tally_teams_admitted]
  omega


theorem bytes_patched (haccounted : s.Accounted) (members : InsertionMap String TeamMembers)
    (teams : InsertionMap String TeamRecord) (invites : InsertionMap String InviteRecord)
    (responses : InsertionMap String InviteResponseRecord)
    (receipts : InsertionMap String InviteAckReceipt) (a : ByteAccount) :
    (s.store.toRecords.patched members teams invites responses receipts).retainedBytes a ≤
      s.byteCapacity.limits.limit a := by
  have hbacklog : (s.store.toRecords.patched members teams invites responses receipts).mlsBacklog =
      s.store.toRecords.mlsBacklog := rfl
  have hblobs : (s.store.toRecords.patched members teams invites responses
      receipts).attachmentBlobs = s.store.toRecords.attachmentBlobs := rfl
  rw [retainedBytes_congr hbacklog hblobs]
  exact haccounted.holds.bytes a

theorem editAll_ackTail :
    (x.admitted r team record).editAll (x.ackTail r team record) = x.acknowledged r team record := by
  unfold HttpContext.acknowledged HttpContext.admitted
  split_ifs <;> rfl

/-- What is staged after the membership finds room. -/
theorem fits_ackTail (haccounted : s.Accounted)
    (h : AckPassed s.store.toRecords team invite record)
    (hadmitted : s.Holds (x.admitted s.store.toRecords team record)) :
    s.Fits (x.ackTail s.store.toRecords team record)
      (x.admitted s.store.toRecords team record) := by
  refine ⟨?_, trivial⟩
  have hrecords : (((x.admitted s.store.toRecords team record).edit
      (.delete .invites record.inviteId)).edit (.delete .inviteResponses record.requestId)).edit
        (.set .inviteAckReceipts record.requestId (x.ackReceipt team.id record)) =
      s.store.toRecords.patched (x.admitted s.store.toRecords team record).teamMembers
        (x.admitted s.store.toRecords team record).teams (s.store.invites.delete record.inviteId)
        (s.store.inviteResponses.delete record.requestId) (s.store.inviteAckReceipts.set
          record.requestId (x.ackReceipt team.id record)) := by
    unfold HttpContext.admitted
    split_ifs <;> rfl
  rw [hrecords]
  refine Holds.of_entries_le (fun account haccount ↦ ?_) (bytes_patched haccounted _ _ _ _ _)
  have hceiling := hadmitted.entries_le haccount
  have hreceipt := tally_set_receipt_le x s.store.toRecords team record account
  rw [h.total_admitted] at hceiling
  rw [total_patched, h.tally_teams_admitted, h.tally_invites, h.tally_responses]
  have := share_nonneg account (some team.id)
  omega

/-- Where the membership map has room, the count of the team does not need any. -/
theorem holds_admitted (haccounted : s.Accounted)
    (h : AckPassed s.store.toRecords team invite record) (happroved : record.status = .approved)
    (hmembers : s.Holds (s.store.toRecords.edit (.setTeamMembers team.id
      (x.withRequester team.id (s.store.membersOf team.id) record.requesterUserId)))) :
    s.Holds (x.admitted s.store.toRecords team record) := by
  refine Holds.of_entries_le (fun account haccount ↦ ?_) (fun a ↦ ?_)
  · have hceiling := hmembers.entries_le haccount
    have htotal := s.store.toRecords.total_withCollection (entryWeight account) .teamMembers
      (s.store.teamMembers.set team.id
        (x.withRequester team.id (s.store.membersOf team.id) record.requesterUserId))
    have hmap : (x.admitted s.store.toRecords team record).teamMembers =
        s.store.teamMembers.set team.id
          (x.withRequester team.id (s.store.membersOf team.id) record.requesterUserId) := by
      unfold HttpContext.admitted
      rw [if_pos happroved]
    rw [h.total_admitted, hmap]
    exact htotal.symm.trans_le hceiling
  · rw [admitted_eq]
    exact bytes_patched haccounted _ _ _ _ _ a

/-- **Staging**: only the membership can be refused, and nothing has been staged then. -/
theorem stage_settles (haccounted : s.Accounted)
    (h : AckPassed s.store.toRecords team invite record) :
    (s.Written (x.acknowledged s.store.toRecords team record)
        (s.editAll ((x.on s).ackTransaction team invite record).stage) ∧
      s.Holds (x.admitted s.store.toRecords team record)) ∨
    (∃ error, (s.editAll ((x.on s).ackTransaction team invite record).stage).2 = some error) ∧
      s.Unchanged (s.editAll ((x.on s).ackTransaction team invite record).stage).1 := by
  have htail : ∀ {s' : BoundedStore}, s'.Accounted → s.SameCeilings s' →
      s'.store.toRecords = x.admitted s.store.toRecords team record →
      s.Holds (x.admitted s.store.toRecords team record) →
      s'.Written (x.acknowledged s.store.toRecords team record)
        (s'.editAll (x.ackTail s.store.toRecords team record)) := by
    intro s' haccounted' hceilings hrecords hadmitted
    have hfits := (fits_ackTail haccounted h hadmitted).of_sameCeilings hceilings
    rw [← hrecords] at hfits
    have hwritten := written_editAll haccounted' hfits
    rw [hrecords, editAll_ackTail] at hwritten
    exact hwritten
  by_cases happroved : record.status = .approved
  · let members := x.withRequester team.id (s.store.membersOf team.id) record.requesterUserId
    have hstage : ((x.on s).ackTransaction team invite record).stage =
        .setTeamMembers team.id members :: .setTeam { team with members := members.size } ::
          x.ackTail s.store.toRecords team record := by
      show (if record.status = .approved then _ else _) ++ _ = _
      rw [if_pos happroved]
      rfl
    have hadmittedEq : x.admitted s.store.toRecords team record =
        (s.store.toRecords.edit (.setTeamMembers team.id members)).edit
          (.setTeam { team with members := members.size }) := if_pos happroved
    rw [hstage]
    rcases edit_settles haccounted (.setTeamMembers team.id members) with
      hwritten | ⟨⟨error, herror⟩, hunchanged⟩
    · have hadmitted := holds_admitted haccounted h happroved
        (hwritten.records ▸ hwritten.accounted.holds.of_sameCeilings hwritten.sameCeilings.symm)
      have hcounted : (s.edit (.setTeamMembers team.id members)).1.Written
          (x.admitted s.store.toRecords team record)
          ((s.edit (.setTeamMembers team.id members)).1.edit
            (.setTeam { team with members := members.size })) := by
        have hholds := hadmitted.of_sameCeilings hwritten.sameCeilings
        rw [hadmittedEq, ← hwritten.records] at hholds
        have hcounted := written_edit hwritten.accounted hholds
        rw [hwritten.records, ← hadmittedEq] at hcounted
        exact hcounted
      have hrest := htail hcounted.accounted
        (hwritten.sameCeilings.trans hcounted.sameCeilings) hcounted.records hadmitted
      exact .inl ⟨hwritten.andThen (hcounted.andThen hrest), hadmitted⟩
    · have hended : s.editAll (.setTeamMembers team.id members ::
          .setTeam { team with members := members.size } ::
            x.ackTail s.store.toRecords team record) =
          s.edit (.setTeamMembers team.id members) := by
        rw [editAll, Ended.andThen, herror]
      rw [hended]
      exact .inr ⟨⟨error, herror⟩, hunchanged⟩
  · have hadmitted : x.admitted s.store.toRecords team record = s.store.toRecords :=
      if_neg happroved
    have hstage : ((x.on s).ackTransaction team invite record).stage =
        x.ackTail s.store.toRecords team record := by
      show (if record.status = .approved then _ else _) ++ _ = _
      rw [if_neg happroved]
      rfl
    have hholds : s.Holds (x.admitted s.store.toRecords team record) := by
      rw [hadmitted]
      exact haccounted.holds
    rw [hstage]
    exact .inl ⟨htail haccounted ⟨rfl, rfl, rfl⟩ hadmitted.symm hholds, hholds⟩

/-- **The rollback finds room**, where there is room for one more entry. -/
theorem fits_rollback (haccounted : s.Accounted)
    (h : AckPassed s.store.toRecords team invite record)
    (hadmitted : s.Holds (x.admitted s.store.toRecords team record))
    (hmap : s.store.teamMembers.has team.id = true) (hroom : s.HasRoomFor team.id) :
    s.Fits ((x.on s).ackTransaction team invite record).rollback
      (x.acknowledged s.store.toRecords team record) := by
  let admitted := x.admitted s.store.toRecords team record
  let invites := s.store.invites.delete record.inviteId
  let responses := s.store.inviteResponses.delete record.requestId
  let receipts := x.receiptsAfter s.store.toRecords team record
  let members := s.store.membersOf team.id
  have hmembers : admitted.teamMembers.set team.id members = s.store.teamMembers :=
    members_putBack hmap
  have hteams : admitted.teams.set team.id team = s.store.teams := h.teams_putBack
  have hcounted : ∀ account : Option String, admitted.teams.tally (entryWeight account .teams) =
      s.store.teams.tally (entryWeight account .teams) := fun _ ↦ h.tally_teams_admitted
  have hgone : ∀ account : Option String, invites.tally (entryWeight account .invites) =
      s.store.invites.tally (entryWeight account .invites) - share account (some team.id) :=
    fun _ ↦ h.tally_invites
  have hinvites : ∀ account : Option String,
      (invites.set invite.id invite).tally (entryWeight account .invites) =
        s.store.invites.tally (entryWeight account .invites) :=
    fun _ ↦ InsertionMap.tally_congr h.invites_putBack _
  have hresponses : ∀ account : Option String,
      (responses.set record.requestId record).tally (entryWeight account .inviteResponses) =
        s.store.inviteResponses.tally (entryWeight account .inviteResponses) :=
    fun _ ↦ InsertionMap.tally_congr h.responses_putBack _
  have hreceipts : ∀ account : Option String,
      receipts.tally (entryWeight account .inviteAckReceipts) ≤
        s.store.inviteAckReceipts.tally (entryWeight account .inviteAckReceipts) +
          share account (some team.id) :=
    fun account ↦ tally_receipts_le x s.store.toRecords team record account
  have hholds : ∀ members teams invites responses receipts,
      (∀ account, account ≠ some "" → s.store.total (entryWeight account) +
        (members.tally (entryWeight account .teamMembers) -
          s.store.teamMembers.tally (entryWeight account .teamMembers)) +
        (teams.tally (entryWeight account .teams) -
          s.store.teams.tally (entryWeight account .teams)) +
        (invites.tally (entryWeight account .invites) -
          s.store.invites.tally (entryWeight account .invites)) +
        (responses.tally (entryWeight account .inviteResponses) -
          s.store.inviteResponses.tally (entryWeight account .inviteResponses)) +
        (receipts.tally (entryWeight account .inviteAckReceipts) -
          s.store.inviteAckReceipts.tally (entryWeight account .inviteAckReceipts)) ≤
            s.entryCeiling account) →
      s.Holds (s.store.toRecords.patched members teams invites responses receipts) :=
    fun _ _ _ _ _ hentries ↦ Holds.of_entries_le
      (fun account haccount ↦ (total_patched _ _ _ _ _ _).trans_le (hentries account haccount))
      (bytes_patched haccounted _ _ _ _ _)
  rw [acknowledged_eq]
  refine Fits.append (l := [_, _, _, _, _]) ⟨?_, ?_, ?_, ?_, trivial⟩ ?_
  · show s.Holds (s.store.toRecords.patched admitted.teamMembers admitted.teams invites
      (responses.set record.requestId record) receipts)
    refine hholds _ _ _ _ _ fun account haccount ↦ ?_
    have hceiling : s.store.total (entryWeight account) +
        (admitted.teamMembers.tally (entryWeight account .teamMembers) -
          s.store.teamMembers.tally (entryWeight account .teamMembers)) ≤ s.entryCeiling account :=
      h.total_admitted.symm.trans_le (hadmitted.entries_le haccount)
    have hreceipt := hreceipts account
    rw [hcounted, hgone, hresponses]
    omega
  · show s.Holds (s.store.toRecords.patched (admitted.teamMembers.set team.id members) admitted.teams
      invites (responses.set record.requestId record) receipts)
    refine hholds _ _ _ _ _ fun account haccount ↦ ?_
    have hceiling := haccounted.holds.entries_le haccount
    have hreceipt := hreceipts account
    rw [hmembers, hcounted, hgone, hresponses]
    omega
  · show s.Holds (s.store.toRecords.patched (admitted.teamMembers.set team.id members)
      (admitted.teams.set team.id team) invites (responses.set record.requestId record) receipts)
    refine hholds _ _ _ _ _ fun account haccount ↦ ?_
    have hceiling := haccounted.holds.entries_le haccount
    have hreceipt := hreceipts account
    rw [hmembers, hteams, hgone, hresponses]
    omega
  · show s.Holds (s.store.toRecords.patched (admitted.teamMembers.set team.id members)
      (admitted.teams.set team.id team) (invites.set invite.id invite)
      (responses.set record.requestId record) receipts)
    refine hholds _ _ _ _ _ fun account haccount ↦ ?_
    have hceiling := hroom.total_le haccounted haccount
    have hreceipt := hreceipts account
    rw [hmembers, hteams, hinvites, hresponses]
    omega
  · show s.Fits (restoreEntries (e := .inviteAckReceipts) _) ((s.store.toRecords.patched
      (admitted.teamMembers.set team.id members) (admitted.teams.set team.id team)
      (invites.set invite.id invite) (responses.set record.requestId record) receipts).edit
        (.deleteWhere .inviteAckReceipts fun _ _ ↦ true))
    rw [Records.edit_clear]
    refine fits_restoreEntries (e := .inviteAckReceipts) ?_
    show s.Holds (s.store.toRecords.patched (admitted.teamMembers.set team.id members)
      (admitted.teams.set team.id team) (invites.set invite.id invite)
      (responses.set record.requestId record) s.store.inviteAckReceipts)
    refine hholds _ _ _ _ _ fun account haccount ↦ ?_
    have hceiling := haccounted.holds.entries_le haccount
    rw [hmembers, hteams, hinvites, hresponses]
    omega

/-! ### What an acknowledgement has done -/

/-- The receipt is kept by the prune, unless 4096 others are as new. -/
theorem get_receiptsAfter (hfew : (r.inviteAckReceipts.entries.countP fun p ↦
      x.now ≤ p.2.acknowledgedAt) < 4096) :
    (x.receiptsAfter r team record).get record.requestId = some (x.ackReceipt team.id record) := by
  let receipts := r.inviteAckReceipts.set record.requestId (x.ackReceipt team.id record)
  have hget : receipts.get record.requestId = some (x.ackReceipt team.id record) :=
    InsertionMap.get_set_self _ _ _
  have hlive : x.now < (x.ackReceipt team.id record).expiresAt :=
    lt_add_of_pos_right _ (by decide)
  have hkept : record.requestId ∉ x.inviteAckReceiptsToPrune receipts := by
    rw [HttpContext.inviteAckReceiptsToPrune, List.mem_append, not_or]
    constructor
    · intro hexpired
      obtain ⟨⟨id, receipt⟩, hmem, rfl⟩ := List.mem_map.mp hexpired
      obtain ⟨hmem, hold⟩ := List.mem_filter.mp hmem
      rw [InsertionMap.mem_entries_iff.mp hmem] at hget
      rw [Option.some.inj hget] at hold
      exact absurd hlive (not_lt.mpr (of_decide_eq_true hold))
    · rw [mem_oldestBeyond List.filter_sublist hget, not_and_not_right]
      intro hmem
      have hnodup : receipts.entries.Nodup := receipts.nodup_keys.of_map
      refine List.mem_newest_of_countP_le (hnodup.sublist List.filter_sublist) hmem ?_
      have hsublist := List.Sublist.countP_le
        (p := fun p : String × InviteAckReceipt ↦ x.now ≤ p.2.acknowledgedAt)
        (List.filter_sublist (l := receipts.entries) (p := fun p ↦ x.now < p.2.expiresAt))
      have hset : (receipts.entries.countP fun p ↦ x.now ≤ p.2.acknowledgedAt) ≤
          (r.inviteAckReceipts.entries.countP fun p ↦ x.now ≤ p.2.acknowledgedAt) + 1 :=
        r.inviteAckReceipts.countP_set_le _ record.requestId (x.ackReceipt team.id record)
      exact hsublist.trans (by omega)
  unfold HttpContext.receiptsAfter
  rw [InsertionMap.get_filter, hget]
  exact Option.filter_some_pos (by simpa using hkept)

end AckPassed

/-- What an acknowledgement has done to the records. -/
structure Acknowledged (x : HttpContext) (r : Records) (team : TeamRecord)
    (record : InviteResponseRecord) (r' : Records) : Prop where
  /-- An approved requester is a member, once; nobody else's membership changes, and the team counts
  its members. -/
  admitted : record.status = .approved → ∃ members, r'.teamMembers.get team.id = some members ∧
    members.keys.count record.requesterUserId = 1 ∧
    (∀ userId, userId ≠ record.requesterUserId →
      members.get userId = (r.membersOf team.id).get userId) ∧
    ((r.membersOf team.id).has record.requesterUserId → members = r.membersOf team.id) ∧
    r'.teams.get team.id = some { team with members := members.size }
  notAdmitted : record.status = .denied → r'.teamMembers = r.teamMembers ∧ r'.teams = r.teams
  inviteGone : r'.invites.get record.inviteId = none
  responseGone : r'.inviteResponses.get record.requestId = none
  /-- There is one receipt, unless 4096 others are as new. -/
  receipt : (r.inviteAckReceipts.entries.countP fun p ↦ x.now ≤ p.2.acknowledgedAt) < 4096 →
    r'.inviteAckReceipts.get record.requestId = some (x.ackReceipt team.id record) ∧
      r'.inviteAckReceipts.keys.count record.requestId = 1
  elsewhere : ∀ e k, ¬IsAckKey team.id record.inviteId record.requestId e k →
    (r'.collection e).get k = (r.collection e).get k

theorem count_keys_eq_one {α β : Type} [DecidableEq α] {m : InsertionMap α β} {k : α} {v : β}
    (h : m.get k = some v) : m.keys.count k = 1 :=
  List.count_eq_one_of_mem m.nodup_keys (InsertionMap.mem_keys_iff.mpr ⟨v, h⟩)

theorem acknowledged_acknowledged (x : HttpContext) (r : Records) (team : TeamRecord)
    (record : InviteResponseRecord) :
    Acknowledged x r team record (x.acknowledged r team record) where
  admitted happroved := by
    have hmembers : (x.acknowledged r team record).teamMembers.get team.id = some
        (x.withRequester team.id (r.membersOf team.id) record.requesterUserId) := by
      unfold HttpContext.acknowledged HttpContext.admitted
      rw [if_pos happroved]
      exact InsertionMap.get_set_self _ _ _
    have hteam : (x.acknowledged r team record).teams.get team.id = some { team with
        members := (x.withRequester team.id (r.membersOf team.id) record.requesterUserId).size } := by
      unfold HttpContext.acknowledged HttpContext.admitted
      rw [if_pos happroved]
      exact InsertionMap.get_set_self _ _ _
    refine ⟨_, hmembers, ?_, fun userId hne ↦ ?_, fun hhas ↦ if_pos hhas, hteam⟩
    · unfold HttpContext.withRequester
      split_ifs with hhas
      · obtain ⟨member, hmember⟩ := InsertionMap.has_iff.mp hhas
        exact count_keys_eq_one hmember
      · exact count_keys_eq_one (InsertionMap.get_set_self _ _ _)
    · unfold HttpContext.withRequester
      split_ifs
      · rfl
      · exact InsertionMap.get_set_of_ne _ _ hne
  notAdmitted hdenied := by
    unfold HttpContext.acknowledged HttpContext.admitted
    rw [hdenied]
    exact ⟨rfl, rfl⟩
  inviteGone := InsertionMap.get_delete_self _ _
  responseGone := InsertionMap.get_delete_self _ _
  receipt hfew := by
    have hget : (x.receiptsAfter r team record).get record.requestId =
        some (x.ackReceipt team.id record) := AckPassed.get_receiptsAfter hfew
    exact ⟨hget, count_keys_eq_one hget⟩
  elsewhere e k hkey := by
    rw [AckPassed.acknowledged_eq]
    cases e with
    | inviteAckReceipts => exact absurd trivial hkey
    | invites => exact InsertionMap.get_delete_of_ne _ hkey
    | inviteResponses => exact InsertionMap.get_delete_of_ne _ hkey
    | teams =>
      show (x.admitted r team record).teams.get k = r.teams.get k
      unfold HttpContext.admitted
      split_ifs
      · exact InsertionMap.get_set_of_ne _ _ hkey
      · rfl
    | teamMembers =>
      show (x.admitted r team record).teamMembers.get k = r.teamMembers.get k
      unfold HttpContext.admitted
      split_ifs
      · exact InsertionMap.get_set_of_ne _ _ hkey
      · rfl
    | _ => rfl

/-! ### Atomicity -/

/-- The store when a call of the save function has ended: a promise leaves other tasks time. -/
def SaveCall.meanwhile (call : SaveCall) (others : List StoreOp) (s : BoundedStore) : BoundedStore :=
  match call with
  | .throws _ => s
  | .resolves | .rejects => s.interrupted others

/-- How an acknowledgement may end. -/
structure AcknowledgesAtomically (x : HttpContext) (s : BoundedStore) (team : TeamRecord)
    (record : InviteResponseRecord) (call : SaveCall) (others : List StoreOp)
    (ended : BoundedStore × TransactionEnd) : Prop where
  /-- Where a ceiling refuses the membership, nothing has changed. -/
  refused : ∀ error, ended.2 = .refused error →
    ended.1.store.toRecords = s.store.toRecords ∧ s.SameCounters ended.1
  /-- Persisted, it has been acknowledged, whatever others did next. -/
  persisted : ended.2 = .persisted → ∃ staged : BoundedStore,
    staged.store.toRecords = x.acknowledged s.store.toRecords team record ∧
      Acknowledged x s.store.toRecords team record staged.store.toRecords ∧
      ended.1 = call.meanwhile others staged
  /-- Rolled back, the keys that it wrote hold what they held, and the others what other tasks have
  left there. -/
  rolledBack : ended.2 = .rolledBack → ∃ staged : BoundedStore,
    Acknowledged x s.store.toRecords team record staged.store.toRecords ∧
    (∀ e k, IsAckKey team.id record.inviteId record.requestId e k → e ≠ .teamMembers →
      (ended.1.store.collection e).get k = (s.store.collection e).get k) ∧
    ended.1.store.teamMembers.get team.id = some (s.store.membersOf team.id) ∧
    ∀ e k, ¬IsAckKey team.id record.inviteId record.requestId e k →
      (ended.1.store.collection e).get k =
        ((call.meanwhile others staged).store.collection e).get k
  /-- Undisturbed, a save that fails changes nothing at all: the rollback goes through. -/
  undisturbed : call ≠ .resolves → (call = .rejects → others = []) → s.HasRoomFor team.id →
    s.store.teamMembers.has team.id = true → (∀ error, ended.2 ≠ .refused error) →
      ended.2 = .rolledBack ∧ ended.1.store.toRecords.Agrees s.store.toRecords ∧
        s.SameCounters ended.1

section Atomicity

open BoundedStore

variable {x : HttpContext} {s : BoundedStore} {team : TeamRecord} {invite : InviteRecord}
  {record : InviteResponseRecord}

/-- A transaction whose stage went through. -/
theorem transact_of_written {t : Transaction} {r : Records} (call : SaveCall)
    (others : List StoreOp) (hwritten : s.Written r (s.editAll t.stage)) :
    s.transact t call others =
      if call = .resolves then (call.meanwhile others (s.editAll t.stage).1, .persisted)
      else (call.meanwhile others (s.editAll t.stage).1).rollBack t := by
  have hnone := hwritten.none
  unfold transact
  generalize s.editAll t.stage = ended at hnone ⊢
  obtain ⟨s', refused⟩ := ended
  obtain rfl : refused = none := hnone
  cases call <;> rfl

theorem Accounted.meanwhile (h : s.Accounted) (call : SaveCall) (others : List StoreOp) :
    (call.meanwhile others s).Accounted := by
  cases call with
  | throws error => exact h
  | resolves => exact h.interrupted others
  | rejects => exact h.interrupted others

/-- What a rollback has put back, whatever it met. -/
theorem putBack_get (h : AckPassed s.store.toRecords team invite record) (r : Records) :
    (∀ e k, IsAckKey team.id record.inviteId record.requestId e k → e ≠ .teamMembers →
      ((r.putBack team invite record s.store.toRecords).collection e).get k =
        (s.store.collection e).get k) ∧
    (r.putBack team invite record s.store.toRecords).teamMembers.get team.id =
      some (s.store.membersOf team.id) ∧
    ∀ e k, ¬IsAckKey team.id record.inviteId record.requestId e k →
      ((r.putBack team invite record s.store.toRecords).collection e).get k =
        (r.collection e).get k := by
  refine ⟨fun e k hkey hne ↦ ?_, InsertionMap.get_set_self _ _ _, fun e k hkey ↦ ?_⟩
  · cases e with
    | teams =>
      obtain rfl : k = team.id := hkey
      exact (InsertionMap.get_set_self _ _ _).trans h.getTeam.symm
    | invites =>
      obtain rfl : k = record.inviteId := hkey
      show (r.invites.set invite.id invite).get _ = _
      rw [h.ownInviteId]
      exact (InsertionMap.get_set_self _ _ _).trans h.getInvite.symm
    | inviteResponses =>
      obtain rfl : k = record.requestId := hkey
      exact (InsertionMap.get_set_self _ _ _).trans h.getResponse.symm
    | inviteAckReceipts => rfl
    | teamMembers => exact absurd rfl hne
    | _ => exact hkey.elim
  · cases e with
    | teams => exact InsertionMap.get_set_of_ne _ _ hkey
    | teamMembers => exact InsertionMap.get_set_of_ne _ _ hkey
    | invites =>
      show (r.invites.set invite.id invite).get k = _
      rw [h.ownInviteId]
      exact InsertionMap.get_set_of_ne _ _ hkey
    | inviteResponses => exact InsertionMap.get_set_of_ne _ _ hkey
    | inviteAckReceipts => exact absurd trivial hkey
    | _ => rfl

/-- **An acknowledgement is atomic.** -/
theorem transact_atomic (haccounted : s.Accounted)
    (h : AckPassed s.store.toRecords team invite record) (call : SaveCall) (others : List StoreOp) :
    AcknowledgesAtomically x s team record call others
      (s.transact ((x.on s).ackTransaction team invite record) call others) := by
  rcases h.stage_settles (x := x) haccounted with
    ⟨hstaged, hadmitted⟩ | ⟨⟨error, herror⟩, hunchanged⟩
  · let staged := (s.editAll ((x.on s).ackTransaction team invite record).stage).1
    have hrecords : staged.store.toRecords = x.acknowledged s.store.toRecords team record :=
      hstaged.records
    have hacknowledged : Acknowledged x s.store.toRecords team record staged.store.toRecords := by
      rw [hrecords]
      exact acknowledged_acknowledged x s.store.toRecords team record
    rw [transact_of_written call others hstaged]
    by_cases hcall : call = .resolves
    · rw [if_pos hcall]
      exact ⟨nofun, fun _ ↦ ⟨staged, hrecords, hacknowledged, rfl⟩, nofun,
        fun hne ↦ absurd hcall hne⟩
    · rw [if_neg hcall]
      have hmeanwhile := Accounted.meanwhile hstaged.accounted call others
      have hends := rollBack_cases ((x.on s).ackTransaction team invite record)
        (call.meanwhile others staged)
      refine ⟨fun error hended ↦ ?_, fun hended ↦ ?_, fun hended ↦ ?_, ?_⟩
      · rcases hends with hback | ⟨other, hback⟩ <;> cases hended.symm.trans hback
      · rcases hends with hback | ⟨other, hback⟩ <;> cases hended.symm.trans hback
      · have hback := rollBack_eq_rolledBack hmeanwhile hended
        have hrecords := hback.records
        rw [editAll_rollback] at hrecords
        refine ⟨staged, hacknowledged, ?_⟩
        rw [hrecords]
        exact putBack_get h _
      · intro _ hothers hroom hmap _
        have hsame : call.meanwhile others staged = staged := by
          cases call with
          | throws error => rfl
          | resolves => exact absurd rfl hcall
          | rejects =>
            rw [hothers rfl]
            rfl
        have hfits := (h.fits_rollback haccounted hadmitted hmap hroom).of_sameCeilings
          hstaged.sameCeilings
        rw [← hstaged.records] at hfits
        rw [show call.meanwhile others
          (s.editAll ((x.on s).ackTransaction team invite record).stage).1 = staged from hsame]
        have hended := rollBack_of_fits hstaged.accounted hfits
        have hback := rollBack_eq_rolledBack hstaged.accounted hended
        have hagrees : (staged.rollBack
            ((x.on s).ackTransaction team invite record)).1.store.toRecords.Agrees
              s.store.toRecords := by
          have hrecords := hback.records
          rw [editAll_rollback, hstaged.records] at hrecords
          rw [hrecords]
          exact h.putBack_agrees hmap
        exact ⟨hended, hagrees, haccounted.sameCounters hback.accounted hagrees⟩
  · have hended : s.transact ((x.on s).ackTransaction team invite record) call others =
        ((s.editAll ((x.on s).ackTransaction team invite record).stage).1, .refused error) := by
      unfold transact
      generalize s.editAll ((x.on s).ackTransaction team invite record).stage = ended at herror ⊢
      obtain ⟨s', refused⟩ := ended
      obtain rfl : refused = some error := herror
      rfl
    rw [hended]
    have hrecords := congrArg RelayStore.toRecords hunchanged.1
    refine ⟨fun _ _ ↦ ⟨hrecords, ?_⟩, nofun, nofun, fun _ _ _ _ hnot ↦ absurd rfl (hnot error)⟩
    refine haccounted.sameCounters (haccounted.unchanged hunchanged) ?_
    rw [hrecords]
    exact Records.Agrees.refl _

end Atomicity

end MultAIplayer
