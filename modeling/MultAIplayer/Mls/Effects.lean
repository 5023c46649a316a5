import MultAIplayer.Mls.Operations

/-!
# What the operations change

One lemma for each part of an operation that changes something: what it stages, and what is written
with the group. The invariants of the engine are proved from these.
-/

namespace MultAIplayer.Mls

variable {K : Type} {lib : Libraries K} {call : Call} {e e' : Engine K} {roomId : String}

/-- A Commit of a room in the outbox. -/
@[grind =] def OutboxItem.isCommitOf (roomId : String) (item : OutboxItem) : Bool :=
  item.roomId = roomId && item.kind.isCommit

namespace Engine

abbrev outbox (e : Engine K) : InsertionMap String OutboxItem := e.storage.durable.outbox

abbrev stored (e : Engine K) : InsertionMap String (GroupState K) := e.storage.durable.groups

end Engine

/-! ### Results -/

theorem storageFailure_eq_ok {α : Type} {category : EngineErrorCategory} {operation : String}
    {result : Except StoreError α} {value : α}
    (h : Engine.storageFailure category operation result = .ok value) : result = .ok value := by
  cases result with
  | error error => cases h
  | ok other =>
    cases h
    rfl

theorem map_eq_ok {α β : Type} {f : α → β} {result : Except EngineError α} {b : β}
    (h : result.map f = .ok b) : ∃ a, result = .ok a ∧ f a = b := by
  cases result with
  | error error => cases h
  | ok a =>
    cases h
    exact ⟨a, rfl, rfl⟩

/-! ### Staging -/

theorem clearAllStaged_of_write {s s' : Storage K} {g g' : Group K}
    (hwrite : s.write call g = .ok (s', g')) : s'.clearAllStaged = s' := by
  rw [Storage.clearAllStaged, ← (Storage.write_eq_ok hwrite).2.1]

theorem stageCurrentHistorySecret_eq_ok {g : Group K}
    (h : e.stageCurrentHistorySecret lib roomId g = .ok e') :
    ∃ secret, lib.exportHistorySecret g.epoch = some secret ∧
      e' = e.setStorage { e.storage with
        staged.historySecret := some (roomId, g.currentEpoch, secret) } := by
  unfold Engine.stageCurrentHistorySecret at h
  split at h
  · cases h
  rename_i secret hsecret
  split at h
  · cases h
  · rename_i hstage
    cases h
    rw [Storage.stageHistorySecret_eq_ok hstage]
    exact ⟨secret, hsecret, rfl⟩

/-- The receipt of a join for an invite. -/
def JoinAdmissionMetadata.consumed (admission : JoinAdmissionMetadata) (responseHash : String)
    (epoch : ℕ) : ConsumedJoinReceipt where
  inviteId := admission.inviteId
  teamId := admission.teamId
  roomId := admission.roomId
  requestId := admission.requestId
  requesterUserId := admission.requesterUserId
  requesterDeviceId := admission.requesterDeviceId
  responseHash
  epoch

theorem stageJoin_eq_ok {s s' : Storage K} {g : Group K}
    {receipt : Option (JoinAdmissionMetadata × String)}
    (h : Engine.joinWelcomeInternal.stageJoin s g receipt = .ok s') :
    s' = { s with staged.joinReceipts := s.staged.joinReceipts ++
      receipt.toList.map fun (admission, responseHash) ↦
        admission.consumed responseHash g.currentEpoch } := by
  unfold Engine.joinWelcomeInternal.stageJoin at h
  split at h
  · cases h
    simp
  · rw [Storage.stageJoinReceipt_eq_ok h]
    rfl

theorem stagePublished_eq_ok {g : Group K} {messageId : String} {s : Storage K}
    (h : e.stagePublished lib roomId g messageId = .ok s) :
    ∃ secret, lib.exportHistorySecret g.epoch = some secret ∧
      s = { e.storage with staged := { e.storage.staged with
        historySecret := some (roomId, g.currentEpoch, secret)
        outboxDelete := e.storage.staged.outboxDelete ++ [messageId] } } := by
  unfold Engine.stagePublished at h
  split at h
  · cases h
  rename_i secret hsecret
  split at h
  · cases h
  · rename_i hstage
    rw [Storage.stageOutboxDelete_eq_ok (storageFailure_eq_ok h),
      Storage.stageHistorySecret_eq_ok hstage]
    exact ⟨secret, hsecret, rfl⟩

theorem stageOutboxDeletes_eq_ok {items : List OutboxItem} {s s' : Storage K}
    (h : Engine.stageOutboxDeletes items s = .ok s') :
    s' = { s with staged.outboxDelete := s.staged.outboxDelete ++ items.map OutboxItem.id } := by
  induction items generalizing s with
  | nil =>
    cases h
    simp
  | cons item rest ih =>
    unfold Engine.stageOutboxDeletes at h
    split at h
    · cases h
    · rename_i hdelete
      rw [ih h, Storage.stageOutboxDelete_eq_ok hdelete]
      simp

namespace Engine

/-- What goes with a Commit that is given up: the Welcomes of an addition, and its receipt. -/
@[grind =]
def clearedWith (e : Engine K) (roomId : String) (item : OutboxItem) (messageId : String) :
    List OutboxItem × Option ConsumedInviteReceipt :=
  if item.kind = .add then
    (e.outbox.values.filter fun other ↦
      other.roomId = roomId && other.epoch = item.epoch && other.kind = .welcome,
    e.storage.durable.inviteReceipts.values.find? fun receipt ↦ receipt.commitOutboxId = messageId)
  else ([], none)

theorem of_mem_clearedWith {item other : OutboxItem} {messageId : String}
    (h : other ∈ (e.clearedWith roomId item messageId).1) :
    other.kind = .welcome ∧ other ∈ e.outbox.values := by
  unfold clearedWith at h
  split at h
  · obtain ⟨hmem, hof⟩ := List.mem_filter.mp h
    simp only [Bool.and_eq_true, decide_eq_true_eq] at hof
    exact ⟨hof.2, hmem⟩
  · cases h

end Engine

/-- Giving up an addition deletes its invite receipt and its Welcomes. -/
theorem stageAddCleared_eq_ok {item : OutboxItem} {messageId : String} {s s' : Storage K}
    (h : Engine.stageAddCleared call roomId item messageId s = .ok s')
    (hs : s.durable = e.storage.durable) (hadd : item.kind = .add) :
    s' = { s with staged := { s.staged with
      outboxDelete := s.staged.outboxDelete ++
        (e.clearedWith roomId item messageId).1.map OutboxItem.id
      inviteReceiptDelete := s.staged.inviteReceiptDelete ++
        (e.clearedWith roomId item messageId).2.toList.map
          ConsumedInviteReceipt.capabilityHandle } } := by
  unfold Engine.clearedWith
  rw [if_pos hadd]
  unfold Engine.stageAddCleared at h
  split at h
  · cases h
  rename_i receipt hreceipt
  split at h
  · cases h
  rename_i s₁ hdelete
  split at h
  · cases h
  rename_i related hrelated
  have hs₁ : s₁ = { s with
      staged.inviteReceiptDelete := s.staged.inviteReceiptDelete ++
        receipt.toList.map ConsumedInviteReceipt.capabilityHandle } := by
    unfold Engine.stageAddCleared.stageReceiptDelete at hdelete
    split at hdelete
    · cases hdelete
      simp
    · rw [Storage.stageInviteReceiptDelete_eq_ok hdelete]
      rfl
  rw [stageOutboxDeletes_eq_ok h, Storage.access_eq_ok hrelated, hs₁, hs,
    Storage.access_eq_ok hreceipt, hs, List.filter_filter]
  simp only [Bool.and_comm, Bool.and_assoc]

theorem stageCleared_eq_ok {item : OutboxItem} {messageId : String} {s : Storage K}
    (h : e.stageCleared call roomId item messageId = .ok s) :
    s = { e.storage with staged := { e.storage.staged with
      outboxDelete := e.storage.staged.outboxDelete ++ messageId ::
        (e.clearedWith roomId item messageId).1.map OutboxItem.id
      inviteReceiptDelete := e.storage.staged.inviteReceiptDelete ++
        (e.clearedWith roomId item messageId).2.toList.map
          ConsumedInviteReceipt.capabilityHandle } } := by
  unfold Engine.stageCleared at h
  split at h
  · cases h
  rename_i s₁ hdelete
  obtain rfl := Storage.stageOutboxDelete_eq_ok hdelete
  split at h
  · rename_i hadd
    rw [stageAddCleared_eq_ok (e := e) h rfl hadd]
    simp
  · rename_i hadd
    cases h
    rw [Engine.clearedWith, if_neg hadd]
    simp

theorem prepareDenial_eq_ok {capabilityHandle bindingHash keyPackageHash : String}
    {responseBinding : CapabilityBinding} {responseMac : String} {s : Storage K} {id : String}
    (h : e.prepareDenial lib call capabilityHandle bindingHash keyPackageHash responseBinding
      responseMac = .ok (s, id)) :
    ∃ item : OutboxItem, item.kind.isCommit = false ∧ e.outbox.get item.id = none ∧
      s.durable.outbox = e.outbox.set item.id item ∧ s.durable.groups = e.stored ∧
      s.staged = e.storage.staged := by
  unfold Engine.prepareDenial at h
  split at h
  · cases h
  dsimp only at h
  split at h
  · cases h
  obtain ⟨s', hrecord, hs⟩ := map_eq_ok h
  cases hs
  obtain ⟨hnew, rfl⟩ := Storage.recordInviteDenial_eq_ok (storageFailure_eq_ok hrecord)
  exact ⟨_, rfl, hnew, rfl, rfl, rfl⟩

/-! ### Writing a Commit down -/

/-- The Commit that a group holds is staged, and nothing else that is a Commit. -/
structure CommitStaged (lib : Libraries K) (changed : Engine K) (roomId : String) (g : Group K)
    (message : Bytes) (s : Storage K) (item : OutboxItem) : Prop where
  durable : s.durable = changed.storage.durable
  fresh : s.Fresh
  deletes : s.staged.outboxDelete = []
  mem : item ∈ s.staged.outbox
  commit : item.isCommitOf roomId = true
  id : item.id = lib.digest message
  payload : item.payload = message
  epoch : item.epoch = g.currentEpoch + 1
  only : ∀ other ∈ s.staged.outbox, other.kind.isCommit = true → other = item

/-- The Commit that a group holds has been written with it. -/
def CommitPersisted (lib : Libraries K) (call : Call) (changed : Engine K) (roomId : String)
    (g : Group K) (message : Bytes) (written : Engine K) : Prop :=
  ∃ (s s' : Storage K) (item : OutboxItem), CommitStaged lib changed roomId g message s item ∧
    s.write call g = .ok (s', g.written) ∧
    written.groups = changed.groups.set roomId g.written ∧ written.storage = s'

section Persist

variable {changed written : Engine K} {g : Group K} {output : CommitOutput K}

/-- The invite receipt of an addition. -/
def InviteConsumption.receipt (consumption : InviteConsumption) (epoch : ℕ)
    (commitOutboxId welcomeOutboxId : String) : ConsumedInviteReceipt where
  capabilityHandle := consumption.capabilityHandle
  bindingHash := consumption.bindingHash
  keyPackageHash := consumption.keyPackageHash
  epoch
  commitOutboxId
  welcomeOutboxId
  responseBinding := consumption.responseBinding
  responseMac := consumption.responseMac

/-- The outbox items of an addition. -/
@[grind =]
def additionItems (lib : Libraries K) (roomId : String) (parentEpoch : ℕ) (commit welcome : Bytes)
    (welcomeMetadata : Option WelcomeRetryMetadata) : List OutboxItem :=
  [⟨lib.digest commit, roomId, parentEpoch + 1, .add, commit, some (.commit parentEpoch)⟩,
    ⟨lib.digest welcome, roomId, parentEpoch + 1, .welcome, welcome,
      welcomeMetadata.map .welcome⟩]

theorem stageAddMember_eq_ok {parentEpoch : ℕ} {commit welcome : Bytes}
    {welcomeMetadata : Option WelcomeRetryMetadata} {receipt : Option InviteConsumption}
    {s : Storage K} (hstaged : e.storage.staged = {})
    (h : e.stageAddMember lib call roomId parentEpoch commit welcome welcomeMetadata receipt =
      .ok s) :
    s.Fresh ∧ s = { e.storage with staged := {
      outbox := additionItems lib roomId parentEpoch commit welcome welcomeMetadata
      inviteReceipts := receipt.toList.map fun consumption ↦
        consumption.receipt (parentEpoch + 1) (lib.digest commit) (lib.digest welcome) } } := by
  unfold Engine.stageAddMember at h
  dsimp only at h
  split at h
  · cases h
  rename_i s₁ hcommit
  split at h
  · cases h
  rename_i s₂ hwelcome
  obtain ⟨rfl, hfresh₁⟩ := Storage.stageOutbox_eq_ok hcommit
  obtain ⟨rfl, hfresh₂⟩ := Storage.stageOutbox_eq_ok hwelcome
  have hfresh := hfresh₂ (hfresh₁ (Storage.fresh_of_staged_eq hstaged))
  split at h
  · cases h
    exact ⟨hfresh, by simp [hstaged, additionItems]⟩
  · obtain rfl := Storage.stageInviteReceipt_eq_ok (storageFailure_eq_ok h)
    exact ⟨⟨hfresh.new, hfresh.nodup⟩, by
      simp [hstaged, additionItems, InviteConsumption.receipt]⟩

theorem persistAddMember_eq_ok {welcomeMetadata : Option WelcomeRetryMetadata}
    {receipt : Option InviteConsumption} {value : AddMemberOutput}
    (hstaged : changed.storage.staged = {})
    (h : changed.persistAddMember lib call roomId welcomeMetadata receipt g output =
      .ok (written, value)) :
    CommitPersisted lib call changed roomId g output.message written := by
  unfold Engine.persistAddMember at h
  split at h
  · cases h
  rename_i welcome _
  obtain ⟨e', hpersist, hwritten⟩ := map_eq_ok h
  cases hwritten
  obtain ⟨s, s', hstage, hwrite, rfl⟩ := Engine.stageThenWrite_eq_ok hpersist
  obtain ⟨hfresh, hs⟩ := stageAddMember_eq_ok hstaged hstage
  have hitems : s.staged.outbox =
      additionItems lib roomId g.currentEpoch output.message welcome welcomeMetadata := by rw [hs]
  refine ⟨s, s', ⟨lib.digest output.message, roomId, g.currentEpoch + 1, .add, output.message,
    some (.commit g.currentEpoch)⟩, ⟨by rw [hs], hfresh, by rw [hs], ?_, ?_, rfl, rfl, rfl, ?_⟩, hwrite,
    rfl, rfl⟩
  · rw [hitems]
    exact List.mem_cons_self
  · simp [OutboxItem.isCommitOf, OutboxKind.isCommit]
  · intro other hother hcommit
    rw [hitems, additionItems, List.mem_pair] at hother
    rcases hother with rfl | rfl
    · rfl
    · cases hcommit

/-- One Commit is staged and written, which is what a removal and a handoff do. -/
theorem commitPersisted_of_stageOutbox {item : OutboxItem} {e' : Engine K}
    {category : EngineErrorCategory} {operation : String} (hstaged : changed.storage.staged = {})
    (hcommit : item.isCommitOf roomId = true) (hid : item.id = lib.digest output.message)
    (hpayload : item.payload = output.message) (hepoch : item.epoch = g.currentEpoch + 1)
    (h : changed.stageThenWrite call roomId g (Engine.storageFailure category operation
      (changed.storage.stageOutbox call lib.encodedLength item)) = .ok e')
    (hgroups : written.groups = e'.groups) (hstorage : written.storage = e'.storage) :
    CommitPersisted lib call changed roomId g output.message written := by
  obtain ⟨s, s', hstage, hwrite, rfl⟩ := Engine.stageThenWrite_eq_ok h
  obtain ⟨hs, hfresh⟩ := Storage.stageOutbox_eq_ok (storageFailure_eq_ok hstage)
  refine ⟨s, s', item, ⟨by rw [hs], hfresh (Storage.fresh_of_staged_eq hstaged),
    by simp [hs, hstaged], by simp [hs], hcommit, hid, hpayload, hepoch, ?_⟩, hwrite, hgroups,
    hstorage⟩
  intro other hother _
  simpa [hs, hstaged] using hother

theorem persistRemoveMember_eq_ok {value : OutboundCommit} (hstaged : changed.storage.staged = {})
    (h : changed.persistRemoveMember lib call roomId g output = .ok (written, value)) :
    CommitPersisted lib call changed roomId g output.message written := by
  obtain ⟨e', hpersist, hwritten⟩ := map_eq_ok h
  cases hwritten
  exact commitPersisted_of_stageOutbox hstaged (by simp [OutboxItem.isCommitOf, OutboxKind.isCommit])
    rfl rfl rfl hpersist rfl rfl

theorem persistTransferHost_eq_ok {record : HostContext} {transferId : String}
    {value : OutboundCommit} (hstaged : changed.storage.staged = {})
    (h : changed.persistTransferHost lib call roomId record transferId g output =
      .ok (written, value)) :
    CommitPersisted lib call changed roomId g output.message written := by
  unfold Engine.persistTransferHost at h
  dsimp only at h
  split at h
  · cases h
  obtain ⟨e', hpersist, hwritten⟩ := map_eq_ok h
  cases hwritten
  exact commitPersisted_of_stageOutbox hstaged (by simp [OutboxItem.isCommitOf, OutboxKind.isCommit])
    rfl rfl rfl hpersist rfl rfl

/-- A Commit whose records are written is kept, and the staged write is over. -/
theorem finishCommit_of_isOk {α : Type} (persist : Engine K → Except EngineError (Engine K × α))
    (h : (persist (e.setGroup roomId g)).isOk = true) :
    ∃ written value, persist (e.setGroup roomId g) = .ok (written, value) ∧
      e.finishCommit roomId g persist = (written.dropGuard, .ok value) := by
  rcases hpersist : persist (e.setGroup roomId g) with error | ⟨written, value⟩
  · rw [hpersist] at h
    cases h
  · refine ⟨written, value, rfl, ?_⟩
    unfold Engine.finishCommit
    dsimp only
    rw [hpersist]

end Persist

end MultAIplayer.Mls
