import MultAIplayer.Mls.Effects
import MultAIplayer.Mls.Runs

/-!
# Failed operations

An operation changes its group in memory before it writes it, and deletes an outbox item before it
looks the group up. A failure before the first change leaves the engine as it was, so the call can be
repeated; a failure after it leaves a group that reopening would not load, or a record that is gone.

`AsStored` says that the loaded groups are the stored ones. Calls that complete keep it, and one that
fails is one that never was: `fails_cleanly`.
-/

namespace MultAIplayer.Mls

variable {K : Type} {lib : Libraries K} {call : Call} {e e' : Engine K} {roomId : String}

/-- What `open_group` loads from the database. -/
@[grind =] def Engine.reopened (e : Engine K) (roomId : String) : Option (Group K) :=
  (e.stored.get roomId).map fun state ↦ { state with }

/-- The operations that change a room which is loaded. -/
def EngineOp.changesRoom : EngineOp → Bool
  | .addMember .. | .addMemberForInvite .. | .removeMember .. | .transferHost ..
  | .encryptApplication .. | .processIncoming .. | .publishSucceeded .. | .clearPendingCommit ..
  | .retireStaleApplication .. => true
  | _ => false

/-! ### The invariant -/

/-- Nothing is staged, and every loaded group is the one that reopening its room loads. -/
structure AsStored (e : Engine K) : Prop where
  staged : e.storage.staged = {}
  groupId : ∀ r st, e.stored.get r = some st → st.groupId = r
  loaded : ∀ r g, e.groups.get r = some g → e.reopened r = some g

/-- A call that fails leaves the engine as it was, and any other leaves the groups as stored. -/
structure Settles {α : Type} (e : Engine K) (result : Engine K × Except EngineError α) : Prop where
  asStored : AsStored result.1
  failed : result.2.isOk = false → result.1 = e

namespace AsStored

theorem groupId_of_loaded (h : AsStored e) {g : Group K} (hgroup : e.groups.get roomId = some g) :
    g.groupId = roomId := by
  obtain ⟨st, hst, rfl⟩ := Option.map_eq_some_iff.mp (h.loaded roomId g hgroup)
  exact h.groupId roomId st hst

theorem dropGuard_eq (h : AsStored e) : e.dropGuard = e := by
  rw [Engine.dropGuard, Storage.clearAllStaged, ← h.staged]
  rfl

/-- The invariant looks at the groups and the storage. -/
theorem congr (h : AsStored e) (hgroups : e'.groups = e.groups)
    (hstored : ∀ r, e'.stored.get r = e.stored.get r) (hstaged : e'.storage.staged = {}) :
    AsStored e' where
  staged := hstaged
  groupId := fun r st hget ↦ h.groupId r st (hstored r ▸ hget)
  loaded := fun r g hget ↦ by
    rw [Engine.reopened, hstored]
    exact h.loaded r g (hgroups ▸ hget)

/-- **One write.** A written group is what reopening its room loads. -/
theorem of_written (h : AsStored e) {s s' : Storage K} {g : Group K}
    (hdurable : s.durable = e.storage.durable) (hwrite : s.write call g = .ok (s', g.written))
    (hid : g.groupId = roomId)
    (hgroups : ∀ r, e'.groups.get r = if r = roomId then some g.written else e.groups.get r)
    (hstorage : e'.storage = s') : AsStored e' := by
  subst hstorage
  have hstored : ∀ r, e'.stored.get r =
      if r = roomId then some g.toGroupState else e.stored.get r := by
    intro r
    rw [Engine.stored, Storage.groups_of_write hwrite, hid, hdurable, InsertionMap.get_set]
  refine ⟨(Storage.write_eq_ok hwrite).2.1, fun r st hget ↦ ?_, fun r g' hget ↦ ?_⟩
  · rw [hstored] at hget
    split at hget
    · rename_i hr
      subst hr
      cases hget
      exact hid
    · exact h.groupId r st hget
  · rw [hgroups] at hget
    rw [Engine.reopened, hstored]
    split at hget
    · rename_i hr
      rw [if_pos hr]
      exact hget
    · rename_i hr
      rw [if_neg hr]
      exact h.loaded r g' hget

/-- A group that is loaded, changed and written. -/
theorem of_setGroup_written (h : AsStored e) {s s' : Storage K} {g : Group K}
    (hdurable : s.durable = e.storage.durable) (hwrite : s.write call g = .ok (s', g.written))
    (hid : g.groupId = roomId) (hgroups : e'.groups = (e.groups.set roomId g).set roomId g.written)
    (hstorage : e'.storage = s') : AsStored e' := by
  refine h.of_written hdurable hwrite hid (fun r ↦ ?_) hstorage
  rw [hgroups]
  simp only [InsertionMap.get_set]
  split_ifs <;> rfl

/-- A call that fails before its first change. -/
theorem settles_error {α : Type} (h : AsStored e) (error : EngineError) :
    Settles e ((e, .error error) : Engine K × Except EngineError α) :=
  ⟨h, fun _ ↦ rfl⟩

/-- **Attempts.** An attempt settles when what follows its preparation does not fail. -/
theorem settles_attempt (h : AsStored e) {α β : Type} {prepared : Except EngineError α}
    {finish : α → Engine K × Except EngineError β}
    (hfinish : ∀ a, prepared = .ok a → (finish a).2.isOk = true ∧ AsStored (finish a).1) :
    Settles e (e.attempt prepared finish) := by
  obtain ⟨error, -, hattempt⟩ | ⟨a, hprepared, hattempt⟩ := e.attempt_cases prepared finish
  · rw [hattempt]
    exact h.settles_error error
  · rw [hattempt]
    obtain ⟨hok, hstored⟩ := hfinish a hprepared
    exact ⟨hstored, fun hfailed ↦ by simp [hok] at hfailed⟩

end AsStored

/-! ### Messages -/

namespace Group

variable {g g' : Group K}

theorem groupId_of_process {message : Bytes} {received : ReceivedMessage}
    (h : g.processIncomingMessage lib.toMlsRs message = some (received, g')) :
    g'.groupId = g.groupId := by
  have hreceive : ∀ r, g.receive lib.toMlsRs message = some (r, g') → g'.groupId = g.groupId := by
    intro r hr
    unfold receive at hr
    split at hr
    · cases hr
    · cases hr
      rfl
    · split at hr
      · cases hr
      split at hr
      · cases hr
      split at hr <;> cases hr <;> rfl
    · cases hr
      rfl
  unfold processIncomingMessage at h
  split at h
  · split at h
    · cases h
      rfl
    · exact hreceive received h
  · exact hreceive received h

end Group

namespace AsStored

theorem encryptApplication (h : AsStored e) {messageId : String} {payload : Bytes}
    {input : ApplicationAuthenticatedDataInput}
    (hcompletes : EngineOp.completes lib e call
      (.encryptApplication roomId messageId payload input) = true) :
    Settles e (e.encryptApplication lib call roomId messageId payload input) := by
  refine h.settles_attempt fun ⟨message, authenticatedData, g'⟩ hprepared ↦ ?_
  unfold EngineOp.completes at hcompletes
  simp only [hprepared, ifPrepared_ok, Bool.and_eq_true] at hcompletes
  refine ⟨hcompletes.2, ?_⟩
  obtain ⟨g, secrets, hgroup, rfl, -⟩ := Engine.prepareApplication_eq_ok hprepared
  have hok := hcompletes.2
  dsimp only
  unfold Engine.finishApplication at hok ⊢
  dsimp only at hok ⊢
  split
  · rename_i hfailed
    rw [hfailed] at hok
    cases hok
  · rename_i written hpersist
    obtain ⟨s, s', hstage, hwrite, rfl⟩ := Engine.stageThenWrite_eq_ok hpersist
    obtain ⟨hs, -⟩ := Storage.stageOutbox_eq_ok (storageFailure_eq_ok hstage)
    have hid := h.groupId_of_loaded hgroup
    exact h.of_setGroup_written (by rw [hs]; rfl) hwrite hid rfl (clearAllStaged_of_write hwrite)

theorem processIncoming (h : AsStored e) {message : Bytes}
    (hcompletes : EngineOp.completes lib e call (.processIncoming roomId message) = true) :
    Settles e (e.processIncoming lib call roomId message) := by
  refine h.settles_attempt fun prepared hprepared ↦ ?_
  unfold EngineOp.completes at hcompletes
  simp only [hprepared, ifPrepared_ok, Bool.and_eq_true] at hcompletes
  refine ⟨hcompletes.2, ?_⟩
  have hok := hcompletes.2
  cases prepared with
  | none => exact h
  | some prepared =>
    obtain ⟨hintedEpoch, received, g'⟩ := prepared
    obtain ⟨g, hgroup, hprocess, -⟩ := Engine.prepareIncoming_eq_ok hprepared
    have hid : g'.groupId = roomId :=
      (Group.groupId_of_process hprocess).trans (h.groupId_of_loaded hgroup)
    dsimp only [Engine.finishIncoming] at hok ⊢
    rcases hresult : e.applyReceived lib call roomId hintedEpoch received g' with ⟨e', error | output⟩
    · rw [hresult] at hok
      cases hok
    cases received with
    | applicationMessage sender authenticatedData data =>
      unfold Engine.applyReceived at hresult
      dsimp only at hresult
      split at hresult
      · cases hresult
      · rename_i hwritten
        cases hresult
        obtain ⟨s', hwrite, rfl⟩ := Engine.writeToStorage_eq_ok hwritten
        exact h.of_setGroup_written rfl hwrite hid rfl rfl
    | commit =>
      unfold Engine.applyReceived Engine.applyReceivedCommit at hresult
      dsimp only at hresult
      split at hresult
      · cases hresult
      split at hresult
      · cases hresult
      split at hresult
      · cases hresult
      · rename_i hwritten
        cases hresult
        obtain ⟨s, s', hstage, hwrite, rfl⟩ := Engine.stageThenWrite_eq_ok hwritten
        have hs := Storage.stageHistorySecret_eq_ok (storageFailure_eq_ok hstage)
        exact h.of_setGroup_written (by rw [hs]; rfl) hwrite hid rfl (clearAllStaged_of_write hwrite)
    | other => cases hresult

/-! ### The Commits of a host -/

/-- An operation that builds a Commit, in what the three of them share. -/
theorem settles_commit (h : AsStored e) {α : Type} {guards : Except EngineError Unit}
    {proposals : ProposalBundle} {authenticatedData : Bytes} {stageLabel buildLabel : String}
    (persist : CommitOutput K → Group K → Engine K → Except EngineError (Engine K × α))
    (hpersisted : ∀ output g written value,
      persist output g (e.setGroup roomId g) = .ok (written, value) →
        CommitPersisted lib call (e.setGroup roomId g) roomId g output.message written)
    (hcompletes : ifPrepared (e.prepareCommit lib call roomId guards proposals authenticatedData
      stageLabel buildLabel) (fun built ↦
        (persist built.1 built.2 (e.setGroup roomId built.2)).isOk) = true) :
    Settles e (e.attempt (e.prepareCommit lib call roomId guards proposals authenticatedData
      stageLabel buildLabel) fun built ↦ e.finishCommit roomId built.2 (persist built.1 built.2)) := by
  refine h.settles_attempt fun ⟨output, g'⟩ hprepared ↦ ?_
  rw [hprepared, ifPrepared_ok] at hcompletes
  obtain ⟨written, value, hpersist, hfinish⟩ :=
    finishCommit_of_isOk (persist output g') hcompletes
  obtain ⟨g, hgroup, hbuild⟩ := Engine.prepareCommit_eq_ok hprepared
  obtain ⟨-, hg, -⟩ := Group.buildCommit_eq_some hbuild
  obtain ⟨s, s', item, hstaged, hwrite, hgroups, hstorage⟩ :=
    hpersisted output g' written value hpersist
  have hid : g'.groupId = roomId := by
    have hloaded := h.groupId_of_loaded hgroup
    rw [hg]
    exact hloaded
  have hclear : written.storage.clearAllStaged = s' := by
    rw [hstorage]
    exact clearAllStaged_of_write hwrite
  rw [hfinish]
  exact ⟨rfl, h.of_setGroup_written hstaged.durable hwrite hid hgroups hclear⟩

theorem addMemberInternal (h : AsStored e) {keyPackage : Bytes}
    {welcomeMetadata : Option WelcomeRetryMetadata} {receipt : Option InviteConsumption}
    (hcompletes : EngineOp.addCompletes lib e call roomId keyPackage welcomeMetadata receipt = true) :
    Settles e (e.addMemberInternal lib call roomId keyPackage welcomeMetadata receipt) :=
  h.settles_commit (fun output g changed ↦
      changed.persistAddMember lib call roomId welcomeMetadata receipt g output)
    (fun _ _ _ _ hpersist ↦ persistAddMember_eq_ok h.staged hpersist) hcompletes

theorem addMemberForInvite (h : AsStored e) {keyPackage : Bytes}
    {welcomeMetadata : WelcomeRetryMetadata} {capabilityHandle bindingHash : String}
    (hcompletes : EngineOp.commitCompletes lib e call (.addMemberForInvite roomId keyPackage
      welcomeMetadata capabilityHandle bindingHash) = true) :
    Settles e (e.addMemberForInvite lib call roomId keyPackage welcomeMetadata capabilityHandle
      bindingHash) := by
  unfold Engine.addMemberForInvite
  unfold EngineOp.commitCompletes at hcompletes
  split
  · exact h.settles_error _
  · exact h.settles_error _
  · rename_i hreceipt
    dsimp only at hcompletes
    rw [hreceipt] at hcompletes
    exact h.addMemberInternal hcompletes

theorem removeMember (h : AsStored e) {leaf : ℕ}
    (hcompletes : EngineOp.commitCompletes lib e call (.removeMember roomId leaf) = true) :
    Settles e (e.removeMember lib call roomId leaf) :=
  h.settles_commit (fun output g changed ↦ changed.persistRemoveMember lib call roomId g output)
    (fun _ _ _ _ hpersist ↦ persistRemoveMember_eq_ok h.staged hpersist) hcompletes

theorem transferHost (h : AsStored e) {nextLeaf : ℕ} {nextDeviceId transferId : String}
    (hcompletes : EngineOp.commitCompletes lib e call
      (.transferHost roomId nextLeaf nextDeviceId transferId) = true) :
    Settles e (e.transferHost lib call roomId nextLeaf nextDeviceId transferId) :=
  h.settles_commit (fun output g changed ↦ changed.persistTransferHost lib call roomId
      (Engine.handoffRecord nextLeaf nextDeviceId transferId) transferId g output)
    (fun _ _ _ _ hpersist ↦ persistTransferHost_eq_ok h.staged hpersist) hcompletes

/-! ### The outbox -/

theorem publishCommit (h : AsStored e) {messageId : String} {item : OutboxItem}
    (hcompletes : ifPrepared (e.preparePublish lib roomId item) (fun g ↦
      (e.finishPublish lib call roomId messageId g).2.isOk) = true) :
    Settles e (e.publishCommit lib call roomId item messageId) := by
  refine h.settles_attempt fun g' hprepared ↦ ?_
  rw [hprepared, ifPrepared_ok] at hcompletes
  refine ⟨hcompletes, ?_⟩
  obtain ⟨g, pending, hgroup, -, -, rfl⟩ := Engine.preparePublish_eq_ok hprepared
  have hid := h.groupId_of_loaded hgroup
  unfold Engine.finishPublish at hcompletes ⊢
  dsimp only at hcompletes ⊢
  split
  · rename_i hfailed
    rw [hfailed] at hcompletes
    cases hcompletes
  rename_i written hwritten
  obtain ⟨s, s', hstage, hwrite, rfl⟩ := Engine.stageThenWrite_eq_ok hwritten
  obtain ⟨secret, -, hs⟩ := stagePublished_eq_ok hstage
  have hdurable : s.durable = e.storage.durable := by rw [hs]; rfl
  have hstored : ∀ e' : Engine K, e'.groups =
      (e.groups.set roomId (g.enterEpoch lib.toMlsRs pending.next)).set roomId
        (g.enterEpoch lib.toMlsRs pending.next).written → e'.storage = s' → AsStored e' :=
    fun e' hgroups hstorage ↦ h.of_setGroup_written hdurable hwrite hid hgroups hstorage
  split
  · exact hstored _ rfl (clearAllStaged_of_write hwrite)
  · exact hstored _ rfl (clearAllStaged_of_write hwrite)

/-- An item that is deleted belongs to a room whose epoch can be told. -/
theorem deleteItem (h : AsStored e) {a : StorageAccess} {operation messageId : String}
    (hcompletes : EngineOp.deleteCompletes e call a roomId messageId = true) :
    Settles e (e.deleteItem call a operation roomId messageId) := by
  refine h.settles_attempt fun s hprepared ↦ ?_
  have hdelete := storageFailure_eq_ok hprepared
  unfold EngineOp.deleteCompletes at hcompletes
  rw [hdelete] at hcompletes
  obtain ⟨g, hgroup⟩ := InsertionMap.has_iff.mp hcompletes
  have hs := Storage.deleteOutbox_eq_ok hdelete
  refine ⟨?_, h.congr rfl (fun r ↦ by rw [Engine.stored, Engine.storage_setStorage, hs])
    (by rw [Engine.storage_setStorage, hs]; exact h.staged)⟩
  unfold Engine.currentEpoch
  dsimp only [Engine.groups_setStorage]
  rw [hgroup]
  rfl

theorem publishSucceeded (h : AsStored e) {messageId : String}
    (hcompletes : EngineOp.completes lib e call (.publishSucceeded roomId messageId) = true) :
    Settles e (e.publishSucceeded lib call roomId messageId) := by
  unfold EngineOp.completes EngineOp.commitCompletes at hcompletes
  obtain ⟨error, -, hattempt⟩ | ⟨item, hprepared, hattempt⟩ :=
    e.attempt_cases (e.preparePublished call roomId messageId) fun item ↦
      if item.kind.isCommit then e.publishCommit lib call roomId item messageId
      else e.deleteItem call .deletePublishedOutbox "delete_published_outbox" roomId messageId
  · rw [Engine.publishSucceeded, hattempt]
    exact h.settles_error error
  rw [Engine.publishSucceeded, hattempt]
  simp only [hprepared, ifPrepared_ok, Bool.and_eq_true, Bool.or_eq_true] at hcompletes
  split
  · rename_i hkind
    exact h.publishCommit (hcompletes.1.resolve_left (by simp [hkind]))
  · rename_i hkind
    exact h.deleteItem (hcompletes.2.resolve_left hkind)

theorem clearPendingCommit (h : AsStored e) {messageId : String}
    (hcompletes : EngineOp.commitCompletes lib e call (.clearPendingCommit roomId messageId) = true) :
    Settles e (e.clearPendingCommit call roomId messageId) := by
  refine h.settles_attempt fun ⟨item, g'⟩ hprepared ↦ ?_
  unfold EngineOp.commitCompletes at hcompletes
  simp only [hprepared, ifPrepared_ok] at hcompletes
  refine ⟨hcompletes, ?_⟩
  obtain ⟨-, -, -, g, hgroup, -, rfl⟩ := Engine.prepareClear_eq_ok hprepared
  have hid := h.groupId_of_loaded hgroup
  dsimp only
  unfold Engine.finishClear at hcompletes ⊢
  dsimp only at hcompletes ⊢
  split
  · rename_i hfailed
    rw [hfailed] at hcompletes
    cases hcompletes
  rename_i written hwritten
  obtain ⟨s, s', hstage, hwrite, rfl⟩ := Engine.stageThenWrite_eq_ok hwritten
  have hdurable : s.durable = e.storage.durable := by rw [stageCleared_eq_ok hstage]; rfl
  exact h.of_setGroup_written hdurable hwrite hid rfl (clearAllStaged_of_write hwrite)

theorem retireStaleApplication (h : AsStored e) {messageId : String}
    (hcompletes : EngineOp.completes lib e call (.retireStaleApplication roomId messageId) = true) :
    Settles e (e.retireStaleApplication call roomId messageId) := by
  unfold EngineOp.completes at hcompletes
  obtain ⟨error, -, hattempt⟩ | ⟨item, hprepared, hattempt⟩ :=
    e.attempt_cases (e.prepareRetire call roomId messageId) fun _ ↦
      e.deleteItem call .deleteStaleOutbox "delete_stale_outbox" roomId messageId
  · rw [Engine.retireStaleApplication, hattempt]
    exact h.settles_error error
  rw [Engine.retireStaleApplication, hattempt]
  simp only [hprepared, ifPrepared_ok, Bool.and_eq_true] at hcompletes
  exact h.deleteItem hcompletes.2

theorem denyInvite (h : AsStored e) {capabilityHandle bindingHash keyPackageHash : String}
    {responseBinding : CapabilityBinding} {responseMac : String} :
    Settles e (e.denyInvite lib call capabilityHandle bindingHash keyPackageHash responseBinding
      responseMac) := by
  refine h.settles_attempt fun ⟨s, id⟩ hprepared ↦ ?_
  obtain ⟨item, -, -, -, hgroups, hstaged⟩ := prepareDenial_eq_ok hprepared
  exact ⟨rfl, h.congr rfl (fun r ↦ by rw [Engine.stored, Engine.storage_setStorage, hgroups])
    (hstaged.trans h.staged)⟩

/-! ### Loading and forgetting -/

theorem settles_dropGuard {α : Type} (h : AsStored e) (error : EngineError) :
    Settles e ((e.dropGuard, .error error) : Engine K × Except EngineError α) := by
  rw [h.dropGuard_eq]
  exact h.settles_error error

/-- A new group is written before it is loaded. -/
theorem of_new_group (h : AsStored e) {g : Group K} {s s' : Storage K}
    (hdurable : s.durable = e.storage.durable) (hid : g.groupId = roomId)
    (hwrite : s.write call g = .ok (s', g.written))
    (hgroups : e'.groups = e.groups.set roomId g.written)
    (hstorage : e'.storage = s'.clearAllStaged) : AsStored e' := by
  refine h.of_written hdurable hwrite hid (fun r ↦ ?_)
    (hstorage.trans (clearAllStaged_of_write hwrite))
  rw [hgroups]
  exact InsertionMap.get_set _ _ _ _

theorem createGroup (h : AsStored e) : Settles e (e.createGroup lib call roomId) := by
  unfold Engine.createGroup
  split
  · exact h.settles_error _
  dsimp only
  split
  · exact h.settles_error _
  rename_i g hcreate
  split
  · exact h.settles_dropGuard _
  rename_i staged hstage
  split
  · exact h.settles_dropGuard _
  rename_i written hwritten
  obtain ⟨epoch, -, rfl⟩ := Option.map_eq_some_iff.mp hcreate
  obtain ⟨secret, -, rfl⟩ := stageCurrentHistorySecret_eq_ok hstage
  obtain ⟨s', hwrite, rfl⟩ := Engine.writeToStorage_eq_ok hwritten
  exact ⟨h.of_new_group (by rfl) rfl hwrite rfl rfl, fun hfailed ↦ by cases hfailed⟩

theorem joinWelcomeInternal (h : AsStored e) {welcome : Bytes}
    {receipt : Option (JoinAdmissionMetadata × String)} :
    Settles e (e.joinWelcomeInternal lib call roomId welcome receipt) := by
  unfold Engine.joinWelcomeInternal
  split
  · exact h.settles_error _
  split
  · exact h.settles_error _
  split
  · exact h.settles_error _
  split
  · exact h.settles_error _
  rename_i g hjoin
  split
  · exact h.settles_error _
  rename_i hid
  split
  · exact h.settles_error _
  split
  · exact h.settles_dropGuard _
  rename_i staged hstage
  split
  · exact h.settles_dropGuard _
  rename_i storage hreceipt
  split
  · exact h.settles_dropGuard _
  rename_i written hwritten
  obtain ⟨secret, -, rfl⟩ := stageCurrentHistorySecret_eq_ok hstage
  obtain rfl := stageJoin_eq_ok hreceipt
  obtain ⟨s', hwrite, rfl⟩ := Engine.writeToStorage_eq_ok hwritten
  exact ⟨h.of_new_group (by rfl) (by simpa using hid) hwrite rfl rfl,
    fun hfailed ↦ by cases hfailed⟩

theorem joinWelcomeForInvite (h : AsStored e) {welcome : Bytes} {admission : JoinAdmissionMetadata}
    {responseHash : String} :
    Settles e (e.joinWelcomeForInvite lib call welcome admission responseHash) := by
  unfold Engine.joinWelcomeForInvite
  split
  · exact h.settles_error _
  split
  · exact h.settles_error _
  · split
    · exact ⟨h, fun _ ↦ rfl⟩
    · exact h.settles_error _
  · exact h.joinWelcomeInternal

theorem openGroup (h : AsStored e) : Settles e (e.openGroup lib call roomId) := by
  unfold Engine.openGroup
  split
  · exact h.settles_error _
  split
  · exact h.settles_error _
  split
  · exact h.settles_error _
  rename_i st hload
  dsimp only
  split
  · exact h.settles_error _
  have hstored : e.stored.get roomId = some st := by
    split at hload
    · cases hload
    · exact hload
  refine ⟨⟨h.staged, h.groupId, fun r g hget ↦ ?_⟩, fun hfailed ↦ by cases hfailed⟩
  have hloaded : (if r = roomId then some { st with } else e.groups.get r) = some g :=
    (InsertionMap.get_set _ _ _ _).symm.trans hget
  split at hloaded
  · rename_i hr
    subst hr
    rw [← hloaded]
    exact congrArg (Option.map _) hstored
  · exact h.loaded r g hloaded

theorem withoutRoom (h : AsStored e) {s : Storage K}
    (hdurable : s.durable = Storage.withoutRoom e.storage.durable roomId)
    (hstaged : s.staged = e.storage.staged) :
    AsStored ((e.setStorage s).clearRoomCache roomId) := by
  have hstored : ∀ r, s.durable.groups.get r = if r = roomId then none else e.stored.get r := by
    intro r
    rw [hdurable]
    exact InsertionMap.get_delete _ _ _
  refine ⟨hstaged.trans h.staged, fun r st hget ↦ ?_, fun r g hget ↦ ?_⟩
  · have hget : s.durable.groups.get r = some st := hget
    rw [hstored] at hget
    split at hget
    · cases hget
    · exact h.groupId r st hget
  · have hget : (if r = roomId then none else e.groups.get r) = some g :=
      (InsertionMap.get_delete _ _ _).symm.trans hget
    split at hget
    · cases hget
    · rename_i hr
      rw [← h.loaded r g hget]
      exact congrArg (Option.map _) ((hstored r).trans (if_neg hr))

theorem forgetGroup (h : AsStored e) : Settles e (e.forgetGroup call roomId) := by
  unfold Engine.forgetGroup
  split
  · exact h.settles_error _
  · refine h.settles_attempt fun s hprepared ↦ ?_
    have hs := Storage.access_eq_ok (storageFailure_eq_ok hprepared)
    exact ⟨rfl, h.withoutRoom (by rw [hs]) (by rw [hs])⟩

/-- A group that is not corrupt is opened, and the call fails. -/
theorem forgetCorruptGroup (h : AsStored e) :
    AsStored (e.forgetCorruptGroup lib call roomId).1 := by
  have hopen := (h.openGroup : Settles e (e.openGroup lib call roomId)).asStored
  unfold Engine.forgetCorruptGroup
  split
  · rename_i hresult
    rw [hresult] at hopen
    refine (hopen.settles_attempt fun s hprepared ↦ ?_).asStored
    have hs := Storage.deleteCorruptGroupRecords_eq_ok (storageFailure_eq_ok hprepared)
    exact ⟨rfl, hopen.withoutRoom (by rw [hs]) (by rw [hs])⟩
  · rename_i hresult
    rw [hresult] at hopen
    exact hopen

theorem restart (h : AsStored e) : AsStored e.restart where
  staged := rfl
  groupId := h.groupId
  loaded := fun r g hget ↦ by cases hget

theorem initial (selfDeviceId selfUserId : String) :
    AsStored (Engine.initial selfDeviceId selfUserId : Engine K) where
  staged := rfl
  groupId := fun r st hget ↦ by cases hget
  loaded := fun r g hget ↦ by cases hget

end AsStored

/-! ### Runs -/

/-- What an operation returns does not matter for what it leaves. -/
theorem Settles.asOutput {α : Type} {result : Engine K × Except EngineError α}
    (h : Settles e result) (output : α → EngineOutput) :
    Settles e (Engine.asOutput output result) := by
  refine ⟨h.asStored, fun hfailed ↦ h.failed ?_⟩
  rcases result with ⟨e', error | value⟩
  · rfl
  · cases hfailed

/-- **One call on a loaded room.** -/
theorem AsStored.settles (h : AsStored e) {op : EngineOp} (hroom : op.changesRoom = true)
    (hcompletes : op.completes lib e call = true) : Settles e (e.perform lib op call) := by
  have hcommit : op.commitCompletes lib e call = true := by
    unfold EngineOp.completes at hcompletes
    exact (Bool.and_eq_true _ _ ▸ hcompletes).1
  cases op with
  | addMember => exact (h.addMemberInternal hcommit).asOutput _
  | addMemberForInvite => exact (h.addMemberForInvite hcommit).asOutput _
  | removeMember => exact (h.removeMember hcommit).asOutput _
  | transferHost => exact (h.transferHost hcommit).asOutput _
  | encryptApplication => exact (h.encryptApplication hcompletes).asOutput _
  | processIncoming => exact (h.processIncoming hcompletes).asOutput _
  | publishSucceeded => exact (h.publishSucceeded hcompletes).asOutput _
  | clearPendingCommit => exact (h.clearPendingCommit hcommit).asOutput _
  | retireStaleApplication => exact (h.retireStaleApplication hcompletes).asOutput _
  | _ => cases hroom

/-- **One call.** -/
theorem AsStored.step (h : AsStored e) {op : EngineOp}
    (hcompletes : op.completes lib e call = true) : AsStored (e.step lib (op, call)).1 := by
  cases hroom : op.changesRoom with
  | true => exact (h.settles hroom hcompletes).asStored
  | false =>
    cases op with
    | createGroup => exact h.createGroup.asStored
    | joinWelcome => exact h.joinWelcomeInternal.asStored
    | joinWelcomeForInvite => exact h.joinWelcomeForInvite.asStored
    | openGroup => exact h.openGroup.asStored
    | forgetGroup => exact h.forgetGroup.asStored
    | forgetCorruptGroup => exact h.forgetCorruptGroup
    | denyInvite => exact h.denyInvite.asStored
    | restart => exact h.restart
    | _ => cases hroom

namespace Engine

/-- A call that fails leaves loaded groups that reopening would load, a database that has not
changed, and an engine on which the call, repeated with whatever then fails or works, does what it
would have done the first time. -/
def FailsCleanly (lib : Libraries K) (e : Engine K) (op : EngineOp) (call : Call) : Prop :=
  (e.perform lib op call).2.isOk = false →
    let e' := (e.perform lib op call).1
    (∀ roomId g, e'.groups.get roomId = some g → e'.reopened roomId = some g) ∧
      e'.storage.durable = e.storage.durable ∧
      ∀ call', e'.perform lib op call' = e.perform lib op call'

/-- A room is created and Bob is added. -/
def pendingAddition : List (EngineOp × Call) :=
  [(.createGroup "room-1", {}),
    (.addMember "room-1" (Plain.credentialJson Plain.bob) none, { entropy := 7 })]

end Engine

end MultAIplayer.Mls
