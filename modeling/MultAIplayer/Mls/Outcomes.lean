import MultAIplayer.Mls.Effects
import MultAIplayer.Mls.Runs

/-!
# What a call can do

`Outcome` lists what one call of the engine can make of the loaded groups and of the database, and
`outcome_perform` shows that there is nothing else. `GroupStep` says how a loaded group changes, and
`StagedBy` which records an operation stages for its write.

A call starts and ends with nothing staged, whether it fails or not: `staged_perform`.
-/

namespace MultAIplayer.Mls

variable {K : Type} {lib : Libraries K} {call : Call} {e e' : Engine K} {op : EngineOp}
  {roomId : String} {g g' : Group K}

/-- The room that an operation creates or joins. -/
def EngineOp.enters : EngineOp → Option String
  | .createGroup roomId => some roomId
  | .joinWelcome roomId _ => some roomId
  | .joinWelcomeForInvite _ admission _ => some admission.roomId
  | _ => none

/-- The room that an operation forgets. -/
def EngineOp.forgets : EngineOp → Option String
  | .forgetGroup roomId => some roomId
  | .forgetCorruptGroup roomId => some roomId
  | _ => none

/-- What an operation makes of a loaded group before it writes it. -/
inductive GroupStep (lib : Libraries K) (call : Call) (e : Engine K) (roomId : String)
    (g : Group K) : Group K → Prop
  | ratcheted (secrets : K) (updates : List EpochRecord) :
    GroupStep lib call e roomId g { g.withSecrets secrets with updates }
  | built {proposals : ProposalBundle} {authenticatedData : Bytes} {output : CommitOutput K}
      {g' : Group K} (hcan : e.ensureCanCommit call roomId = .ok ())
      (hbuild : g.buildCommit lib.toMlsRs proposals authenticatedData call.entropy =
        some (output, g')) :
    GroupStep lib call e roomId g g'
  | applied {pending : PendingCommit K} (hpending : g.pending = some pending) :
    GroupStep lib call e roomId g (g.enterEpoch lib.toMlsRs pending.next)
  | followed {message : Bytes} {source : CommitSource} {proposals bundle : ProposalBundle}
      {next : EpochState K} (hsource : source ≠ .existingMember g.selfIndex)
      (hfilter : filterProposals lib.serde .receive source g.epoch.roster g.epoch.extensions
        proposals = .ok bundle)
      (happly : lib.applyCommit g.toGroupState message bundle = some (some next)) :
    GroupStep lib call e roomId g (g.enterEpoch lib.toMlsRs next)
  /-- A Commit that removes this member. -/
  | removed : GroupStep lib call e roomId g g
  | cleared : GroupStep lib call e roomId g g.clearPendingCommit

/-- What an operation stages for its write of the group of a room. -/
inductive StagedBy (lib : Libraries K) (e : Engine K) (roomId : String) (g : Group K) :
    EngineOp → Staged → Prop
  | createGroup {secret : Bytes}
      (hsecret : lib.exportHistorySecret g.epoch = some secret) :
    StagedBy lib e roomId g (.createGroup roomId)
      { historySecret := some (roomId, g.currentEpoch, secret) }
  | joinWelcome {welcome secret : Bytes}
      (hsecret : lib.exportHistorySecret g.epoch = some secret) :
    StagedBy lib e roomId g (.joinWelcome roomId welcome)
      { historySecret := some (roomId, g.currentEpoch, secret) }
  | joinWelcomeForInvite {welcome secret : Bytes} {admission : JoinAdmissionMetadata}
      {responseHash : String} (hroom : admission.roomId = roomId)
      (hsecret : lib.exportHistorySecret g.epoch = some secret)
      (hnew : e.storage.durable.joinReceipts.get admission.requestId = none) :
    StagedBy lib e roomId g (.joinWelcomeForInvite welcome admission responseHash)
      { historySecret := some (roomId, g.currentEpoch, secret)
        joinReceipts := [admission.consumed responseHash g.currentEpoch] }
  | addMember {keyPackage : Bytes}
      {welcomeMetadata : Option WelcomeRetryMetadata} {pending : PendingCommit K}
      (hpending : g.pending = some pending) (welcome : Bytes) :
    StagedBy lib e roomId g (.addMember roomId keyPackage welcomeMetadata)
      { outbox := additionItems lib roomId g.currentEpoch pending.message welcome welcomeMetadata }
  | addMemberForInvite {keyPackage : Bytes}
      {welcomeMetadata : WelcomeRetryMetadata} {capabilityHandle bindingHash : String}
      {pending : PendingCommit K} (hpending : g.pending = some pending)
      (hnew : e.storage.durable.inviteReceipts.get capabilityHandle = none) (welcome : Bytes) :
    StagedBy lib e roomId g
      (.addMemberForInvite roomId keyPackage welcomeMetadata capabilityHandle bindingHash)
      { outbox := additionItems lib roomId g.currentEpoch pending.message welcome
          (some welcomeMetadata)
        inviteReceipts := [(inviteConsumption welcomeMetadata capabilityHandle bindingHash).receipt
          (g.currentEpoch + 1) (lib.digest pending.message) (lib.digest welcome)] }
  | removeMember {leaf : ℕ} {pending : PendingCommit K}
      (hpending : g.pending = some pending) :
    StagedBy lib e roomId g (.removeMember roomId leaf)
      { outbox := [⟨lib.digest pending.message, roomId, g.currentEpoch + 1, .remove,
          pending.message, some (.commit g.currentEpoch)⟩] }
  | transferHost {nextLeaf : ℕ} {nextDeviceId transferId : String}
      {pending : PendingCommit K} {next : BasicAppCredential} (hpending : g.pending = some pending)
      (hnext : Engine.rosterCredential lib g nextLeaf = .ok next) :
    StagedBy lib e roomId g (.transferHost roomId nextLeaf nextDeviceId transferId)
      { outbox := [⟨lib.digest pending.message, roomId, g.currentEpoch + 1, .handoff,
          pending.message, some (.hostTransfer
            { version := 2
              transferId
              roomId
              commitMessageId := lib.digest pending.message
              parentEpoch := g.currentEpoch
              outgoingHostUserId := e.selfUserId
              outgoingHostDeviceId := e.selfDeviceId
              nextHostUserId := next.githubUserId
              nextHostDeviceId := nextDeviceId
              nextHostLeaf := nextLeaf })⟩] }
  | encryptApplication {messageId : String} {payload : Bytes}
      {input : ApplicationAuthenticatedDataInput} (message : Bytes) :
    StagedBy lib e roomId g (.encryptApplication roomId messageId payload input)
      { outbox := [⟨messageId, roomId, g.currentEpoch, .application, message,
          some (.application (lib.encodeAuthenticatedData
            { input with epoch := g.currentEpoch }))⟩] }
  | applicationReceived {message : Bytes} :
    StagedBy lib e roomId g (.processIncoming roomId message) {}
  | commitReceived {message secret : Bytes}
      (hsecret : lib.exportHistorySecret g.epoch = some secret) :
    StagedBy lib e roomId g (.processIncoming roomId message)
      { historySecret := some (roomId, g.currentEpoch, secret) }
  | publishSucceeded {messageId : String} {secret : Bytes}
      (hsecret : lib.exportHistorySecret g.epoch = some secret) :
    StagedBy lib e roomId g (.publishSucceeded roomId messageId)
      { historySecret := some (roomId, g.currentEpoch, secret)
        outboxDelete := [messageId] }
  | clearPendingCommit {messageId : String} {item : OutboxItem}
      (hitem : e.outbox.get messageId = some item) :
    StagedBy lib e roomId g (.clearPendingCommit roomId messageId)
      { outboxDelete := messageId ::
          (e.clearedWith roomId item messageId).1.map OutboxItem.id
        inviteReceiptDelete := (e.clearedWith roomId item messageId).2.toList.map
          ConsumedInviteReceipt.capabilityHandle }

/-- Where the group that an operation writes comes from. -/
inductive Written (lib : Libraries K) (call : Call) (e : Engine K) (op : EngineOp) (roomId : String)
    (g : Group K) : Prop
  | entered (hop : op.enters = some roomId) (hid : g.groupId = roomId) (hpending : g.pending = none)
      (hinserts : g.inserts = [])
  | changed {g₀ : Group K} (hop : op.enters = none) (hgroup : e.groups.get roomId = some g₀)
      (hstep : GroupStep lib call e roomId g₀ g)

/-- The loaded groups, with another one for a room. -/
def Reloads (e e' : Engine K) (roomId : String) (g : Option (Group K)) : Prop :=
  ∀ r, e'.groups.get r = if r = roomId then g else e.groups.get r

/-- What a call can make of the loaded groups and of the database. -/
inductive Outcome (lib : Libraries K) (call : Call) (e : Engine K) (op : EngineOp) (e' : Engine K) :
    Prop
  | silent (hgroups : e'.groups = e.groups) (hdurable : e'.storage.durable = e.storage.durable)
  | opened {roomId : String} {st : GroupState K} (hst : e.stored.get roomId = some st)
      (hgroups : Reloads e e' roomId (some { st with }))
      (hdurable : e'.storage.durable = e.storage.durable)
  | closed (hgroups : e'.groups = .empty) (hdurable : e'.storage.durable = e.storage.durable)
  /-- A failure after the loaded group has changed. -/
  | failed {roomId : String} {g g' : Group K} (hgroup : e.groups.get roomId = some g)
      (hstep : GroupStep lib call e roomId g g') (hgroups : Reloads e e' roomId (some g'))
      (hdurable : e'.storage.durable = e.storage.durable)
  | wrote {roomId : String} {g : Group K} {staged : Staged}
      (hwritten : Written lib call e op roomId g) (hstaged : StagedBy lib e roomId g op staged)
      (hfresh : Storage.Fresh { e.storage with staged })
      (htransaction : Storage.transaction call e.storage.durable staged g =
        .ok e'.storage.durable)
      (hgroups : Reloads e e' roomId (some g.written))
  | retired {messageId : String} {item : OutboxItem} (hget : e.outbox.get messageId = some item)
      (hkind : item.kind.isCommit = false) (hgroups : e'.groups = e.groups)
      (hdurable : e'.storage.durable = { e.storage.durable with
        outbox := e.outbox.delete messageId })
  | denied {receipt : DeniedInviteReceipt} {item : OutboxItem}
      (hnew : e.outbox.get item.id = none) (hkind : item.kind = .inviteDenial)
      (hmetadata : item.metadata = some (.inviteResponse receipt.responseBinding
        receipt.responseMac))
      (hgroups : e'.groups = e.groups)
      (hdurable : e'.storage.durable = { e.storage.durable with
        deniedInviteReceipts :=
          e.storage.durable.deniedInviteReceipts.set receipt.capabilityHandle receipt
        outbox := e.outbox.set item.id item })
  | forgot {roomId : String} (hop : op.forgets = some roomId) (hgroups : Reloads e e' roomId none)
      (hdurable : e'.storage.durable = Storage.withoutRoom e.storage.durable roomId)

/-- A call has one of the outcomes, and leaves nothing staged. -/
structure Performed (lib : Libraries K) (call : Call) (e : Engine K) (op : EngineOp)
    (e' : Engine K) : Prop where
  staged : e'.storage.staged = {}
  outcome : Outcome lib call e op e'

namespace Performed

/-- A call that changes nothing. -/
theorem same (hstaged : e.storage.staged = {}) : Performed lib call e op e :=
  ⟨hstaged, .silent rfl rfl⟩

/-- A call that fails before it changes anything but the staged records. -/
theorem dropped : Performed lib call e op e.dropGuard :=
  ⟨rfl, .silent rfl rfl⟩

theorem attempt {α β : Type} (hstaged : e.storage.staged = {}) {prepared : Except EngineError α}
    {finish : α → Engine K × Except EngineError β}
    (hfinish : ∀ a, prepared = .ok a → Performed lib call e op (finish a).1) :
    Performed lib call e op (e.attempt prepared finish).1 := by
  obtain ⟨error, -, hattempt⟩ | ⟨a, hprepared, hattempt⟩ := e.attempt_cases prepared finish
  · rw [hattempt]
    exact same hstaged
  · rw [hattempt]
    exact hfinish a hprepared

/-- A call that fails after it has changed the loaded group. -/
theorem failed (hgroup : e.groups.get roomId = some g)
    (hstep : GroupStep lib call e roomId g g') (hgroups : e'.groups = e.groups.set roomId g')
    (hdurable : e'.storage.durable = e.storage.durable) (hempty : e'.storage.staged = {}) :
    Performed lib call e op e' :=
  ⟨hempty, .failed hgroup hstep (fun _ ↦ hgroups ▸ InsertionMap.get_set _ _ _ _) hdurable⟩

/-- A call that has staged its records and written its group with them. -/
theorem wrote {s s' : Storage K} {staged : Staged} (hwritten : Written lib call e op roomId g)
    (hby : StagedBy lib e roomId g op staged) (hs : s = { e.storage with staged })
    (hfresh : s.Fresh) (hwrite : s.write call g = .ok (s', g.written)) (hgroups : Reloads e e' roomId (some g.written))
    (hstorage : e'.storage = s') : Performed lib call e op e' := by
  subst hs hstorage
  obtain ⟨-, hempty, htransaction⟩ := Storage.write_eq_ok hwrite
  exact ⟨hempty, .wrote hwritten hby hfresh htransaction hgroups⟩

end Performed

/-- A write of a group that is loaded already. -/
theorem reloads_setGroup {e' : Engine K}
    (h : e'.groups = (e.groups.set roomId g).set roomId g') : Reloads e e' roomId (some g') := by
  intro r
  rw [h, InsertionMap.get_set, InsertionMap.get_set]
  split <;> rfl

/-- No outbox item is staged. -/
theorem fresh_of_no_items {s : Storage K} (h : s.staged.outbox = []) : s.Fresh := by
  constructor <;> simp [h]

/-! ### Creating, joining and opening -/

namespace Performed

theorem createGroup (hstaged : e.storage.staged = {}) :
    Performed lib call e (.createGroup roomId) (e.createGroup lib call roomId).1 := by
  unfold Engine.createGroup
  split
  · exact same hstaged
  dsimp only
  split
  · exact same hstaged
  rename_i g hcreate
  split
  · exact dropped
  rename_i staged hstage
  split
  · exact dropped
  rename_i written hwritten
  obtain ⟨epoch, -, rfl⟩ := Option.map_eq_some_iff.mp hcreate
  obtain ⟨secret, hsecret, rfl⟩ := stageCurrentHistorySecret_eq_ok hstage
  obtain ⟨s', hwrite, rfl⟩ := Engine.writeToStorage_eq_ok hwritten
  refine wrote (.entered rfl rfl rfl rfl) (.createGroup hsecret) (by simp [hstaged])
    (fresh_of_no_items (by simp [hstaged])) hwrite (fun r ↦ ?_) (clearAllStaged_of_write hwrite)
  exact InsertionMap.get_set _ _ _ _

theorem joinWelcomeInternal (hstaged : e.storage.staged = {}) {welcome : Bytes}
    {receipt : Option (JoinAdmissionMetadata × String)} (hop : op.enters = some roomId)
    (hby : ∀ g secret, lib.exportHistorySecret g.epoch = some secret →
      StagedBy lib e roomId g op
        { historySecret := some (roomId, g.currentEpoch, secret)
          joinReceipts := receipt.toList.map fun (admission, responseHash) ↦
            admission.consumed responseHash g.currentEpoch }) :
    Performed lib call e op (e.joinWelcomeInternal lib call roomId welcome receipt).1 := by
  unfold Engine.joinWelcomeInternal
  split
  · exact same hstaged
  split
  · exact same hstaged
  split
  · exact same hstaged
  split
  · exact same hstaged
  rename_i g hjoin
  split
  · exact same hstaged
  rename_i hid
  split
  · exact same hstaged
  split
  · exact dropped
  rename_i staged hstage
  split
  · exact dropped
  rename_i storage hreceipt
  split
  · exact dropped
  rename_i written hwritten
  obtain ⟨joined, -, rfl⟩ := Option.map_eq_some_iff.mp hjoin
  obtain ⟨secret, hsecret, rfl⟩ := stageCurrentHistorySecret_eq_ok hstage
  obtain rfl := stageJoin_eq_ok hreceipt
  obtain ⟨s', hwrite, rfl⟩ := Engine.writeToStorage_eq_ok hwritten
  refine wrote (.entered hop (by simpa using hid) rfl rfl) (hby _ secret hsecret)
    (by simp [hstaged]) (fresh_of_no_items (by simp [hstaged])) hwrite (fun r ↦ ?_)
    (clearAllStaged_of_write hwrite)
  exact InsertionMap.get_set _ _ _ _

theorem joinWelcomeForInvite (hstaged : e.storage.staged = {}) {welcome : Bytes}
    {admission : JoinAdmissionMetadata} {responseHash : String} :
    Performed lib call e (.joinWelcomeForInvite welcome admission responseHash)
      (e.joinWelcomeForInvite lib call welcome admission responseHash).1 := by
  unfold Engine.joinWelcomeForInvite
  split
  · exact same hstaged
  split
  · exact same hstaged
  · split <;> exact same hstaged
  · rename_i hreceipt
    exact joinWelcomeInternal hstaged rfl fun _ _ hsecret ↦
      .joinWelcomeForInvite rfl hsecret (Storage.access_eq_ok hreceipt).symm

theorem openGroup (hstaged : e.storage.staged = {}) :
    Performed lib call e op (e.openGroup lib call roomId).1 := by
  unfold Engine.openGroup
  split
  · exact same hstaged
  split
  · exact same hstaged
  split
  · exact same hstaged
  rename_i st hload
  dsimp only
  split
  · exact same hstaged
  · have hstored : e.stored.get roomId = some st := by
      split at hload
      · cases hload
      · exact hload
    exact ⟨hstaged, .opened hstored (fun _ ↦ InsertionMap.get_set _ _ _ _) rfl⟩

/-! ### Forgetting -/

theorem forgot {s : Storage K} (hstaged : e.storage.staged = {})
    (hop : op.forgets = some roomId)
    (hs : s = { e.storage with durable := Storage.withoutRoom e.storage.durable roomId }) :
    Performed lib call e op ((e.setStorage s).clearRoomCache roomId) := by
  subst hs
  exact ⟨hstaged, .forgot hop (fun _ ↦ InsertionMap.get_delete _ _ _) rfl⟩

theorem forgetGroup (hstaged : e.storage.staged = {}) :
    Performed lib call e (.forgetGroup roomId) (e.forgetGroup call roomId).1 := by
  unfold Engine.forgetGroup
  split
  · exact same hstaged
  · exact attempt hstaged fun s hprepared ↦
      forgot hstaged rfl (Storage.access_eq_ok (storageFailure_eq_ok hprepared))

/-- A group that does not open is not loaded by the attempt. -/
theorem eq_of_openGroup_error {error : EngineError}
    (h : e.openGroup lib call roomId = (e', .error error)) : e' = e := by
  unfold Engine.openGroup at h
  split at h
  · exact (Prod.mk.inj h).1.symm
  split at h
  · exact (Prod.mk.inj h).1.symm
  split at h
  · exact (Prod.mk.inj h).1.symm
  dsimp only at h
  split at h
  · exact (Prod.mk.inj h).1.symm
  · cases h

theorem forgetCorruptGroup (hstaged : e.storage.staged = {}) :
    Performed lib call e (.forgetCorruptGroup roomId)
      (e.forgetCorruptGroup lib call roomId).1 := by
  have hopen : Performed lib call e (.forgetCorruptGroup roomId) (e.openGroup lib call roomId).1 := openGroup hstaged
  unfold Engine.forgetCorruptGroup
  split
  · rename_i e' operation hresult
    obtain rfl := eq_of_openGroup_error hresult
    exact attempt hstaged fun s hprepared ↦
      forgot hstaged rfl (Storage.deleteCorruptGroupRecords_eq_ok (storageFailure_eq_ok hprepared))
  · rename_i hresult
    rw [hresult] at hopen
    exact hopen

/-! ### Messages -/

theorem encryptApplication (hstaged : e.storage.staged = {}) {messageId : String} {payload : Bytes}
    {input : ApplicationAuthenticatedDataInput} :
    Performed lib call e (.encryptApplication roomId messageId payload input)
      (e.encryptApplication lib call roomId messageId payload input).1 := by
  refine attempt hstaged fun ⟨message, authenticatedData, g'⟩ hprepared ↦ ?_
  obtain ⟨g, secrets, hgroup, rfl, rfl⟩ := Engine.prepareApplication_eq_ok hprepared
  have hstep : GroupStep lib call e roomId g (g.withSecrets secrets) :=
    .ratcheted secrets g.updates
  dsimp only [Engine.finishApplication]
  split
  · exact failed hgroup hstep rfl rfl rfl
  · rename_i written hpersist
    obtain ⟨s, s', hstage, hwrite, rfl⟩ := Engine.stageThenWrite_eq_ok hpersist
    obtain ⟨hs, hfresh⟩ := Storage.stageOutbox_eq_ok (storageFailure_eq_ok hstage)
    exact wrote (.changed rfl hgroup hstep) (.encryptApplication message)
      (by simp [hs, hstaged, Group.currentEpoch, Group.withSecrets]) (hfresh (Storage.fresh_of_staged_eq hstaged)) hwrite
      (reloads_setGroup rfl) (clearAllStaged_of_write hwrite)

/-- What mls-rs makes of a message that comes in. -/
theorem groupStep_of_process {message : Bytes} {received : ReceivedMessage}
    (h : g.processIncomingMessage lib.toMlsRs message = some (received, g')) :
    GroupStep lib call e roomId g g' := by
  have hreceive : g.receive lib.toMlsRs message = some (received, g') →
      GroupStep lib call e roomId g g' := by
    intro hr
    unfold Group.receive at hr
    split at hr
    · cases hr
    · cases hr
      exact .ratcheted _ _
    · split at hr
      · cases hr
      rename_i hsource
      split at hr
      · cases hr
      rename_i bundle hfilter
      split at hr
      · cases hr
      · cases hr
        exact .removed
      · rename_i next happly
        cases hr
        exact .followed hsource hfilter happly
    · cases hr
      exact .ratcheted _ g.updates
  unfold Group.processIncomingMessage at h
  split at h
  · rename_i pending hpending
    split at h
    · cases h
      exact .applied hpending
    · exact hreceive h
  · exact hreceive h

theorem applyReceivedCommit (hstaged : e.storage.staged = {}) {message : Bytes} {g₀ : Group K}
    (hgroup : e.groups.get roomId = some g₀) (hstep : GroupStep lib call e roomId g₀ g) :
    Performed lib call e (.processIncoming roomId message)
      (e.applyReceivedCommit lib call roomId g).1 := by
  have hchanged : Performed lib call e (.processIncoming roomId message) (e.setGroup roomId g) :=
    failed hgroup hstep rfl rfl hstaged
  unfold Engine.applyReceivedCommit
  dsimp only
  split
  · exact hchanged
  split
  · exact hchanged
  rename_i secret hsecret
  split
  · exact failed hgroup hstep rfl rfl rfl
  · rename_i written hwritten
    obtain ⟨s, s', hstage, hwrite, rfl⟩ := Engine.stageThenWrite_eq_ok hwritten
    have hs := Storage.stageHistorySecret_eq_ok (storageFailure_eq_ok hstage)
    exact wrote (.changed rfl hgroup hstep) (.commitReceived hsecret) (by simp [hs, hstaged])
      (fresh_of_no_items (by simp [hs, hstaged])) hwrite (reloads_setGroup rfl)
      (clearAllStaged_of_write hwrite)

theorem processIncoming (hstaged : e.storage.staged = {}) {message : Bytes} :
    Performed lib call e (.processIncoming roomId message)
      (e.processIncoming lib call roomId message).1 := by
  refine attempt hstaged fun prepared hprepared ↦ ?_
  rcases prepared with - | ⟨hintedEpoch, received, g'⟩
  · exact same hstaged
  obtain ⟨g, hgroup, hprocess, -⟩ := Engine.prepareIncoming_eq_ok hprepared
  have hstep : GroupStep lib call e roomId g g' := groupStep_of_process hprocess
  have hchanged : Performed lib call e (.processIncoming roomId message) (e.setGroup roomId g') :=
    failed hgroup hstep rfl rfl hstaged
  dsimp only [Engine.finishIncoming, Engine.applyReceived]
  split
  · split
    · exact hchanged
    · rename_i written hwritten
      obtain ⟨s', hwrite, rfl⟩ := Engine.writeToStorage_eq_ok hwritten
      have hs : e.storage = { e.storage with staged := {} } := by rw [← hstaged]
      exact wrote (.changed rfl hgroup hstep) .applicationReceived hs
        (Storage.fresh_of_staged_eq hstaged) hwrite (reloads_setGroup rfl) rfl
  · exact applyReceivedCommit hstaged hgroup hstep
  · exact hchanged

/-! ### The Commits of a host -/

/-- A Commit is built by an operation whose guards allow it. -/
theorem groupStep_of_prepareCommit {guards : Except EngineError Unit} {proposals : ProposalBundle}
    {authenticatedData : Bytes} {stageLabel buildLabel : String} {output : CommitOutput K}
    (hcan : guards = .ok () → e.ensureCanCommit call roomId = .ok ())
    (h : e.prepareCommit lib call roomId guards proposals authenticatedData stageLabel buildLabel =
      .ok (output, g')) :
    ∃ g, e.groups.get roomId = some g ∧ GroupStep lib call e roomId g g' ∧
      g'.pending = some ⟨output.message, output.next⟩ := by
  have hguards : guards = .ok () := by
    unfold Engine.prepareCommit at h
    split at h
    · cases h
    · rfl
  obtain ⟨g, hgroup, hbuild⟩ := Engine.prepareCommit_eq_ok h
  refine ⟨g, hgroup, .built (hcan hguards) hbuild, ?_⟩
  rw [(Group.buildCommit_eq_some hbuild).2.1]

theorem finishCommit {α : Type} {persist : Engine K → Except EngineError (Engine K × α)}
    (hgroup : e.groups.get roomId = some g) (hstep : GroupStep lib call e roomId g g')
    (hpersist : ∀ written value, persist (e.setGroup roomId g') = .ok (written, value) →
      Performed lib call e op written.dropGuard) :
    Performed lib call e op (e.finishCommit roomId g' persist).1 := by
  unfold Engine.finishCommit
  dsimp only
  split
  · exact failed hgroup hstep rfl rfl rfl
  · rename_i written value hresult
    exact hpersist written value hresult

theorem addMemberInternal (hstaged : e.storage.staged = {}) {keyPackage : Bytes}
    {welcomeMetadata : Option WelcomeRetryMetadata} {receipt : Option InviteConsumption}
    (hop : op.enters = none) (hby : ∀ (g : Group K) pending welcome,
      g.pending = some pending → StagedBy lib e roomId g op
      { outbox := additionItems lib roomId g.currentEpoch pending.message welcome welcomeMetadata
        inviteReceipts := receipt.toList.map fun consumption ↦ consumption.receipt
          (g.currentEpoch + 1) (lib.digest pending.message) (lib.digest welcome) }) :
    Performed lib call e op
      (e.addMemberInternal lib call roomId keyPackage welcomeMetadata receipt).1 := by
  have hcan : e.addMemberGuards lib call roomId keyPackage receipt = .ok () →
      e.ensureCanCommit call roomId = .ok () := by
    intro hguards
    unfold Engine.addMemberGuards at hguards
    split at hguards
    · cases hguards
    · assumption
  refine attempt hstaged fun ⟨output, g'⟩ hprepared ↦ ?_
  obtain ⟨g, hgroup, hstep, hpending⟩ := groupStep_of_prepareCommit hcan hprepared
  refine finishCommit hgroup hstep fun written value hpersist ↦ ?_
  unfold Engine.persistAddMember at hpersist
  split at hpersist
  · cases hpersist
  rename_i welcome _
  obtain ⟨e', hsaved, hwritten⟩ := map_eq_ok hpersist
  cases hwritten
  obtain ⟨s, s', hstage, hwrite, rfl⟩ := Engine.stageThenWrite_eq_ok hsaved
  obtain ⟨hfresh, hs⟩ := stageAddMember_eq_ok hstaged hstage
  exact wrote (.changed hop hgroup hstep) (hby g' _ welcome hpending) hs hfresh hwrite
    (reloads_setGroup rfl) (clearAllStaged_of_write hwrite)

theorem addMemberForInvite (hstaged : e.storage.staged = {}) {keyPackage : Bytes}
    {welcomeMetadata : WelcomeRetryMetadata} {capabilityHandle bindingHash : String} :
    Performed lib call e
      (.addMemberForInvite roomId keyPackage welcomeMetadata capabilityHandle bindingHash)
      (e.addMemberForInvite lib call roomId keyPackage welcomeMetadata capabilityHandle
        bindingHash).1 := by
  unfold Engine.addMemberForInvite
  split
  · exact same hstaged
  · exact same hstaged
  · rename_i hreceipt
    exact addMemberInternal hstaged rfl fun g pending welcome hpending ↦
      .addMemberForInvite hpending (Storage.access_eq_ok hreceipt).symm welcome

/-- One Commit is staged and written, which is what a removal and a handoff do. -/
theorem of_stageOutbox {item : OutboxItem} {written e' : Engine K} {category : EngineErrorCategory}
    {operation : String} (hstaged : e.storage.staged = {}) (hop : op.enters = none)
    (hgroup : e.groups.get roomId = some g) (hstep : GroupStep lib call e roomId g g')
    (hby : StagedBy lib e roomId g' op { outbox := [item] })
    (h : (e.setGroup roomId g').stageThenWrite call roomId g' (Engine.storageFailure category
      operation ((e.setGroup roomId g').storage.stageOutbox call lib.encodedLength item)) =
        .ok e')
    (hgroups : written.groups = e'.groups) (hstorage : written.storage = e'.storage) :
    Performed lib call e op written.dropGuard := by
  obtain ⟨s, s', hstage, hwrite, rfl⟩ := Engine.stageThenWrite_eq_ok h
  obtain ⟨hs, hfresh⟩ := Storage.stageOutbox_eq_ok (storageFailure_eq_ok hstage)
  exact wrote (.changed hop hgroup hstep) hby (by simp [hs, hstaged])
    (hfresh (Storage.fresh_of_staged_eq hstaged)) hwrite (reloads_setGroup hgroups)
    ((congrArg Storage.clearAllStaged hstorage).trans (clearAllStaged_of_write hwrite))

theorem removeMember (hstaged : e.storage.staged = {}) {leaf : ℕ} :
    Performed lib call e (.removeMember roomId leaf) (e.removeMember lib call roomId leaf).1 := by
  have hcan : e.removeMemberGuards call roomId leaf = .ok () →
      e.ensureCanCommit call roomId = .ok () := by
    intro hguards
    unfold Engine.removeMemberGuards at hguards
    split at hguards
    · cases hguards
    · assumption
  refine attempt hstaged fun ⟨output, g'⟩ hprepared ↦ ?_
  obtain ⟨g, hgroup, hstep, hpending⟩ := groupStep_of_prepareCommit hcan hprepared
  refine finishCommit hgroup hstep fun written value hpersist ↦ ?_
  obtain ⟨e', hsaved, hwritten⟩ := map_eq_ok hpersist
  cases hwritten
  exact of_stageOutbox hstaged rfl hgroup hstep (.removeMember hpending) hsaved rfl rfl

theorem transferHost (hstaged : e.storage.staged = {}) {nextLeaf : ℕ}
    {nextDeviceId transferId : String} :
    Performed lib call e (.transferHost roomId nextLeaf nextDeviceId transferId)
      (e.transferHost lib call roomId nextLeaf nextDeviceId transferId).1 := by
  have hcan : e.transferHostGuards lib call roomId nextLeaf nextDeviceId transferId = .ok () →
      e.ensureCanCommit call roomId = .ok () := by
    intro hguards
    unfold Engine.transferHostGuards at hguards
    split at hguards
    · cases hguards
    · assumption
  refine attempt hstaged fun ⟨output, g'⟩ hprepared ↦ ?_
  obtain ⟨g, hgroup, hstep, hpending⟩ := groupStep_of_prepareCommit hcan hprepared
  refine finishCommit hgroup hstep fun written value hpersist ↦ ?_
  unfold Engine.persistTransferHost at hpersist
  dsimp only at hpersist
  split at hpersist
  · cases hpersist
  rename_i next hnext
  obtain ⟨e', hsaved, hwritten⟩ := map_eq_ok hpersist
  cases hwritten
  exact of_stageOutbox hstaged rfl hgroup hstep (.transferHost hpending hnext) hsaved rfl rfl

/-! ### The outbox -/

theorem deleteItem (hstaged : e.storage.staged = {}) {a : StorageAccess}
    {operation messageId : String} {item : OutboxItem}
    (hget : e.outbox.get messageId = some item) (hkind : item.kind.isCommit = false) :
    Performed lib call e op (e.deleteItem call a operation roomId messageId).1 := by
  refine attempt hstaged fun s hprepared ↦ ?_
  obtain rfl := Storage.deleteOutbox_eq_ok (storageFailure_eq_ok hprepared)
  exact ⟨hstaged, .retired hget hkind rfl rfl⟩

theorem publishCommit (hstaged : e.storage.staged = {}) {messageId : String} {item : OutboxItem} :
    Performed lib call e (.publishSucceeded roomId messageId)
      (e.publishCommit lib call roomId item messageId).1 := by
  refine attempt hstaged fun g' hprepared ↦ ?_
  obtain ⟨g, pending, hgroup, hpending, -, rfl⟩ := Engine.preparePublish_eq_ok hprepared
  have hstep : GroupStep lib call e roomId g (g.enterEpoch lib.toMlsRs pending.next) :=
    .applied hpending
  dsimp only [Engine.finishPublish]
  split
  · exact failed hgroup hstep rfl rfl rfl
  rename_i written hwritten
  obtain ⟨s, s', hstage, hwrite, rfl⟩ := Engine.stageThenWrite_eq_ok hwritten
  obtain ⟨secret, hsecret, hs⟩ := stagePublished_eq_ok hstage
  have hwrote : ∀ e' : Engine K, e'.groups =
      (e.groups.set roomId (g.enterEpoch lib.toMlsRs pending.next)).set roomId
        (g.enterEpoch lib.toMlsRs pending.next).written → e'.storage = s' →
      Performed lib call e (.publishSucceeded roomId messageId) e' :=
    fun e' hgroups hstorage ↦ wrote (.changed rfl hgroup hstep) (.publishSucceeded hsecret)
      (by simp [hs, hstaged]) (fresh_of_no_items (by simp [hs, hstaged])) hwrite
      (reloads_setGroup hgroups) hstorage
  split
  · exact hwrote _ rfl (clearAllStaged_of_write hwrite)
  · exact hwrote _ rfl (clearAllStaged_of_write hwrite)

theorem publishSucceeded (hstaged : e.storage.staged = {}) {messageId : String} :
    Performed lib call e (.publishSucceeded roomId messageId)
      (e.publishSucceeded lib call roomId messageId).1 := by
  refine attempt hstaged fun item hprepared ↦ ?_
  split
  · exact publishCommit hstaged
  · rename_i hkind
    exact deleteItem hstaged (Engine.preparePublished_eq_ok hprepared).1 (by simpa using hkind)

theorem clearPendingCommit (hstaged : e.storage.staged = {}) {messageId : String} :
    Performed lib call e (.clearPendingCommit roomId messageId)
      (e.clearPendingCommit call roomId messageId).1 := by
  refine attempt hstaged fun ⟨item, g'⟩ hprepared ↦ ?_
  obtain ⟨hget, -, -, g, hgroup, -, rfl⟩ := Engine.prepareClear_eq_ok hprepared
  have hstep : GroupStep lib call e roomId g g.clearPendingCommit := .cleared
  dsimp only [Engine.finishClear]
  split
  · exact failed hgroup hstep rfl rfl rfl
  rename_i written hwritten
  obtain ⟨s, s', hstage, hwrite, rfl⟩ := Engine.stageThenWrite_eq_ok hwritten
  have hs := stageCleared_eq_ok hstage
  exact wrote (.changed rfl hgroup hstep) (.clearPendingCommit hget)
    (by simp [hs, hstaged, Engine.clearedWith])
    (fresh_of_no_items (by simp [hs, hstaged])) hwrite (reloads_setGroup rfl)
    (clearAllStaged_of_write hwrite)

theorem retireStaleApplication (hstaged : e.storage.staged = {}) {messageId : String} :
    Performed lib call e op (e.retireStaleApplication call roomId messageId).1 := by
  refine attempt hstaged fun item hprepared ↦ ?_
  obtain ⟨hget, -, hkind⟩ := Engine.prepareRetire_eq_ok hprepared
  exact deleteItem hstaged hget (by rw [hkind]; rfl)

theorem denyInvite (hstaged : e.storage.staged = {}) {capabilityHandle bindingHash : String}
    {keyPackageHash : String} {responseBinding : CapabilityBinding} {responseMac : String} :
    Performed lib call e op (e.denyInvite lib call capabilityHandle bindingHash keyPackageHash
      responseBinding responseMac).1 := by
  refine attempt hstaged fun ⟨s, id⟩ hprepared ↦ ?_
  unfold Engine.prepareDenial at hprepared
  split at hprepared
  · cases hprepared
  dsimp only at hprepared
  split at hprepared
  · cases hprepared
  obtain ⟨s', hrecord, hs⟩ := map_eq_ok hprepared
  cases hs
  obtain ⟨hnew, rfl⟩ := Storage.recordInviteDenial_eq_ok (storageFailure_eq_ok hrecord)
  exact ⟨hstaged, .denied hnew rfl rfl rfl rfl⟩

end Performed

/-! ### Every call -/

/-- **One call.** It has one of the outcomes, and leaves nothing staged. -/
theorem performed_perform (lib : Libraries K) (call : Call) (hstaged : e.storage.staged = {})
    (op : EngineOp) : Performed lib call e op (e.perform lib op call).1 := by
  cases op with
  | createGroup roomId => exact .createGroup hstaged
  | joinWelcome roomId welcome =>
    exact .joinWelcomeInternal hstaged rfl fun _ _ hsecret ↦ .joinWelcome hsecret
  | joinWelcomeForInvite welcome admission responseHash => exact .joinWelcomeForInvite hstaged
  | openGroup roomId => exact .openGroup hstaged
  | forgetGroup roomId => exact .forgetGroup hstaged
  | forgetCorruptGroup roomId => exact .forgetCorruptGroup hstaged
  | addMember roomId keyPackage welcomeMetadata =>
    exact .addMemberInternal hstaged rfl fun _ _ welcome hpending ↦ .addMember hpending welcome
  | addMemberForInvite roomId keyPackage welcomeMetadata capabilityHandle bindingHash =>
    exact .addMemberForInvite hstaged
  | removeMember roomId leaf => exact .removeMember hstaged
  | transferHost roomId nextLeaf nextDeviceId transferId => exact .transferHost hstaged
  | encryptApplication roomId messageId payload input => exact .encryptApplication hstaged
  | processIncoming roomId message => exact .processIncoming hstaged
  | publishSucceeded roomId messageId => exact .publishSucceeded hstaged
  | clearPendingCommit roomId messageId => exact .clearPendingCommit hstaged
  | retireStaleApplication roomId messageId => exact .retireStaleApplication hstaged
  | denyInvite capabilityHandle bindingHash keyPackageHash responseBinding responseMac =>
    exact .denyInvite hstaged
  | restart => exact ⟨rfl, .closed rfl rfl⟩

end MultAIplayer.Mls
