import MultAIplayer.Mls.Outcomes
import Mathlib.Algebra.Ring.Nat

/-!
# Staged writes

What an operation stages is committed by its own write of a group, in one transaction with the group
and its epochs, or not at all: `staged_commits_with_own_write`.

## Prior epochs

A write that brings new prior epochs keeps, of these and of those that are stored, the ones less than
`maxEpochRetention` below the newest. In a room that is never created or joined over prior epochs of
an earlier group, these are the newest of the written group: `Windowed` is the invariant. A room that
is created anew keeps those of the group it had, which `not_keepsNewest_recreated` shows.
-/

namespace InsertionMap

variable {α β : Type} [DecidableEq α]

theorem has_set (m : InsertionMap α β) (k j : α) (v : β) :
    (m.set k v).has j = (decide (j = k) || m.has j) := by
  rw [has, get_set]
  by_cases h : j = k
  · simp [h]
  · simp [h, has]

theorem has_filter_key (m : InsertionMap α β) (p : α → Bool) (k : α) :
    (m.filter fun k _ ↦ p k).has k = (p k && m.has k) := by
  rw [has, get_filter, has]
  cases m.get k <;> cases p k <;> simp [Option.filter]

end InsertionMap

namespace MultAIplayer.Mls

variable {K : Type} {lib : Libraries K} {call : Call} {e e' : Engine K} {op : EngineOp}
  {roomId : String} {g g' : Group K} {d d' : Durable K} {staged : Staged}

/-! ### One transaction -/

theorem has_insertEpochs {groupId : String} {inserts : List EpochRecord}
    {epochs epochs' : InsertionMap (String × ℕ) Bytes}
    (h : Storage.insertEpochs groupId epochs inserts = .ok epochs') (r : String) (id : ℕ) :
    epochs'.has (r, id) = true ↔
      epochs.has (r, id) = true ∨ r = groupId ∧ id ∈ inserts.map EpochRecord.id := by
  induction inserts generalizing epochs with
  | nil =>
    cases h
    simp
  | cons epoch rest ih =>
    unfold Storage.insertEpochs at h
    split at h
    · cases h
    · rw [ih h, InsertionMap.has_set]
      simp only [Prod.mk.injEq, Bool.or_eq_true, decide_eq_true_eq, List.map_cons, List.mem_cons]
      tauto

/-- Updates change the data of an epoch, and nothing else. -/
theorem has_updateEpochs {groupId : String} {updates : List EpochRecord}
    {epochs epochs' : InsertionMap (String × ℕ) Bytes}
    (h : Storage.updateEpochs groupId epochs updates = .ok epochs') (key : String × ℕ) :
    epochs'.has key = epochs.has key := by
  induction updates generalizing epochs with
  | nil =>
    cases h
    rfl
  | cons epoch rest ih =>
    unfold Storage.updateEpochs at h
    split at h
    · cases h
    rw [ih h]
    split
    · rename_i hhas
      rw [InsertionMap.has_set]
      by_cases hkey : key = (groupId, epoch.id)
      · simp [hkey, hhas]
      · simp [hkey]
    · rfl

/-- The newest of the epochs that are inserted sets what is kept. -/
theorem has_pruneEpochs {groupId : String} {inserts : List EpochRecord}
    {epochs : InsertionMap (String × ℕ) Bytes} (r : String) (id : ℕ) :
    (Storage.pruneEpochs groupId inserts epochs).has (r, id) = true ↔
      epochs.has (r, id) = true ∧
        (r = groupId → ∀ last ∈ inserts.getLast?, last.id < id + maxEpochRetention) := by
  unfold Storage.pruneEpochs
  split
  · rename_i hlast
    simp [hlast]
  · rename_i last hlast
    have hforall : (∀ l ∈ inserts.getLast?, l.id < id + maxEpochRetention) ↔
        last.id < id + maxEpochRetention := by simp [hlast]
    rw [hforall]
    split
    · rw [InsertionMap.has_filter_key]
      simp only [Bool.and_eq_true, Bool.not_eq_true', Bool.and_eq_false_iff, decide_eq_false_iff_not]
      by_cases hr : r = groupId
      · simp only [hr, not_true_eq_false, false_or, forall_const]
        have : (¬id ≤ last.id - maxEpochRetention) ↔ last.id < id + maxEpochRetention := by omega
        tauto
      · simp [hr]
    · exact (and_iff_left fun _ ↦ by omega).symm

theorem get_insertMissing {α : Type} {m : InsertionMap String α} {l : List (String × α)}
    (hnew : ∀ p ∈ l, m.get p.1 = none) (hnodup : (l.map Prod.fst).Nodup) {k : String} {v : α} :
    (Storage.insertMissing m l).get k = some v ↔ (k, v) ∈ l ∨ m.get k = some v := by
  induction l generalizing m with
  | nil => simp [Storage.insertMissing]
  | cons p rest ih =>
    obtain ⟨k', v'⟩ := p
    rw [List.map_cons, List.nodup_cons] at hnodup
    have hmissing : m.get k' = none := hnew _ List.mem_cons_self
    have hhas : ¬m.has k' = true := by simp [InsertionMap.has, hmissing]
    unfold Storage.insertMissing
    rw [if_neg hhas, ih (fun p hp ↦ ?_) hnodup.2, InsertionMap.get_set, List.mem_cons]
    · split
      · rename_i hk
        subst hk
        have hrest : (k, v) ∉ rest := fun hmem ↦ hnodup.1 (List.mem_map.mpr ⟨_, hmem, rfl⟩)
        simp [hmissing, hrest, eq_comm]
      · rename_i hk
        simp [hk]
    · rw [InsertionMap.get_set_of_ne]
      · exact hnew p (List.mem_cons_of_mem _ hp)
      · rintro rfl
        exact hnodup.1 (List.mem_map.mpr ⟨p, hp, rfl⟩)

namespace Durable

/-- The retention of a room's history. -/
def retentionDays (d : Durable K) (roomId : String) : ℕ :=
  (d.historyRetention.get roomId).getD defaultHistoryRetentionDays

/-- The history secrets and the retention policies after a transaction that stages a secret. -/
def withHistorySecret (d : Durable K) (call : Call) : Option (String × ℕ × Bytes) →
    InsertionMap (String × ℕ) RetainedSecret × InsertionMap String ℕ
  | none => (d.historySecrets, d.historyRetention)
  | some (roomId, epoch, secret) =>
    (d.historySecrets.set (roomId, epoch)
      ⟨min (call.unixSeconds + d.retentionDays roomId * 86400) (2 ^ 64 - 1), secret⟩,
    Storage.insertMissing d.historyRetention [(roomId, d.retentionDays roomId)])

end Durable

/-- What a transaction commits: a group with its prior epochs, the staged records, and nothing
else. -/
structure Commits (call : Call) (d : Durable K) (staged : Staged) (g : Group K) (d' : Durable K) :
    Prop where
  groups : d'.groups = d.groups.set g.groupId g.toGroupState
  epochs : ∀ r id, d'.epochs.has (r, id) = true ↔
    (d.epochs.has (r, id) = true ∨ r = g.groupId ∧ id ∈ g.inserts.map EpochRecord.id) ∧
      (r = g.groupId → ∀ last ∈ g.inserts.getLast?, last.id < id + maxEpochRetention)
  outbox : ∀ k item, d'.outbox.get k = some item ↔ k ∉ staged.outboxDelete ∧
    (item ∈ staged.outbox ∧ item.id = k ∨ d.outbox.get k = some item)
  inviteReceipts : ∀ k receipt, d'.inviteReceipts.get k = some receipt ↔
    k ∉ staged.inviteReceiptDelete ∧ (receipt ∈ staged.inviteReceipts ∧
      receipt.capabilityHandle = k ∨ d.inviteReceipts.get k = some receipt)
  joinReceipts : ∀ k receipt, d'.joinReceipts.get k = some receipt ↔
    receipt ∈ staged.joinReceipts ∧ receipt.requestId = k ∨ d.joinReceipts.get k = some receipt
  history : (d'.historySecrets, d'.historyRetention) =
    d.withHistorySecret call staged.historySecret
  deniedInviteReceipts : d'.deniedInviteReceipts = d.deniedInviteReceipts

theorem writeHistorySecret_cases {secret : Option (String × ℕ × Bytes)}
    (h : Storage.writeHistorySecret call d secret = .ok d') :
    d' = { d with
      historySecrets := (d.withHistorySecret call secret).1
      historyRetention := (d.withHistorySecret call secret).2 } := by
  unfold Storage.writeHistorySecret at h
  split at h
  · cases h
    rfl
  · dsimp only at h
    split at h
    · cases h
    · cases h
      rfl

/-- What a transaction changes, record by record. -/
theorem transaction_cases (h : Storage.transaction call d staged g = .ok d') :
    ∃ inserted updated, Storage.insertEpochs g.groupId d.epochs g.inserts = .ok inserted ∧
      Storage.updateEpochs g.groupId inserted g.updates = .ok updated ∧
      d' = { d with
        groups := d.groups.set g.groupId g.toGroupState
        epochs := Storage.pruneEpochs g.groupId g.inserts updated
        outbox := (d.outbox.setAll (staged.outbox.map fun item ↦ (item.id, item))).deleteAll
          staged.outboxDelete
        inviteReceipts := (Storage.insertMissing d.inviteReceipts (staged.inviteReceipts.map
          fun receipt ↦ (receipt.capabilityHandle, receipt))).deleteAll staged.inviteReceiptDelete
        joinReceipts := Storage.insertMissing d.joinReceipts
          (staged.joinReceipts.map fun receipt ↦ (receipt.requestId, receipt))
        historySecrets := (d.withHistorySecret call staged.historySecret).1
        historyRetention := (d.withHistorySecret call staged.historySecret).2 } := by
  unfold Storage.transaction at h
  split at h
  · cases h
  rename_i inserted hinserted
  split at h
  · cases h
  rename_i updated hupdated
  split at h
  · cases h
  · rename_i hsecret
    cases h
    rw [writeHistorySecret_cases hsecret]
    refine ⟨inserted, updated, hinserted, hupdated, ?_⟩
    rcases staged.historySecret with - | ⟨r, epoch, secret⟩ <;> rfl

/-- The receipts that an operation stages are new. -/
theorem StagedBy.receipts (h : StagedBy lib e roomId g op staged) :
    ((∀ receipt ∈ staged.inviteReceipts,
        e.storage.durable.inviteReceipts.get receipt.capabilityHandle = none) ∧
      staged.inviteReceipts.length ≤ 1) ∧
    (∀ receipt ∈ staged.joinReceipts,
        e.storage.durable.joinReceipts.get receipt.requestId = none) ∧
      staged.joinReceipts.length ≤ 1 := by
  cases h with
  | joinWelcomeForInvite hroom hsecret hnew =>
    exact ⟨⟨by simp, by simp⟩, by simpa [JoinAdmissionMetadata.consumed] using hnew, by simp⟩
  | addMemberForInvite hpending hnew welcome =>
    exact ⟨⟨by simpa [InviteConsumption.receipt, inviteConsumption] using hnew, by simp⟩, by simp,
      by simp⟩
  | _ => simp

theorem nodup_of_length_le_one {α : Type} {l : List α} (h : l.length ≤ 1) : l.Nodup := by
  rcases l with - | ⟨a, - | ⟨b, l⟩⟩
  · exact List.nodup_nil
  · exact List.nodup_singleton a
  · simp at h

/-- **One transaction.** It commits what the operation has staged, and the group. -/
theorem commits_of_transaction (hby : StagedBy lib e roomId g op staged)
    (hfresh : Storage.Fresh { e.storage with staged })
    (h : Storage.transaction call e.storage.durable staged g = .ok d') :
    Commits call e.storage.durable staged g d' := by
  obtain ⟨inserted, updated, hinserted, hupdated, rfl⟩ := transaction_cases h
  obtain ⟨⟨hinvite, hinviteLength⟩, hjoin, hjoinLength⟩ := hby.receipts
  refine ⟨rfl, fun r id ↦ ?_, fun k item ↦ ?_, fun k receipt ↦ ?_, fun k receipt ↦ ?_, rfl, rfl⟩
  · rw [has_pruneEpochs, has_updateEpochs hupdated, has_insertEpochs hinserted]
  · have hkeys : ((staged.outbox.map fun item ↦ (item.id, item)).map Prod.fst).Nodup := by
      simpa [Function.comp_def] using hfresh.nodup
    rw [InsertionMap.get_deleteAll, InsertionMap.get_setAll _ hkeys]
    by_cases hk : k ∈ staged.outboxDelete
    · simp [hk]
    rw [if_neg hk, ← Storage.lookupEntry_outbox hfresh.nodup]
    cases hlookup : InsertionMap.lookupEntry k (staged.outbox.map fun item ↦ (item.id, item)) with
    | none => simp [hk]
    | some found =>
      obtain ⟨hmem, rfl⟩ := (Storage.lookupEntry_outbox hfresh.nodup).mp hlookup
      have hnew : e.storage.durable.outbox.get found.id = none := hfresh.new found hmem
      simp [hk, hnew]
  · rw [InsertionMap.get_deleteAll]
    by_cases hk : k ∈ staged.inviteReceiptDelete
    · simp [hk]
    rw [if_neg hk, get_insertMissing]
    · simp only [List.mem_map, Prod.mk.injEq, hk, not_false_eq_true, true_and]
      aesop
    · simpa using hinvite
    · exact nodup_of_length_le_one (by simpa using hinviteLength)
  · rw [get_insertMissing]
    · simp only [List.mem_map, Prod.mk.injEq]
      aesop
    · simpa using hjoin
    · exact nodup_of_length_le_one (by simpa using hjoinLength)

/-! ### Prior epochs -/

/-- A Commit leads to the next epoch. -/
structure EpochsAdvance (mls : MlsRs K) : Prop where
  built : ∀ g proposals authenticatedData entropy output,
    mls.buildCommit g proposals authenticatedData entropy = some output →
      output.next.number = g.epoch.number + 1
  applied : ∀ g message proposals next, mls.applyCommit g message proposals = some (some next) →
    next.number = g.epoch.number + 1

/-- A pending Commit leads to the next epoch. -/
def GroupState.PendingNext (st : GroupState K) : Prop :=
  ∀ pending, st.pending = some pending → pending.next.number = st.epoch.number + 1

theorem GroupState.pendingNext_of_none {st : GroupState K} (h : st.pending = none) :
    st.PendingNext := by
  simp [PendingNext, h]

/-- A group stays on its epoch, or enters the next one and keeps the one it leaves. -/
inductive Moves (g g' : Group K) : Prop
  | stays (hnumber : g'.epoch.number = g.epoch.number) (hinserts : g'.inserts = g.inserts)
  | enters (hnumber : g'.epoch.number = g.epoch.number + 1) {data : Bytes}
      (hinserts : g'.inserts = g.inserts ++ [⟨g.epoch.number, data⟩])

theorem GroupStep.groupId_eq (h : GroupStep lib call e roomId g g') : g'.groupId = g.groupId := by
  cases h with
  | built hcan hbuild =>
    rw [(Group.buildCommit_eq_some hbuild).2.1]
  | _ => rfl

theorem GroupStep.moves (hadvance : EpochsAdvance lib.toMlsRs)
    (h : GroupStep lib call e roomId g g') (hnext : g.PendingNext) :
    g'.PendingNext ∧ Moves g g' := by
  cases h with
  | ratcheted secrets updates => exact ⟨hnext, .stays rfl rfl⟩
  | built hcan hbuild =>
    have hnumber : ∀ pending, g'.pending = some pending →
        pending.next.number = g.epoch.number + 1 := by
      unfold Group.buildCommit at hbuild
      split at hbuild
      · cases hbuild
      split at hbuild
      · cases hbuild
      split at hbuild
      · cases hbuild
      rename_i output houtput
      split at hbuild
      · cases hbuild
      · cases hbuild
        intro pending hpending
        cases hpending
        exact hadvance.built _ _ _ _ _ houtput
    obtain ⟨-, rfl, -, -⟩ := Group.buildCommit_eq_some hbuild
    exact ⟨hnumber, .stays rfl rfl⟩
  | applied hpending =>
    exact ⟨GroupState.pendingNext_of_none rfl, .enters (hnext _ hpending) rfl⟩
  | followed hsource hfilter happly =>
    exact ⟨GroupState.pendingNext_of_none rfl, .enters (hadvance.applied _ _ _ _ happly) rfl⟩
  | removed => exact ⟨hnext, .stays rfl rfl⟩
  | cleared => exact ⟨GroupState.pendingNext_of_none rfl, .stays rfl rfl⟩

/-- Of the epochs from a first one up to a number, the stored ones are the newest. -/
def Durable.HasNewest (d : Durable K) (roomId : String) (first number : ℕ) : Prop :=
  first ≤ number ∧ ∀ id, d.epochs.has (roomId, id) = true ↔
    first ≤ id ∧ id < number ∧ number ≤ id + maxEpochRetention

/-- The prior epochs that are kept of a stored group which the device has entered at an epoch are
exactly the newest. -/
def Engine.KeepsNewest (e : Engine K) (roomId : String) (first : ℕ) : Prop :=
  ∀ st, e.stored.get roomId = some st → e.storage.durable.HasNewest roomId first st.epoch.number

/-- A call puts another group in the place of the stored one by creating or joining the room. -/
def Enters (lib : Libraries K) (roomId : String) (e : Engine K) (action : EngineOp × Call) : Prop :=
  action.1.enters = some roomId ∧
    (e.perform lib action.1 action.2).1.stored.get roomId ≠ e.stored.get roomId

/-- No creation and no join puts a group over the stored prior epochs of another. -/
def EntersClear (lib : Libraries K) (roomId : String) (e : Engine K) (action : EngineOp × Call) :
    Prop :=
  Enters lib roomId e action → ∀ id, e.storage.durable.epochs.has (roomId, id) = false

open Classical in
/-- The epoch at which the device has entered the group of a room, after one more call. -/
noncomputable def entryEpoch (lib : Libraries K) (roomId : String) (e : Engine K) (first : ℕ)
    (action : EngineOp × Call) : ℕ :=
  if Enters lib roomId e action then
    ((e.perform lib action.1 action.2).1.stored.get roomId).elim first fun st ↦ st.epoch.number
  else first

/-- The epoch at which the device has entered the group of a room, after a run. -/
noncomputable def entryEpochAfter (lib : Libraries K) (roomId : String) :
    Engine K → ℕ → List (EngineOp × Call) → ℕ
  | _, first, [] => first
  | e, first, action :: rest =>
    entryEpochAfter lib roomId (e.step lib action).1 (entryEpoch lib roomId e first action) rest

/-- The prior epochs of a room, and what its loaded group adds to them. -/
structure Windowed (e : Engine K) (roomId : String) (first : ℕ) : Prop where
  staged : e.storage.staged = {}
  groupId : ∀ r g, e.groups.get r = some g → g.groupId = r
  storedId : ∀ r st, e.stored.get r = some st → st.groupId = r
  newest : e.KeepsNewest roomId first
  storedNext : ∀ st, e.stored.get roomId = some st → st.PendingNext
  loaded : ∀ g, e.groups.get roomId = some g → g.PendingNext ∧ ∃ st,
    e.stored.get roomId = some st ∧ st.epoch.number ≤ g.epoch.number ∧
      g.inserts.map EpochRecord.id =
        List.range' st.epoch.number (g.epoch.number - st.epoch.number)

/-- The epochs between the stored epoch and the loaded one, one further. -/
theorem inserts_of_moves {number : ℕ} (hle : number ≤ g.epoch.number)
    (hinserts : g.inserts.map EpochRecord.id = List.range' number (g.epoch.number - number))
    (h : Moves g g') : number ≤ g'.epoch.number ∧
      g'.inserts.map EpochRecord.id = List.range' number (g'.epoch.number - number) := by
  cases h with
  | stays hnumber hsame => exact ⟨hnumber ▸ hle, by rw [hsame, hnumber, hinserts]⟩
  | enters hnumber hadded =>
    refine ⟨by omega, ?_⟩
    have hlength : g'.epoch.number - number = g.epoch.number - number + 1 := by omega
    rw [hadded, List.map_append, hinserts, hlength, List.range'_concat]
    simp only [List.map_cons, List.map_nil, Nat.one_mul]
    rw [Nat.add_sub_cancel' hle]

/-- A write moves the window up to the epoch of the group that it writes. -/
theorem hasNewest_of_commits {first number : ℕ} (h : Commits call d staged g d')
    (hnewest : d.HasNewest g.groupId first number) (hle : number ≤ g.epoch.number)
    (hinserts : g.inserts.map EpochRecord.id = List.range' number (g.epoch.number - number)) :
    d'.HasNewest g.groupId first g.epoch.number := by
  obtain ⟨hfirst, hhas⟩ := hnewest
  have hlast : ∀ id, (∀ last ∈ g.inserts.getLast?, last.id < id + maxEpochRetention) ↔
      (number < g.epoch.number → g.epoch.number ≤ id + maxEpochRetention) := by
    intro id
    have hmap : g.inserts.getLast?.map EpochRecord.id =
        (List.range' number (g.epoch.number - number)).getLast? := by
      rw [← hinserts, List.getLast?_map]
    rw [List.getLast?_range'] at hmap
    cases hget : g.inserts.getLast? with
    | none =>
      rw [hget] at hmap
      have : g.epoch.number - number = 0 := by
        by_contra hne
        simp [hne] at hmap
      simp only [Option.not_mem_none, IsEmpty.forall_iff, implies_true, true_iff]
      omega
    | some last =>
      rw [hget] at hmap
      have hne : g.epoch.number - number ≠ 0 := by
        intro hzero
        simp [hzero] at hmap
      simp only [Option.map_some, hne, if_false, Option.some.injEq] at hmap
      simp only [Option.mem_some_iff, forall_eq']
      omega
  refine ⟨hfirst.trans hle, fun id ↦ ?_⟩
  rw [h.epochs, hhas, hinserts, List.mem_range'_1]
  simp only [true_and, forall_const, hlast]
  omega

/-- A group as reopening its room loads it adds nothing to the stored epochs. -/
theorem loaded_of_stored {st : GroupState K} (hstored : e.stored.get roomId = some st)
    (hnext : st.PendingNext) (hgroup : g = { st with }) : g.PendingNext ∧ ∃ st,
      e.stored.get roomId = some st ∧ st.epoch.number ≤ g.epoch.number ∧
        g.inserts.map EpochRecord.id =
          List.range' st.epoch.number (g.epoch.number - st.epoch.number) := by
  subst hgroup
  exact ⟨hnext, st, hstored, Nat.le_refl _, by simp⟩

namespace Windowed

variable {first : ℕ}

/-- A call that leaves the stored group of a room, and the epochs with it. -/
theorem frame (h : Windowed e roomId first) (hstaged : e'.storage.staged = {})
    (hgroupId : ∀ r g, e'.groups.get r = some g → g.groupId = r)
    (hstoredId : ∀ r st, e'.stored.get r = some st → st.groupId = r)
    (hstored : e'.stored.get roomId = e.stored.get roomId)
    (hepochs : ∀ id, e'.storage.durable.epochs.has (roomId, id) =
      e.storage.durable.epochs.has (roomId, id))
    (hloaded : ∀ g, e'.groups.get roomId = some g → g.PendingNext ∧ ∃ st,
      e.stored.get roomId = some st ∧ st.epoch.number ≤ g.epoch.number ∧
        g.inserts.map EpochRecord.id =
          List.range' st.epoch.number (g.epoch.number - st.epoch.number)) :
    Windowed e' roomId first where
  staged := hstaged
  groupId := hgroupId
  storedId := hstoredId
  newest := fun st hst ↦ by
    obtain ⟨hfirst, hhas⟩ := h.newest st (hstored ▸ hst)
    exact ⟨hfirst, fun id ↦ by rw [hepochs, hhas]⟩
  storedNext := fun st hst ↦ h.storedNext st (hstored ▸ hst)
  loaded := fun g hg ↦ by
    rw [hstored]
    exact hloaded g hg

/-- A call that leaves the database alone, but for records that are no groups. -/
theorem same (h : Windowed e roomId first) (hstaged : e'.storage.staged = {})
    (hgroups : e'.groups = e.groups) (hstored : e'.stored = e.stored)
    (hepochs : e'.storage.durable.epochs = e.storage.durable.epochs) : Windowed e' roomId first :=
  h.frame hstaged (hgroups ▸ h.groupId) (hstored ▸ h.storedId) (by rw [hstored])
    (fun _ ↦ by rw [hepochs]) (hgroups ▸ h.loaded)

/-- Another group is loaded for a room, and nothing is written. -/
theorem reloaded (h : Windowed e roomId first) {r : String} {g' : Option (Group K)}
    (hstaged : e'.storage.staged = {}) (hgroups : Reloads e e' r g')
    (hdurable : e'.storage.durable = e.storage.durable)
    (hid : ∀ g, g' = some g → g.groupId = r)
    (hloaded : r = roomId → ∀ g, g' = some g → g.PendingNext ∧ ∃ st,
      e.stored.get roomId = some st ∧ st.epoch.number ≤ g.epoch.number ∧
        g.inserts.map EpochRecord.id =
          List.range' st.epoch.number (g.epoch.number - st.epoch.number)) :
    Windowed e' roomId first := by
  have hstored : e'.stored = e.stored := congrArg Durable.groups hdurable
  refine h.frame hstaged (fun r' g hg ↦ ?_) (hstored ▸ h.storedId) (by rw [hstored])
    (fun _ ↦ by rw [hdurable]) (fun g hg ↦ ?_)
  · rw [hgroups] at hg
    split at hg
    · rename_i hr
      exact hr ▸ hid g hg
    · exact h.groupId r' g hg
  · rw [hgroups] at hg
    split at hg
    · rename_i hr
      exact hloaded hr.symm g hg
    · exact h.loaded g hg

/-- The group of a room is written. -/
theorem written (h : Windowed e roomId first) {first' number : ℕ} (hstaged : e'.storage.staged = {})
    (hcommits : Commits call e.storage.durable staged g e'.storage.durable)
    (hgroups : Reloads e e' roomId (some g.written)) (hid : g.groupId = roomId)
    (hnext : g.PendingNext) (hnewest : e.storage.durable.HasNewest roomId first' number)
    (hle : number ≤ g.epoch.number)
    (hinserts : g.inserts.map EpochRecord.id = List.range' number (g.epoch.number - number)) :
    Windowed e' roomId first' := by
  have hstored : ∀ r, e'.stored.get r =
      if r = roomId then some g.toGroupState else e.stored.get r := by
    intro r
    rw [Engine.stored, hcommits.groups, InsertionMap.get_set, hid]
  have hself : e'.stored.get roomId = some g.toGroupState := by rw [hstored, if_pos rfl]
  refine ⟨hstaged, fun r g' hg ↦ ?_, fun r st hst ↦ ?_, fun st hst ↦ ?_, fun st hst ↦ ?_,
    fun g' hg ↦ ?_⟩
  · rw [hgroups] at hg
    split at hg
    · rename_i hr
      cases hg
      exact hid.trans hr.symm
    · exact h.groupId r g' hg
  · rw [hstored] at hst
    split at hst
    · rename_i hr
      cases hst
      exact hid.trans hr.symm
    · exact h.storedId r st hst
  · cases hself.symm.trans hst
    subst hid
    exact hasNewest_of_commits hcommits hnewest hle hinserts
  · cases hself.symm.trans hst
    exact hnext
  · rw [hgroups, if_pos rfl] at hg
    exact loaded_of_stored hself hnext (Option.some.inj hg).symm

/-- The group of another room is written. -/
theorem writtenOther (h : Windowed e roomId first) {r : String} (hr : r ≠ roomId)
    (hstaged : e'.storage.staged = {})
    (hcommits : Commits call e.storage.durable staged g e'.storage.durable)
    (hgroups : Reloads e e' r (some g.written)) (hid : g.groupId = r) : Windowed e' roomId first := by
  have hstored : ∀ r', e'.stored.get r' =
      if r' = r then some g.toGroupState else e.stored.get r' := by
    intro r'
    rw [Engine.stored, hcommits.groups, InsertionMap.get_set, hid]
  refine h.frame hstaged (fun r' g' hg ↦ ?_) (fun r' st hst ↦ ?_)
    (by rw [hstored, if_neg (Ne.symm hr)]) (fun id ↦ ?_) (fun g' hg ↦ ?_)
  · rw [hgroups] at hg
    split at hg
    · rename_i hr'
      cases hg
      exact hid.trans hr'.symm
    · exact h.groupId r' g' hg
  · rw [hstored] at hst
    split at hst
    · rename_i hr'
      cases hst
      exact hid.trans hr'.symm
    · exact h.storedId r' st hst
  · have hne : roomId ≠ g.groupId := fun heq ↦ hr (hid ▸ heq.symm)
    have hiff := hcommits.epochs roomId id
    simp only [hne, false_and, or_false, IsEmpty.forall_iff, and_true] at hiff
    rw [Bool.eq_iff_iff]
    exact hiff
  · rw [hgroups, if_neg (Ne.symm hr)] at hg
    exact h.loaded g' hg

/-- A room is forgotten. -/
theorem forgot (h : Windowed e roomId first) {r : String} (hstaged : e'.storage.staged = {})
    (hgroups : Reloads e e' r none)
    (hdurable : e'.storage.durable = Storage.withoutRoom e.storage.durable r) :
    Windowed e' roomId first := by
  have hstored : ∀ r', e'.stored.get r' = if r' = r then none else e.stored.get r' := by
    intro r'
    rw [Engine.stored, hdurable]
    exact InsertionMap.get_delete _ _ _
  have hgroupId : ∀ r' g, e'.groups.get r' = some g → g.groupId = r' := by
    intro r' g hg
    rw [hgroups] at hg
    split at hg
    · cases hg
    · exact h.groupId r' g hg
  have hstoredId : ∀ r' st, e'.stored.get r' = some st → st.groupId = r' := by
    intro r' st hst
    rw [hstored] at hst
    split at hst
    · cases hst
    · exact h.storedId r' st hst
  by_cases hr : roomId = r
  · refine ⟨hstaged, hgroupId, hstoredId, fun st hst ↦ ?_, fun st hst ↦ ?_, fun g hg ↦ ?_⟩
    · rw [hstored, if_pos hr] at hst
      cases hst
    · rw [hstored, if_pos hr] at hst
      cases hst
    · rw [hgroups, if_pos hr] at hg
      cases hg
  · refine h.frame hstaged hgroupId hstoredId (by rw [hstored, if_neg hr]) (fun id ↦ ?_)
      (fun g hg ↦ ?_)
    · rw [hdurable]
      exact (InsertionMap.has_filter_key _ (fun key : String × ℕ ↦ key.1 != r) (roomId, id)).trans
        (by simp [hr])
    · rw [hgroups, if_neg hr] at hg
      exact h.loaded g hg

/-- **One call.** -/
theorem step (h : Windowed e roomId first) (hadvance : EpochsAdvance lib.toMlsRs)
    (hclear : EntersClear lib roomId e (op, call)) :
    Windowed (e.perform lib op call).1 roomId (entryEpoch lib roomId e first (op, call)) := by
  obtain ⟨hstaged, houtcome⟩ := performed_perform lib call h.staged op
  have hentered : Enters lib roomId e (op, call) → entryEpoch lib roomId e first (op, call) =
      ((e.perform lib op call).1.stored.get roomId).elim first fun st ↦ st.epoch.number :=
    fun henters ↦ if_pos henters
  have hkept : ¬Enters lib roomId e (op, call) → entryEpoch lib roomId e first (op, call) = first :=
    fun henters ↦ if_neg henters
  unfold EntersClear at hclear
  unfold Enters at hclear hentered hkept
  generalize entryEpoch lib roomId e first (op, call) = first' at hentered hkept ⊢
  dsimp only at hclear hentered hkept
  generalize (e.perform lib op call).1 = e' at hstaged houtcome hclear hentered hkept ⊢
  -- what leaves the stored group of the room alone does not enter the room
  have hsame : e'.stored.get roomId = e.stored.get roomId → first' = first :=
    fun hstored ↦ hkept fun henters ↦ henters.2 hstored
  cases houtcome with
  | silent hgroups hdurable =>
    have hstored : e'.stored = e.stored := congrArg Durable.groups hdurable
    rw [hsame (by rw [hstored])]
    exact h.same hstaged hgroups hstored (by rw [hdurable])
  | opened hst hgroups hdurable =>
    rw [hsame (by rw [Engine.stored, hdurable])]
    refine h.reloaded hstaged hgroups hdurable (fun g hg ↦ ?_) fun hr g hg ↦ ?_
    · cases hg
      exact h.storedId _ _ hst
    · subst hr
      exact loaded_of_stored hst (h.storedNext _ hst) (Option.some.inj hg).symm
  | closed hgroups hdurable =>
    have hstored : e'.stored = e.stored := congrArg Durable.groups hdurable
    rw [hsame (by rw [hstored])]
    exact h.frame hstaged (fun r g hg ↦ by simp [hgroups] at hg) (hstored ▸ h.storedId)
      (by rw [hstored]) (fun _ ↦ by rw [hdurable]) (fun g hg ↦ by simp [hgroups] at hg)
  | failed hgroup hstep hgroups hdurable =>
    rw [hsame (by rw [Engine.stored, hdurable])]
    refine h.reloaded hstaged hgroups hdurable (fun g hg ↦ ?_) fun hr g hg ↦ ?_
    · cases hg
      exact hstep.groupId_eq.trans (h.groupId _ _ hgroup)
    · subst hr
      cases hg
      obtain ⟨hnext, st, hst, hle, hinserts⟩ := h.loaded _ hgroup
      obtain ⟨hnext', hmoves⟩ := hstep.moves hadvance hnext
      exact ⟨hnext', st, hst, inserts_of_moves hle hinserts hmoves⟩
  | @wrote r g staged hwritten hby hfresh htransaction hgroups =>
    have hcommits := commits_of_transaction hby hfresh htransaction
    have hid : g.groupId = r := by
      cases hwritten with
      | entered hop hid hpending hinserts => exact hid
      | changed hop hgroup hstep => exact hstep.groupId_eq.trans (h.groupId _ _ hgroup)
    have hst : ∀ r', e'.stored.get r' =
        if r' = r then some g.toGroupState else e.stored.get r' := by
      intro r'
      rw [Engine.stored, hcommits.groups, InsertionMap.get_set, hid]
    by_cases hr : r = roomId
    · subst hr
      have hself : e'.stored.get r = some g.toGroupState := by rw [hst, if_pos rfl]
      cases hwritten with
      | entered hop hid' hpending hinserts =>
        have hnext := GroupState.pendingNext_of_none hpending
        by_cases hstored : e'.stored.get r = e.stored.get r
        · rw [hsame hstored]
          exact h.written hstaged hcommits hgroups hid hnext
            (h.newest _ (hstored.symm.trans hself)) (Nat.le_refl _) (by simp [hinserts])
        · rw [hentered ⟨hop, hstored⟩, hself]
          refine h.written hstaged hcommits hgroups hid hnext
            ⟨Nat.le_refl _, fun id ↦ ?_⟩ (Nat.le_refl _) (by simp [hinserts])
          rw [hclear ⟨hop, hstored⟩ id]
          simp only [Bool.false_eq_true, Option.elim_some, false_iff]
          omega
      | changed hop hgroup hstep =>
        rw [hkept fun henters ↦ by simp [hop] at henters]
        obtain ⟨hnext, st, hst, hle, hinserts⟩ := h.loaded _ hgroup
        obtain ⟨hnext', hmoves⟩ := hstep.moves hadvance hnext
        obtain ⟨hle', hinserts'⟩ := inserts_of_moves hle hinserts hmoves
        exact h.written hstaged hcommits hgroups hid hnext' (h.newest st hst) hle' hinserts'
    · rw [hsame (by rw [hst, if_neg (Ne.symm hr)])]
      exact h.writtenOther hr hstaged hcommits hgroups hid
  | retired hget hkind hgroups hdurable =>
    rw [hsame (by rw [Engine.stored, hdurable])]
    exact h.same hstaged hgroups (by rw [Engine.stored, hdurable]) (by rw [hdurable])
  | denied hnew hkind hmetadata hgroups hdurable =>
    rw [hsame (by rw [Engine.stored, hdurable])]
    exact h.same hstaged hgroups (by rw [Engine.stored, hdurable]) (by rw [hdurable])
  | @forgot r hop hgroups hdurable =>
    have hfirst : first' = first := by
      by_cases hr : roomId = r
      · by_cases hstored : e'.stored.get roomId = e.stored.get roomId
        · exact hsame hstored
        · have hnone : e'.stored.get roomId = none := by
            rw [Engine.stored, hdurable, hr]
            exact InsertionMap.get_delete_self _ _
          by_cases hop : op.enters = some roomId
          · rw [hentered ⟨hop, hstored⟩, hnone]
            rfl
          · exact hkept fun henters ↦ hop henters.1
      · refine hsame ?_
        rw [Engine.stored, hdurable]
        exact InsertionMap.get_delete_of_ne _ hr
    rw [hfirst]
    exact h.forgot hstaged hgroups hdurable

theorem initial (selfDeviceId selfUserId roomId : String) :
    Windowed (Engine.initial selfDeviceId selfUserId : Engine K) roomId 0 where
  staged := rfl
  groupId := fun _ _ h ↦ by cases h
  storedId := fun _ _ h ↦ by cases h
  newest := fun _ h ↦ by cases h
  storedNext := fun _ h ↦ by cases h
  loaded := fun _ h ↦ by cases h

/-- **A run.** -/
theorem run (h : Windowed e roomId first) (hadvance : EpochsAdvance lib.toMlsRs)
    {actions : List (EngineOp × Call)}
    (hrun : Machine.Along (Engine.step lib) (EntersClear lib roomId) e actions) :
    Windowed (Machine.run (Engine.step lib) e actions).1 roomId
      (entryEpochAfter lib roomId e first actions) := by
  induction actions generalizing e first with
  | nil => exact h
  | cons action rest ih =>
    rw [Machine.run_cons]
    exact ih (h.step hadvance hrun.1) hrun.2

end Windowed

/-! ### Runs -/

/-- Nothing is staged between two calls. -/
theorem staged_run (lib : Libraries K) (selfDeviceId selfUserId : String)
    (actions : List (EngineOp × Call)) :
    (Machine.run (Engine.step lib) (Engine.initial selfDeviceId selfUserId)
      actions).1.storage.staged = {} := by
  have hstep : ∀ (e : Engine K) (action : EngineOp × Call), e.storage.staged = {} → True →
      (e.step lib action).1.storage.staged = {} :=
    fun e action h _ ↦ (performed_perform lib action.2 h action.1).staged
  exact Machine.run_state_invariant hstep rfl (Machine.along_true _ _)

/-- A call that writes no group: it commits nothing, or one transaction of its own. -/
inductive WithoutWrite (d d' : Durable K) : Prop
  | unchanged (h : d' = d)
  | retired (messageId : String) (h : d' = { d with outbox := d.outbox.delete messageId })
  | denied (receipt : DeniedInviteReceipt) (item : OutboxItem) (h : d' = { d with
      deniedInviteReceipts := d.deniedInviteReceipts.set receipt.capabilityHandle receipt
      outbox := d.outbox.set item.id item })
  | forgot (roomId : String) (h : d' = Storage.withoutRoom d roomId)

theorem Outcome.commits (h : Outcome lib call e op e') :
    WithoutWrite e.storage.durable e'.storage.durable ∨ ∃ roomId g staged,
      StagedBy lib e roomId g op staged ∧
        Commits call e.storage.durable staged g e'.storage.durable := by
  cases h with
  | silent hgroups hdurable => exact .inl (.unchanged hdurable)
  | opened hst hgroups hdurable => exact .inl (.unchanged hdurable)
  | closed hgroups hdurable => exact .inl (.unchanged hdurable)
  | failed hgroup hstep hgroups hdurable => exact .inl (.unchanged hdurable)
  | wrote hwritten hby hfresh htransaction hgroups =>
    exact .inr ⟨_, _, _, hby, commits_of_transaction hby hfresh htransaction⟩
  | retired hget hkind hgroups hdurable => exact .inl (.retired _ hdurable)
  | denied hnew hkind hmetadata hgroups hdurable => exact .inl (.denied _ _ hdurable)
  | forgot hop hgroups hdurable => exact .inl (.forgot _ hdurable)

/-- **Staged mutations commit with their own group write only.** In every run, whatever fails in it,
nothing is staged between two calls, and what a call commits with a group is what its operation has
staged. The prior epochs that a write keeps are those of `Commits.epochs`, the newest of the written
group in a room that is not entered over the epochs of an earlier one. -/
theorem staged_commits_with_own_write (lib : Libraries K) (selfDeviceId selfUserId : String)
    (actions : List (EngineOp × Call)) (op : EngineOp) (call : Call) :
    let initial := Engine.initial selfDeviceId selfUserId
    let e := (Machine.run (Engine.step lib) initial actions).1
    let e' := (e.perform lib op call).1
    e.storage.staged = {} ∧ e'.storage.staged = {} ∧
      (WithoutWrite e.storage.durable e'.storage.durable ∨ ∃ roomId g staged,
        StagedBy lib e roomId g op staged ∧ Commits call e.storage.durable staged g e'.storage.durable) ∧
      ∀ roomId, EpochsAdvance lib.toMlsRs →
        Machine.Along (Engine.step lib) (EntersClear lib roomId) initial
          (actions ++ [(op, call)]) →
        e'.KeepsNewest roomId (entryEpochAfter lib roomId initial 0 (actions ++ [(op, call)])) := by
  have hstaged := staged_run lib selfDeviceId selfUserId actions
  have hperformed := performed_perform lib call hstaged op
  refine ⟨hstaged, hperformed.staged, hperformed.outcome.commits, fun roomId hadvance hrun ↦ ?_⟩
  have hinv := (Windowed.initial selfDeviceId selfUserId roomId).run hadvance hrun
  rw [Machine.run_append, Machine.run_singleton] at hinv
  exact hinv.newest

theorem epochsAdvance_plain : EpochsAdvance Plain.library.toMlsRs where
  built := fun g proposals authenticatedData entropy output h ↦ by
    cases h
    rfl
  applied := fun g message proposals next h ↦ by
    cases h
    rfl

/-- Alice creates a room, and the relay accepts that she adds Bob. -/
def recordedAddition : List (EngineOp × Call) :=
  [(.createGroup "room-1", {}),
    (.addMember "room-1" (Plain.credentialJson Plain.bob) none, { entropy := 7 })]

/-- The relay accepts the recorded addition. -/
def acceptance : EngineOp × Call := (.publishSucceeded "room-1" (Plain.library.digest [7]), {})

theorem staged_commits_with_own_write_recordedAddition :
    ((Machine.run (Engine.step Plain.library) (Engine.initial "mac-1" "1")
      recordedAddition).1.perform Plain.library acceptance.1 acceptance.2).1.KeepsNewest "room-1"
        (entryEpochAfter Plain.library "room-1" (Engine.initial "mac-1" "1") 0
          (recordedAddition ++ [acceptance])) := by
  refine (staged_commits_with_own_write Plain.library "mac-1" "1" recordedAddition acceptance.1
    acceptance.2).2.2.2 "room-1" epochsAdvance_plain ?_
  exact ⟨fun _ _ ↦ rfl, fun h ↦ (by cases h.1), fun h ↦ (by cases h.1), trivial⟩

/-- The addition is accepted, and the room is created anew. -/
def recreation : List (EngineOp × Call) :=
  recordedAddition ++ [acceptance, (.createGroup "room-1", {})]

/-- A room that is created anew keeps the prior epoch of the group it had. -/
theorem not_keepsNewest_recreated : ¬∀ (actions : List (EngineOp × Call)) (roomId : String),
    (Machine.run (Engine.step Plain.library) (Engine.initial "mac-1" "1")
      actions).1.KeepsNewest roomId (entryEpochAfter Plain.library roomId
        (Engine.initial "mac-1" "1") 0 actions) := by
  intro hkeeps
  have hzero : ((Machine.run (Engine.step Plain.library) (Engine.initial "mac-1" "1")
      recreation).1.stored.get "room-1").any (fun st ↦ st.epoch.number = 0) = true := by
    decide
  have hhas : (Machine.run (Engine.step Plain.library) (Engine.initial "mac-1" "1")
      recreation).1.storage.durable.epochs.has ("room-1", 0) = true := by
    decide
  obtain ⟨st, hst, hnumber⟩ := (Option.any_eq_true _ _).mp hzero
  obtain ⟨-, hnewest⟩ := hkeeps recreation "room-1" st hst
  have hlt := ((hnewest 0).mp hhas).2.1
  simp only [decide_eq_true_eq] at hnumber
  omega

end MultAIplayer.Mls
