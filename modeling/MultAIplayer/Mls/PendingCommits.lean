import MultAIplayer.Mls.Effects
import MultAIplayer.Mls.Runs

/-!
# Pending Commits

The Commit that a group holds as pending and the Commit in the outbox of its room are one: the
relay's answer reaches the engine under the id of the outbox item, and only a group that still holds
that Commit can apply it or give it up.

## The invariant

`StateSound` relates one state of a group, loaded or stored, to the outbox: a Commit of its room in
the outbox is the pending one, and a pending one is in the outbox. While a Commit is pending this
member is the host, so no Commit of another member is applied over it, and its own comes back as an
echo. `CommitInv` asks it of every loaded and every stored group.

An operation that fails after it has built, applied or dropped the pending Commit leaves the outbox
behind, and so does a room that is created or joined anew over a Commit in the outbox.
`pending_agrees` shows that there is nothing else.
-/

namespace MultAIplayer.Mls

variable {K : Type} {lib : Libraries K} {call : Call} {e e' : Engine K} {roomId : String}

namespace Engine

/-- The Commits of a room in the durable outbox. -/
def roomCommits (e : Engine K) (roomId : String) : List OutboxItem :=
  e.outbox.values.filter (OutboxItem.isCommitOf roomId)

/-- A loaded group holds a pending Commit when the outbox has exactly one Commit of its room, which
is that Commit, built on the current epoch. -/
def PendingAgrees (e : Engine K) (roomId : String) : Prop :=
  ∀ g, e.groups.get roomId = some g →
    (g.hasPendingCommit = true ↔ ∃ item, e.roomCommits roomId = [item]) ∧
      ∀ pending item, g.pending = some pending → e.roomCommits roomId = [item] →
        item.payload = pending.message ∧ item.epoch = g.currentEpoch + 1

end Engine

/-! ### The invariant -/

/-- Items are stored under their ids, and the id of a Commit is its hash. -/
def Keyed (lib : Libraries K) (outbox : InsertionMap String OutboxItem) : Prop :=
  ∀ k item, outbox.get k = some item →
    item.id = k ∧ (item.kind.isCommit = true → item.id = lib.digest item.payload)

/-- The Commits of a room in the outbox are the pending Commit of a group. -/
structure StateSound (lib : Libraries K) (outbox : InsertionMap String OutboxItem) (roomId : String)
    (st : GroupState K) : Prop where
  groupId : st.groupId = roomId
  commits : ∀ k item, outbox.get k = some item → item.isCommitOf roomId = true →
    ∃ p, st.pending = some p ∧ item.payload = p.message ∧ item.epoch = st.epoch.number + 1
  pending : ∀ p, st.pending = some p →
    ∃ k item, outbox.get k = some item ∧ item.isCommitOf roomId = true
  host : ∀ p, st.pending = some p → ∃ host,
    validateHost lib.serde st.epoch.roster st.epoch.extensions = .ok host ∧
      host.hostLeaf = st.selfIndex

/-- What holds of an engine between two calls. -/
structure CommitInv (lib : Libraries K) (e : Engine K) : Prop where
  staged : e.storage.staged = {}
  keyed : Keyed lib e.outbox
  loaded : ∀ r g, e.groups.get r = some g → StateSound lib e.outbox r g.toGroupState
  stored : ∀ r st, e.stored.get r = some st → StateSound lib e.outbox r st

/-- Two outboxes have the same Commits of a room. -/
def SameCommits (outbox outbox' : InsertionMap String OutboxItem) (roomId : String) : Prop :=
  ∀ k item, item.isCommitOf roomId = true → (outbox'.get k = some item ↔ outbox.get k = some item)

/-- A later state of a group with the same pending Commit, on the same epoch if there is one. -/
structure GroupState.Follows (st st' : GroupState K) : Prop where
  groupId : st'.groupId = st.groupId
  selfIndex : st'.selfIndex = st.selfIndex
  pending : st'.pending = st.pending
  epoch : ∀ p, st.pending = some p → st'.epoch.number = st.epoch.number ∧
    st'.epoch.roster = st.epoch.roster ∧ st'.epoch.extensions = st.epoch.extensions

theorem GroupState.Follows.refl (st : GroupState K) : st.Follows st :=
  ⟨rfl, rfl, rfl, fun _ _ ↦ ⟨rfl, rfl, rfl⟩⟩

namespace StateSound

variable {outbox outbox' : InsertionMap String OutboxItem} {st st' : GroupState K}

theorem congr (h : StateSound lib outbox roomId st) (hsame : SameCommits outbox outbox' roomId) :
    StateSound lib outbox' roomId st where
  groupId := h.groupId
  commits := fun k item hget hcommit ↦ h.commits k item ((hsame k item hcommit).mp hget) hcommit
  pending := fun p hp ↦ by
    obtain ⟨k, item, hget, hcommit⟩ := h.pending p hp
    exact ⟨k, item, (hsame k item hcommit).mpr hget, hcommit⟩
  host := h.host

theorem follows (h : StateSound lib outbox roomId st) (hfollows : st.Follows st') :
    StateSound lib outbox roomId st' where
  groupId := hfollows.groupId.trans h.groupId
  commits := fun k item hget hcommit ↦ by
    obtain ⟨p, hp, hpayload, hepoch⟩ := h.commits k item hget hcommit
    exact ⟨p, hfollows.pending.trans hp, hpayload, (hfollows.epoch p hp).1 ▸ hepoch⟩
  pending := fun p hp ↦ h.pending p (hfollows.pending ▸ hp)
  host := fun p hp ↦ by
    have hp : st.pending = some p := hfollows.pending ▸ hp
    obtain ⟨-, hroster, hextensions⟩ := hfollows.epoch p hp
    rw [hroster, hextensions, hfollows.selfIndex]
    exact h.host p hp

/-- A group without a pending Commit, in a room without one in the outbox. -/
theorem of_no_commits (hid : st.groupId = roomId) (hpending : st.pending = none)
    (hnone : ∀ k item, outbox.get k = some item → item.isCommitOf roomId = false) :
    StateSound lib outbox roomId st where
  groupId := hid
  commits := fun k item hget hcommit ↦ by simp [hnone k item hget] at hcommit
  pending := fun p hp ↦ by simp [hpending] at hp
  host := fun p hp ↦ by simp [hpending] at hp

/-- The Commits of a room in the outbox are one. -/
theorem commit_unique (h : StateSound lib outbox roomId st) (hkeyed : Keyed lib outbox)
    {k k' : String} {item item' : OutboxItem} (hget : outbox.get k = some item)
    (hcommit : item.isCommitOf roomId = true) (hget' : outbox.get k' = some item')
    (hcommit' : item'.isCommitOf roomId = true) : k = k' ∧ item = item' := by
  obtain ⟨p, hp, hpayload, -⟩ := h.commits k item hget hcommit
  obtain ⟨p', hp', hpayload', -⟩ := h.commits k' item' hget' hcommit'
  obtain rfl : p = p' := Option.some.inj (hp.symm.trans hp')
  have hkind : item.kind.isCommit = true := by
    simp only [OutboxItem.isCommitOf, Bool.and_eq_true] at hcommit
    exact hcommit.2
  have hkind' : item'.kind.isCommit = true := by
    simp only [OutboxItem.isCommitOf, Bool.and_eq_true] at hcommit'
    exact hcommit'.2
  have hid : item.id = item'.id := by
    rw [(hkeyed k item hget).2 hkind, (hkeyed k' item' hget').2 hkind', hpayload, hpayload']
  have hk : k = k' := by
    rw [← (hkeyed k item hget).1, hid, (hkeyed k' item' hget').1]
  subst hk
  exact ⟨rfl, Option.some.inj (hget.symm.trans hget')⟩

end StateSound

/-- The values of a list of entries that satisfy a test are one, when their keys are. -/
theorem filter_values_eq_singleton {m : InsertionMap String OutboxItem} {p : OutboxItem → Bool}
    {k : String} {item : OutboxItem} (hget : m.get k = some item) (hp : p item = true)
    (hunique : ∀ k' item', m.get k' = some item' → p item' = true → k' = k ∧ item' = item) :
    m.values.filter p = [item] := by
  have hentries : m.entries.filter (fun entry ↦ p entry.2) = [(k, item)] := by
    refine List.perm_singleton.mp ((List.perm_ext_iff_of_nodup ?_ (List.nodup_singleton _)).mpr ?_)
    · exact (List.Nodup.of_map _ m.nodup_keys).filter _
    · rintro ⟨k', item'⟩
      rw [List.mem_filter, InsertionMap.mem_entries_iff, List.mem_singleton, Prod.mk.injEq]
      constructor
      · rintro ⟨hget', hp'⟩
        exact hunique k' item' hget' hp'
      · rintro ⟨rfl, rfl⟩
        exact ⟨hget, hp⟩
  rw [InsertionMap.values, List.filter_map, Function.comp_def, hentries]
  rfl

/-- The invariant says that the pending Commits agree. -/
theorem CommitInv.pendingAgrees (h : CommitInv lib e) (roomId : String) : e.PendingAgrees roomId := by
  intro g hgroup
  have hsound := h.loaded roomId g hgroup
  have hmem : ∀ item, item ∈ e.roomCommits roomId →
      ∃ k, e.outbox.get k = some item ∧ item.isCommitOf roomId = true := by
    intro item hitem
    obtain ⟨hvalue, hcommit⟩ := List.mem_filter.mp hitem
    obtain ⟨k, hget⟩ := InsertionMap.mem_values_iff.mp hvalue
    exact ⟨k, hget, hcommit⟩
  refine ⟨⟨fun hpending ↦ ?_, fun ⟨item, hitems⟩ ↦ ?_⟩, fun pending item hpending hitems ↦ ?_⟩
  · obtain ⟨p, hp⟩ := Option.isSome_iff_exists.mp hpending
    obtain ⟨k, item, hget, hcommit⟩ := hsound.pending p hp
    refine ⟨item, filter_values_eq_singleton hget hcommit fun k' item' hget' hcommit' ↦ ?_⟩
    exact hsound.commit_unique h.keyed hget' hcommit' hget hcommit
  · obtain ⟨k, hget, hcommit⟩ := hmem item (hitems ▸ List.mem_singleton_self item)
    obtain ⟨p, hp, -⟩ := hsound.commits k item hget hcommit
    exact Option.isSome_iff_exists.mpr ⟨p, hp⟩
  · obtain ⟨k, hget, hcommit⟩ := hmem item (hitems ▸ List.mem_singleton_self item)
    obtain ⟨p, hp, hpayload, hepoch⟩ := hsound.commits k item hget hcommit
    obtain rfl : pending = p := Option.some.inj (hpending.symm.trans hp)
    exact ⟨hpayload, hepoch⟩

/-! ### What keeps the invariant -/

namespace CommitInv

/-- The invariant looks at the groups and the storage. -/
theorem congr (h : CommitInv lib e) (hgroups : ∀ r, e'.groups.get r = e.groups.get r)
    (hstorage : e'.storage = e.storage) : CommitInv lib e' where
  staged := hstorage ▸ h.staged
  keyed := by
    rw [Engine.outbox, hstorage]
    exact h.keyed
  loaded := fun r g hget ↦ by
    rw [Engine.outbox, hstorage]
    exact h.loaded r g (hgroups r ▸ hget)
  stored := fun r st hget ↦ by
    rw [Engine.stored, hstorage] at hget
    rw [Engine.outbox, hstorage]
    exact h.stored r st hget

/-- A guard that is dropped has nothing to clear between two calls. -/
theorem dropGuard_eq (h : CommitInv lib e) : e.storage.clearAllStaged = e.storage := by
  rw [Storage.clearAllStaged, ← h.staged]

/-- A call that changes one group in memory. -/
theorem of_setGroup (h : CommitInv lib e) {g : Group K}
    (hgroups : ∀ r, e'.groups.get r = if r = roomId then some g else e.groups.get r)
    (hstorage : e'.storage = e.storage) (hsound : StateSound lib e.outbox roomId g.toGroupState) :
    CommitInv lib e' where
  staged := hstorage ▸ h.staged
  keyed := by
    rw [Engine.outbox, hstorage]
    exact h.keyed
  loaded := fun r g' hget ↦ by
    rw [Engine.outbox, hstorage]
    rw [hgroups] at hget
    split at hget
    · rename_i hr
      subst hr
      cases hget
      exact hsound
    · exact h.loaded r g' hget
  stored := fun r st hget ↦ by
    rw [Engine.stored, hstorage] at hget
    rw [Engine.outbox, hstorage]
    exact h.stored r st hget

/-- A call that changes the outbox of one room, and no other Commit. -/
theorem of_outbox (h : CommitInv lib e) (hgroups : ∀ r, e'.groups.get r = e.groups.get r)
    (hstaged : e'.storage.staged = {}) (hstored : ∀ r, e'.stored.get r = e.stored.get r)
    (hkeyed : Keyed lib e'.outbox) (hsame : ∀ r, SameCommits e.outbox e'.outbox r) :
    CommitInv lib e' where
  staged := hstaged
  keyed := hkeyed
  loaded := fun r g hget ↦ (h.loaded r g (hgroups r ▸ hget)).congr (hsame r)
  stored := fun r st hget ↦ (h.stored r st (hstored r ▸ hget)).congr (hsame r)

end CommitInv

/-- What an operation has staged over an engine, before its write. -/
structure StagedOver (lib : Libraries K) (e : Engine K) (roomId : String) (s : Storage K) : Prop where
  durable : s.durable = e.storage.durable
  fresh : s.Fresh
  /-- A new Commit is one of this room, under its hash. -/
  items : ∀ item ∈ s.staged.outbox, item.kind.isCommit = true →
    item.roomId = roomId ∧ item.id = lib.digest item.payload
  /-- A Commit that is to be deleted is one of this room. -/
  deletes : ∀ k ∈ s.staged.outboxDelete, ∀ item, e.outbox.get k = some item →
    item.kind.isCommit = true → item.roomId = roomId

namespace StagedOver

variable {s s' : Storage K} {g : Group K}

theorem get_outbox (h : StagedOver lib e roomId s) (hwrite : s.write call g = .ok (s', g.written))
    {k : String} {item : OutboxItem} :
    s'.durable.outbox.get k = some item ↔ k ∉ s.staged.outboxDelete ∧
      (item ∈ s.staged.outbox ∧ item.id = k ∨ e.outbox.get k = some item) := by
  rw [Storage.get_outbox_of_write h.fresh hwrite, h.durable]

theorem keyed (h : StagedOver lib e roomId s) (hkeyed : Keyed lib e.outbox)
    (hwrite : s.write call g = .ok (s', g.written)) : Keyed lib s'.durable.outbox := by
  intro k item hget
  obtain ⟨-, ⟨hitem, rfl⟩ | hold⟩ := (h.get_outbox hwrite).mp hget
  · exact ⟨rfl, fun hcommit ↦ (h.items item hitem hcommit).2⟩
  · exact hkeyed k item hold

/-- The Commits of the other rooms stay. -/
theorem sameCommits (h : StagedOver lib e roomId s) (hwrite : s.write call g = .ok (s', g.written))
    {r : String} (hr : r ≠ roomId) : SameCommits e.outbox s'.durable.outbox r := by
  intro k item hcommit
  simp only [OutboxItem.isCommitOf, Bool.and_eq_true, decide_eq_true_eq] at hcommit
  rw [h.get_outbox hwrite]
  constructor
  · rintro ⟨-, ⟨hitem, -⟩ | hold⟩
    · exact absurd (hcommit.1.symm.trans (h.items item hitem hcommit.2).1) hr
    · exact hold
  · intro hold
    exact ⟨fun hk ↦ hr (hcommit.1.symm.trans (h.deletes k hk item hold hcommit.2)), .inr hold⟩

/-- **One write.** A group that is sound for the outbox it is written with keeps the invariant. -/
theorem commitInv (h : StagedOver lib e roomId s) (hinv : CommitInv lib e)
    (hwrite : s.write call g = .ok (s', g.written))
    (hsound : StateSound lib s'.durable.outbox roomId g.toGroupState)
    (hgroups : ∀ r, e'.groups.get r = if r = roomId then some g.written else e.groups.get r)
    (hstorage : e'.storage = s') : CommitInv lib e' := by
  subst hstorage
  refine ⟨(Storage.write_eq_ok hwrite).2.1, h.keyed hinv.keyed hwrite, ?_, ?_⟩
  · intro r g' hget
    rw [hgroups] at hget
    split at hget
    · rename_i hr
      subst hr
      cases hget
      exact hsound
    · rename_i hr
      exact (hinv.loaded r g' hget).congr (h.sameCommits hwrite hr)
  · intro r st hget
    rw [Engine.stored, Storage.groups_of_write hwrite, hsound.groupId, InsertionMap.get_set,
      h.durable] at hget
    split at hget
    · rename_i hr
      subst hr
      cases hget
      exact hsound
    · rename_i hr
      exact (hinv.stored r st hget).congr (h.sameCommits hwrite hr)

/-- Without Commits among the staged items, the room keeps its Commits too. -/
theorem sameCommits_self (h : StagedOver lib e roomId s)
    (hwrite : s.write call g = .ok (s', g.written))
    (hitems : ∀ item ∈ s.staged.outbox, item.kind.isCommit = false)
    (hdeletes : ∀ k ∈ s.staged.outboxDelete, ∀ item, e.outbox.get k = some item →
      item.kind.isCommit = false) : SameCommits e.outbox s'.durable.outbox roomId := by
  intro k item hcommit
  simp only [OutboxItem.isCommitOf, Bool.and_eq_true, decide_eq_true_eq] at hcommit
  rw [h.get_outbox hwrite]
  constructor
  · rintro ⟨-, ⟨hitem, -⟩ | hold⟩
    · simp [hitems item hitem] at hcommit
    · exact hold
  · intro hold
    refine ⟨fun hk ↦ ?_, .inr hold⟩
    simp [hdeletes k hk item hold] at hcommit

/-- Nothing but records that are no outbox items. -/
theorem of_no_items (hdurable : s.durable = e.storage.durable) (hitems : s.staged.outbox = [])
    (hdeletes : s.staged.outboxDelete = []) : StagedOver lib e roomId s where
  durable := hdurable
  fresh := ⟨by simp [hitems], by simp [hitems]⟩
  items := by simp [hitems]
  deletes := by simp [hdeletes]

end StagedOver

/-! ### Calls that only write down -/

namespace CommitInv

/-- No Commit of a room is in the outbox. -/
theorem no_commits (hnone : e.roomCommits roomId = []) (k : String) (item : OutboxItem)
    (hget : e.outbox.get k = some item) : item.isCommitOf roomId = false := by
  have hitem := List.filter_eq_nil_iff.mp hnone item (InsertionMap.mem_values_iff.mpr ⟨k, hget⟩)
  simpa using hitem

/-- A group without a pending Commit is written in a room without one in the outbox. -/
theorem of_new_group (h : CommitInv lib e) {g : Group K} {s s' : Storage K}
    (hdurable : s.durable = e.storage.durable) (hitems : s.staged.outbox = [])
    (hdeletes : s.staged.outboxDelete = []) (hwrite : s.write call g = .ok (s', g.written))
    (hid : g.groupId = roomId) (hpending : g.pending = none) (hnone : e.roomCommits roomId = [])
    (hgroups : ∀ r, e'.groups.get r = if r = roomId then some g.written else e.groups.get r)
    (hstorage : e'.storage = s') : CommitInv lib e' := by
  have hover : StagedOver lib e roomId s := .of_no_items hdurable hitems hdeletes
  have hsound : StateSound lib e.outbox roomId g.toGroupState :=
    .of_no_commits hid hpending (no_commits hnone)
  have hsame := hover.sameCommits_self hwrite (by simp [hitems]) (by simp [hdeletes])
  exact hover.commitInv h hwrite (hsound.congr hsame) hgroups hstorage

theorem createGroup (h : CommitInv lib e)
    (hnone : (e.createGroup lib call roomId).2.isOk = true → e.roomCommits roomId = []) :
    CommitInv lib (e.createGroup lib call roomId).1 := by
  have hdrop : CommitInv lib e.dropGuard := h.congr (fun _ ↦ rfl) h.dropGuard_eq
  unfold Engine.createGroup at hnone ⊢
  split
  · exact h
  rename_i hroom
  rw [if_neg hroom] at hnone
  dsimp only at hnone ⊢
  split
  · exact h
  rename_i g hcreate
  rw [hcreate] at hnone
  dsimp only at hnone
  split
  · exact hdrop
  rename_i staged hstage
  rw [hstage] at hnone
  dsimp only at hnone
  split
  · exact hdrop
  rename_i written hwritten
  rw [hwritten] at hnone
  obtain ⟨epoch, -, rfl⟩ := Option.map_eq_some_iff.mp hcreate
  obtain ⟨secret, -, rfl⟩ := stageCurrentHistorySecret_eq_ok hstage
  obtain ⟨s', hwrite, rfl⟩ := Engine.writeToStorage_eq_ok hwritten
  refine h.of_new_group (by rfl) (by simp [h.staged]) (by simp [h.staged]) hwrite rfl rfl (hnone rfl) (fun r ↦ ?_) (clearAllStaged_of_write hwrite)
  exact InsertionMap.get_set _ _ _ _

theorem joinWelcomeInternal (h : CommitInv lib e) {welcome : Bytes}
    {receipt : Option (JoinAdmissionMetadata × String)}
    (hnone : (e.joinWelcomeInternal lib call roomId welcome receipt).2.isOk = true →
      e.roomCommits roomId = []) :
    CommitInv lib (e.joinWelcomeInternal lib call roomId welcome receipt).1 := by
  have hdrop : CommitInv lib e.dropGuard := h.congr (fun _ ↦ rfl) h.dropGuard_eq
  rcases hresult : e.joinWelcomeInternal lib call roomId welcome receipt with ⟨e', result⟩
  rw [hresult] at hnone
  unfold Engine.joinWelcomeInternal at hresult
  split at hresult
  · cases hresult
    exact h
  split at hresult
  · cases hresult
    exact h
  split at hresult
  · cases hresult
    exact h
  split at hresult
  · cases hresult
    exact h
  rename_i g hjoin
  split at hresult
  · cases hresult
    exact h
  rename_i hid
  split at hresult
  · cases hresult
    exact h
  split at hresult
  · cases hresult
    exact hdrop
  rename_i staged hstage
  split at hresult
  · cases hresult
    exact hdrop
  rename_i storage hreceipt
  split at hresult
  · cases hresult
    exact hdrop
  rename_i written hwritten
  cases hresult
  obtain ⟨joined, -, rfl⟩ := Option.map_eq_some_iff.mp hjoin
  obtain ⟨secret, -, rfl⟩ := stageCurrentHistorySecret_eq_ok hstage
  obtain rfl := stageJoin_eq_ok hreceipt
  obtain ⟨s', hwrite, rfl⟩ := Engine.writeToStorage_eq_ok hwritten
  refine h.of_new_group (by rfl) (by simp [h.staged]) (by simp [h.staged]) hwrite (by simpa using hid) rfl (hnone rfl)
    (fun r ↦ ?_) (clearAllStaged_of_write hwrite)
  exact InsertionMap.get_set _ _ _ _

theorem joinWelcomeForInvite (h : CommitInv lib e) {welcome : Bytes}
    {admission : JoinAdmissionMetadata} {responseHash : String}
    (hnone : e.storage.joinReceipt call admission.requestId = .ok none →
      (e.joinWelcomeInternal lib call admission.roomId welcome
        (some (admission, responseHash))).2.isOk = true → e.roomCommits admission.roomId = []) :
    CommitInv lib (e.joinWelcomeForInvite lib call welcome admission responseHash).1 := by
  unfold Engine.joinWelcomeForInvite
  split
  · exact h
  split
  · exact h
  · split <;> exact h
  · rename_i hreceipt
    exact h.joinWelcomeInternal (hnone hreceipt)

theorem openGroup (h : CommitInv lib e) : CommitInv lib (e.openGroup lib call roomId).1 := by
  unfold Engine.openGroup
  split
  · exact h
  split
  · exact h
  split
  · exact h
  rename_i st hload
  dsimp only
  split
  · exact h
  · have hstored : e.stored.get roomId = some st := by
      split at hload
      · cases hload
      · exact hload
    exact h.of_setGroup (InsertionMap.get_set _ _ · _) rfl (h.stored roomId st hstored)

/-- A room that is forgotten leaves no Commit behind. -/
theorem withoutRoom (h : CommitInv lib e) {s : Storage K}
    (hdurable : s.durable = Storage.withoutRoom e.storage.durable roomId)
    (hstaged : s.staged = e.storage.staged) :
    CommitInv lib ((e.setStorage s).clearRoomCache roomId) := by
  have hget : ∀ k item, s.durable.outbox.get k = some item ↔
      e.outbox.get k = some item ∧ item.roomId ≠ roomId := by
    intro k item
    rw [hdurable, Storage.withoutRoom, InsertionMap.get_filter, Option.filter_eq_some_iff]
    simp
  have hsame : ∀ r, r ≠ roomId → SameCommits e.outbox s.durable.outbox r := by
    intro r hr k item hcommit
    simp only [OutboxItem.isCommitOf, Bool.and_eq_true, decide_eq_true_eq] at hcommit
    rw [hget, hcommit.1]
    exact and_iff_left hr
  refine ⟨hstaged.trans h.staged, fun k item hitem ↦ h.keyed k item ((hget k item).mp hitem).1, ?_, ?_⟩
  · intro r g hgroup
    have hgroup : (if r = roomId then none else e.groups.get r) = some g :=
      (InsertionMap.get_delete _ _ _).symm.trans hgroup
    split at hgroup
    · cases hgroup
    · rename_i hr
      exact (h.loaded r g hgroup).congr (hsame r hr)
  · intro r st hstored
    have hstored : (if r = roomId then none else e.stored.get r) = some st := by
      rw [← InsertionMap.get_delete]
      rw [← hstored, Engine.stored]
      exact congrArg (fun d : Durable K ↦ d.groups.get r) hdurable.symm
    split at hstored
    · cases hstored
    · rename_i hr
      exact (h.stored r st hstored).congr (hsame r hr)

theorem forgetGroup (h : CommitInv lib e) : CommitInv lib (e.forgetGroup call roomId).1 := by
  unfold Engine.forgetGroup
  split
  · exact h
  obtain ⟨error, -, hattempt⟩ | ⟨s, hprepared, hattempt⟩ := e.attempt_cases
    (Engine.storageFailure .storage "delete_room_records" (e.storage.deleteRoomRecords call roomId))
    fun storage ↦ ((e.setStorage storage).clearRoomCache roomId, .ok ())
  · rw [hattempt]
    exact h
  · rw [hattempt]
    have hs := Storage.access_eq_ok (storageFailure_eq_ok hprepared)
    exact h.withoutRoom (by rw [hs]) (by rw [hs])

theorem forgetCorruptGroup (h : CommitInv lib e) :
    CommitInv lib (e.forgetCorruptGroup lib call roomId).1 := by
  have hopen : CommitInv lib (e.openGroup lib call roomId).1 := h.openGroup
  unfold Engine.forgetCorruptGroup
  split
  · rename_i e' _ hresult
    rw [hresult] at hopen
    obtain ⟨error, -, hattempt⟩ | ⟨s, hprepared, hattempt⟩ := e'.attempt_cases
      (Engine.storageFailure .storage "delete_corrupt_group"
        (e'.storage.deleteCorruptGroupRecords call roomId))
      fun storage ↦ ((e'.setStorage storage).clearRoomCache roomId, .ok ())
    · rw [hattempt]
      exact hopen
    · rw [hattempt]
      have hs := Storage.deleteCorruptGroupRecords_eq_ok (storageFailure_eq_ok hprepared)
      exact hopen.withoutRoom (by rw [hs]) (by rw [hs])
  · rename_i hresult
    rw [hresult] at hopen
    exact hopen

theorem restart (h : CommitInv lib e) : CommitInv lib e.restart where
  staged := rfl
  keyed := h.keyed
  loaded := fun r g hget ↦ by cases hget
  stored := h.stored

end CommitInv

/-! ### Building a Commit -/

namespace CommitInv

/-- A Commit that is built and written with its group. -/
theorem of_persisted (h : CommitInv lib e) {g g' : Group K} {proposals : ProposalBundle}
    {authenticatedData : Bytes} {entropy : ℕ} {output : CommitOutput K} {written : Engine K}
    (hgroup : e.groups.get roomId = some g)
    (hbuild : g.buildCommit lib.toMlsRs proposals authenticatedData entropy = some (output, g'))
    (hpersisted : CommitPersisted lib call (e.setGroup roomId g') roomId g' output.message written) :
    CommitInv lib written.dropGuard := by
  obtain ⟨hpending, rfl, hhost, -⟩ := Group.buildCommit_eq_some hbuild
  obtain ⟨s, s', item, hstaged, hwrite, hgroups, hstorage⟩ := hpersisted
  have hsound := h.loaded roomId g hgroup
  have hroom : item.roomId = roomId := by
    have hcommit := hstaged.commit
    simp only [OutboxItem.isCommitOf, Bool.and_eq_true, decide_eq_true_eq] at hcommit
    exact hcommit.1
  have hover : StagedOver lib e roomId s := by
    refine ⟨hstaged.durable, hstaged.fresh, fun other hother hkind ↦ ?_, by simp [hstaged.deletes]⟩
    rw [hstaged.only other hother hkind]
    exact ⟨hroom, by rw [hstaged.id, hstaged.payload]⟩
  -- before the Commit the room has none, so the new one is the only one
  have hold : ∀ k other, e.outbox.get k = some other → other.isCommitOf roomId = false := by
    intro k other hget
    by_contra hother
    obtain ⟨p, hp, -⟩ := hsound.commits k other hget (by simpa using hother)
    simp [hpending] at hp
  refine hover.commitInv h hwrite ⟨hsound.groupId, ?_, ?_, ?_⟩ (fun r ↦ ?_) ?_
  · intro k other hget hother
    obtain ⟨-, ⟨hmem, -⟩ | hget⟩ := (hover.get_outbox hwrite).mp hget
    · have hkind : other.kind.isCommit = true := by
        simp only [OutboxItem.isCommitOf, Bool.and_eq_true] at hother
        exact hother.2
      rw [hstaged.only other hmem hkind]
      exact ⟨_, rfl, hstaged.payload, hstaged.epoch⟩
    · simp [hold k other hget] at hother
  · intro p _
    exact ⟨item.id, item, (hover.get_outbox hwrite).mpr
      ⟨by simp [hstaged.deletes], .inl ⟨hstaged.mem, rfl⟩⟩, hstaged.commit⟩
  · intro p _
    exact hhost
  · rw [Engine.groups_dropGuard, hgroups, Engine.groups_setGroup]
    simp only [InsertionMap.get_set]
    split_ifs <;> rfl
  · have hclear := clearAllStaged_of_write hwrite
    rw [← hstorage] at hclear ⊢
    exact hclear

end CommitInv

/-! ### Messages -/

namespace Group

variable {g g' : Group K}

/-- **No Commit over a pending one.** A message that is not the pending Commit leaves it as it is. -/
theorem follows_of_process {message : Bytes} {received : ReceivedMessage}
    (hhost : ∀ p, g.pending = some p → ∃ host,
      Mls.validateHost lib.serde g.epoch.roster g.epoch.extensions = .ok host ∧
        host.hostLeaf = g.selfIndex)
    (hother : ∀ p, g.pending = some p → p.message ≠ message)
    (h : g.processIncomingMessage lib.toMlsRs message = some (received, g')) :
    g.toGroupState.Follows g'.toGroupState := by
  have hreceive : g.receive lib.toMlsRs message = some (received, g') := by
    unfold processIncomingMessage at h
    split at h
    · rename_i p hp
      rwa [if_neg (hother p hp)] at h
    · exact h
  unfold receive at hreceive
  split at hreceive
  · cases hreceive
  · cases hreceive
    exact ⟨rfl, rfl, rfl, fun _ _ ↦ ⟨rfl, rfl, rfl⟩⟩
  · split at hreceive
    · cases hreceive
    rename_i hforeign
    split at hreceive
    · cases hreceive
    rename_i hfilter
    split at hreceive
    · cases hreceive
    · cases hreceive
      exact .refl _
    · cases hreceive
      -- the rules accept a Commit of the host only, and with a Commit pending that is this member
      have hnone : g.pending = none := by
        cases hp : g.pending with
        | none => rfl
        | some p =>
          obtain ⟨host, hvalid, hleaf⟩ := hhost p hp
          obtain ⟨-, host', hvalid', hsource⟩ := filterProposals_eq_ok hfilter
          obtain rfl : host = host' := Except.ok.inj (hvalid.symm.trans hvalid')
          exact absurd (hleaf ▸ hsource) hforeign
      exact ⟨rfl, rfl, hnone.symm, fun p hp ↦ by simp [hnone] at hp⟩
  · cases hreceive
    exact ⟨rfl, rfl, rfl, fun _ _ ↦ ⟨rfl, rfl, rfl⟩⟩

end Group

namespace CommitInv

/-- A group whose pending Commit has not changed, in memory. -/
theorem of_follows (h : CommitInv lib e) {g g' : Group K} (hgroup : e.groups.get roomId = some g)
    (hfollows : g.toGroupState.Follows g'.toGroupState) : CommitInv lib (e.setGroup roomId g') :=
  h.of_setGroup (InsertionMap.get_set _ _ · _) rfl ((h.loaded roomId g hgroup).follows hfollows)

/-- A group whose pending Commit has not changed, written with records that are no Commits. -/
theorem of_follows_written (h : CommitInv lib e) {g g' : Group K} {s s' : Storage K}
    (hgroup : e.groups.get roomId = some g)
    (hfollows : g.toGroupState.Follows g'.toGroupState) (hover : StagedOver lib e roomId s)
    (hitems : ∀ item ∈ s.staged.outbox, item.kind.isCommit = false)
    (hdeletes : s.staged.outboxDelete = []) (hwrite : s.write call g' = .ok (s', g'.written))
    (hgroups : e'.groups = (e.groups.set roomId g').set roomId g'.written)
    (hstorage : e'.storage = s') : CommitInv lib e' := by
  have hsame := hover.sameCommits_self hwrite hitems (by simp [hdeletes])
  have hsound := ((h.loaded roomId g hgroup).follows hfollows).congr hsame
  refine hover.commitInv h hwrite hsound (fun r ↦ ?_) hstorage
  rw [hgroups]
  simp only [InsertionMap.get_set]
  split_ifs <;> rfl

theorem encryptApplication (h : CommitInv lib e) {messageId : String} {payload : Bytes}
    {input : ApplicationAuthenticatedDataInput} :
    CommitInv lib (e.encryptApplication lib call roomId messageId payload input).1 := by
  obtain ⟨error, -, hattempt⟩ | ⟨⟨message, authenticatedData, g'⟩, hprepared, hattempt⟩ :=
    e.attempt_cases (e.prepareApplication lib call roomId messageId payload input)
      fun prepared ↦ e.finishApplication lib call roomId messageId prepared.1 prepared.2.1 prepared.2.2
  · rw [show e.encryptApplication lib call roomId messageId payload input = (e, .error error) from
      hattempt]
    exact h
  rw [show e.encryptApplication lib call roomId messageId payload input =
    e.finishApplication lib call roomId messageId message authenticatedData g' from hattempt]
  obtain ⟨g, secrets, hgroup, rfl, -⟩ := Engine.prepareApplication_eq_ok hprepared
  have hfollows : g.toGroupState.Follows (g.withSecrets secrets).toGroupState :=
    ⟨rfl, rfl, rfl, fun _ _ ↦ ⟨rfl, rfl, rfl⟩⟩
  unfold Engine.finishApplication
  dsimp only
  split
  · exact (h.of_follows hgroup hfollows).congr (fun _ ↦ rfl) h.dropGuard_eq
  · rename_i written hpersist
    obtain ⟨s, s', hstage, hwrite, rfl⟩ := Engine.stageThenWrite_eq_ok hpersist
    obtain ⟨hs, hfresh⟩ := Storage.stageOutbox_eq_ok (storageFailure_eq_ok hstage)
    have hitems : ∀ item ∈ s.staged.outbox, item.kind.isCommit = false := by
      intro item hitem
      rw [hs] at hitem
      have hitem := by simpa [h.staged] using hitem
      rw [hitem]
      rfl
    have hover : StagedOver lib e roomId s :=
      ⟨by rw [hs]; rfl, hfresh (Storage.fresh_of_staged_eq h.staged),
        fun item hitem hcommit ↦ by simp [hitems item hitem] at hcommit,
        by simp [hs, h.staged]⟩
    exact h.of_follows_written hgroup hfollows hover hitems (by simp [hs, h.staged]) hwrite rfl
      (clearAllStaged_of_write hwrite)

theorem processIncoming (h : CommitInv lib e) {message : Bytes} :
    CommitInv lib (e.processIncoming lib call roomId message).1 := by
  unfold Engine.processIncoming
  obtain ⟨error, -, hattempt⟩ | ⟨prepared, hprepared, hattempt⟩ :=
    e.attempt_cases (e.prepareIncoming lib call roomId message)
      (e.finishIncoming lib call roomId)
  · rw [hattempt]
    exact h
  rw [hattempt]
  cases prepared with
  | none => exact h
  | some prepared =>
  obtain ⟨hintedEpoch, received, g'⟩ := prepared
  obtain ⟨g, hgroup, hprocess, hecho⟩ := Engine.prepareIncoming_eq_ok hprepared
  have hsound := h.loaded roomId g hgroup
  have hother : ∀ p, g.pending = some p → p.message ≠ message := by
    rintro p hp rfl
    obtain ⟨k, item, hget, hcommit⟩ := hsound.pending p hp
    obtain ⟨p', hp', hpayload, -⟩ := hsound.commits k item hget hcommit
    obtain rfl : p = p' := Option.some.inj (hp.symm.trans hp')
    simp only [OutboxItem.isCommitOf, Bool.and_eq_true, decide_eq_true_eq] at hcommit
    have hid := (h.keyed k item hget).2 hcommit.2
    rw [← (h.keyed k item hget).1, hid, hpayload] at hget
    have hnot := hecho item hget
    simp [Engine.isCommitEcho, hcommit, hpayload] at hnot
  have hfollows := Group.follows_of_process hsound.host hother hprocess
  have hmemory : CommitInv lib (e.setGroup roomId g') := h.of_follows hgroup hfollows
  have hdropped : CommitInv lib (e.setGroup roomId g').dropGuard :=
    hmemory.congr (fun _ ↦ rfl) hmemory.dropGuard_eq
  have hover : ∀ s : Storage K, s.durable = e.storage.durable →
      s.staged.outbox = e.storage.staged.outbox →
      s.staged.outboxDelete = e.storage.staged.outboxDelete → StagedOver lib e roomId s :=
    fun s hdurable hitems hdeletes ↦ .of_no_items hdurable (by simp [hitems, h.staged])
      (by simp [hdeletes, h.staged])
  dsimp only [Engine.finishIncoming]
  unfold Engine.applyReceived
  dsimp only
  split
  · split
    · exact hmemory
    · rename_i written hwritten
      obtain ⟨s', hwrite, rfl⟩ := Engine.writeToStorage_eq_ok hwritten
      exact h.of_follows_written hgroup hfollows (hover e.storage rfl rfl rfl) (by simp [h.staged])
        (by simp [h.staged]) hwrite rfl rfl
  · unfold Engine.applyReceivedCommit
    dsimp only
    split
    · exact hmemory
    split
    · exact hmemory
    split
    · exact hdropped
    · rename_i written hwritten
      obtain ⟨s, s', hstage, hwrite, rfl⟩ := Engine.stageThenWrite_eq_ok hwritten
      have hs := Storage.stageHistorySecret_eq_ok (storageFailure_eq_ok hstage)
      exact h.of_follows_written hgroup hfollows (hover s (by rw [hs]; rfl) (by rw [hs]; rfl)
        (by rw [hs]; rfl)) (by simp [hs, h.staged]) (by simp [hs, h.staged]) hwrite rfl
        (clearAllStaged_of_write hwrite)
  · exact hmemory

/-! ### The relay's answer -/

/-- The Commit of a room has left the outbox with the pending one of its group. -/
theorem of_retired (h : CommitInv lib e) {g g' : Group K} {s s' : Storage K} {messageId : String}
    {item : OutboxItem} (hgroup : e.groups.get roomId = some g)
    (hget : e.outbox.get messageId = some item) (hcommit : item.isCommitOf roomId = true)
    (hid : g'.groupId = g.groupId) (hpending : g'.pending = none)
    (hdurable : s.durable = e.storage.durable) (hitems : s.staged.outbox = [])
    (hdeleted : messageId ∈ s.staged.outboxDelete)
    (hdeletes : ∀ k ∈ s.staged.outboxDelete, ∀ item, e.outbox.get k = some item →
      item.kind.isCommit = true → item.roomId = roomId)
    (hwrite : s.write call g' = .ok (s', g'.written))
    (hgroups : e'.groups = (e.groups.set roomId g').set roomId g'.written)
    (hstorage : e'.storage = s') : CommitInv lib e' := by
  have hsound := h.loaded roomId g hgroup
  have hover : StagedOver lib e roomId s :=
    ⟨hdurable, ⟨by simp [hitems], by simp [hitems]⟩, by simp [hitems], hdeletes⟩
  refine hover.commitInv h hwrite
    (.of_no_commits (hid.trans hsound.groupId) hpending fun k other hother ↦ ?_) (fun r ↦ ?_) hstorage
  · obtain ⟨hk, hmem⟩ := (hover.get_outbox hwrite).mp hother
    have hold : e.outbox.get k = some other := by simpa [hitems] using hmem
    by_contra hnot
    obtain ⟨rfl, -⟩ := hsound.commit_unique h.keyed hold (by simpa using hnot) hget hcommit
    exact hk hdeleted
  · rw [hgroups]
    simp only [InsertionMap.get_set]
    split_ifs <;> rfl

theorem publishCommit (h : CommitInv lib e) {messageId : String} {item : OutboxItem}
    (hget : e.outbox.get messageId = some item) (hcommit : item.isCommitOf roomId = true)
    (hcompletes : ifPrepared (e.preparePublish lib roomId item) (fun g ↦
      (e.finishPublish lib call roomId messageId g).2.isOk) = true) :
    CommitInv lib (e.publishCommit lib call roomId item messageId).1 := by
  unfold Engine.publishCommit
  obtain ⟨error, -, hattempt⟩ | ⟨g', hprepared, hattempt⟩ :=
    e.attempt_cases (e.preparePublish lib roomId item) (e.finishPublish lib call roomId messageId)
  · rw [hattempt]
    exact h
  rw [hattempt]
  rw [hprepared, ifPrepared_ok] at hcompletes
  obtain ⟨g, pending, hgroup, hpending, -, rfl⟩ := Engine.preparePublish_eq_ok hprepared
  unfold Engine.finishPublish at hcompletes ⊢
  dsimp only at hcompletes ⊢
  split
  · rename_i hfailed
    rw [hfailed] at hcompletes
    cases hcompletes
  rename_i written hwritten
  obtain ⟨s, s', hstage, hwrite, rfl⟩ := Engine.stageThenWrite_eq_ok hwritten
  obtain ⟨secret, -, hs⟩ := stagePublished_eq_ok hstage
  have hdurable : s.durable = e.storage.durable := by rw [hs]; rfl
  have hitems : s.staged.outbox = [] := by simp [hs, h.staged]
  have hdeletes : s.staged.outboxDelete = [messageId] := by simp [hs, h.staged]
  have hretired : ∀ e' : Engine K,
      e'.groups = (e.groups.set roomId (g.enterEpoch lib.toMlsRs pending.next)).set roomId
        (g.enterEpoch lib.toMlsRs pending.next).written → e'.storage = s' → CommitInv lib e' := by
    intro e' hgroups hstorage
    have hid : (g.enterEpoch lib.toMlsRs pending.next).groupId = g.groupId := rfl
    refine h.of_retired hgroup hget hcommit hid rfl hdurable hitems
      (by simp [hdeletes]) ?_ hwrite hgroups hstorage
    intro k hk other hother hkind
    have hk : k = messageId := by simpa [hdeletes] using hk
    subst hk
    obtain rfl : item = other := Option.some.inj (hget.symm.trans hother)
    simp only [OutboxItem.isCommitOf, Bool.and_eq_true, decide_eq_true_eq] at hcommit
    exact hcommit.1
  split
  · exact hretired _ rfl (clearAllStaged_of_write hwrite)
  · exact hretired _ rfl (clearAllStaged_of_write hwrite)

theorem clearPendingCommit (h : CommitInv lib e) {messageId : String}
    (hcompletes : ifPrepared (e.prepareClear call roomId messageId) (fun (item, g) ↦
      (e.finishClear call roomId messageId item g).2.isOk) = true) :
    CommitInv lib (e.clearPendingCommit call roomId messageId).1 := by
  unfold Engine.clearPendingCommit
  obtain ⟨error, -, hattempt⟩ | ⟨⟨item, g'⟩, hprepared, hattempt⟩ :=
    e.attempt_cases (e.prepareClear call roomId messageId)
      fun (item, g) ↦ e.finishClear call roomId messageId item g
  · rw [hattempt]
    exact h
  rw [hattempt]
  rw [hprepared, ifPrepared_ok] at hcompletes
  obtain ⟨hget, hroom, hkind, g, hgroup, -, rfl⟩ := Engine.prepareClear_eq_ok hprepared
  dsimp only at hcompletes ⊢
  unfold Engine.finishClear at hcompletes ⊢
  dsimp only at hcompletes ⊢
  split
  · rename_i hfailed
    rw [hfailed] at hcompletes
    cases hcompletes
  rename_i written hwritten
  obtain ⟨s, s', hstage, hwrite, rfl⟩ := Engine.stageThenWrite_eq_ok hwritten
  have hs := stageCleared_eq_ok hstage
  have hdurable : s.durable = e.storage.durable := by rw [hs]; rfl
  have hitems : s.staged.outbox = [] := by simp [hs, h.staged]
  have hdeletes : s.staged.outboxDelete =
      messageId :: (e.clearedWith roomId item messageId).1.map OutboxItem.id := by
    rw [hs]
    change e.storage.staged.outboxDelete ++ _ = _
    rw [h.staged]
    rfl
  have hid : g.clearPendingCommit.groupId = g.groupId := rfl
  refine h.of_retired hgroup hget (by simp [OutboxItem.isCommitOf, hroom, hkind]) hid rfl hdurable
    hitems (by simp [hdeletes]) ?_ hwrite rfl
    (clearAllStaged_of_write hwrite)
  intro k hk other hother hcommit
  rw [hdeletes, List.mem_cons, List.mem_map] at hk
  rcases hk with rfl | ⟨welcome, hwelcome, rfl⟩
  · exact Option.some.inj (hget.symm.trans hother) ▸ hroom
  · -- a Welcome is stored under its own id, so what is deleted there is no Commit
    obtain ⟨hkind, hvalue⟩ := Engine.of_mem_clearedWith hwelcome
    obtain ⟨k, hk⟩ := InsertionMap.mem_values_iff.mp hvalue
    rw [(h.keyed k welcome hk).1] at hother
    obtain rfl : welcome = other := Option.some.inj (hk.symm.trans hother)
    simp [hkind, OutboxKind.isCommit] at hcommit

/-- An item that is no Commit leaves the outbox. -/
theorem deleteItem (h : CommitInv lib e) {a : StorageAccess} {operation messageId : String}
    {item : OutboxItem} (hget : e.outbox.get messageId = some item)
    (hkind : item.kind.isCommit = false) :
    CommitInv lib (e.deleteItem call a operation roomId messageId).1 := by
  unfold Engine.deleteItem
  obtain ⟨error, -, hattempt⟩ | ⟨s, hprepared, hattempt⟩ :=
    e.attempt_cases (Engine.storageFailure .storage operation (e.storage.deleteOutbox call a messageId))
      fun storage ↦ (e.setStorage storage, (e.setStorage storage).currentEpoch roomId)
  · rw [hattempt]
    exact h
  rw [hattempt]
  have hs := Storage.deleteOutbox_eq_ok (storageFailure_eq_ok hprepared)
  have hoboxes : ∀ k, s.durable.outbox.get k = if k = messageId then none else e.outbox.get k := by
    intro k
    rw [hs]
    exact InsertionMap.get_delete _ _ _
  refine h.of_outbox (fun _ ↦ rfl) (by rw [Engine.storage_setStorage, hs]; exact h.staged)
    (fun r ↦ by rw [Engine.stored, Engine.storage_setStorage, hs]) ?_ ?_
  · intro k other hother
    have hother : s.durable.outbox.get k = some other := hother
    rw [hoboxes] at hother
    split at hother
    · cases hother
    · exact h.keyed k other hother
  · intro r k other hcommit
    change s.durable.outbox.get k = some other ↔ _
    rw [hoboxes]
    split
    · rename_i hk
      subst hk
      constructor
      · intro hnone
        cases hnone
      · intro hold
        obtain rfl : item = other := Option.some.inj (hget.symm.trans hold)
        simp [OutboxItem.isCommitOf, hkind] at hcommit
    · exact Iff.rfl

theorem publishSucceeded (h : CommitInv lib e) {messageId : String}
    (hcompletes : ifPrepared (e.preparePublished call roomId messageId) (fun item ↦
      !item.kind.isCommit || ifPrepared (e.preparePublish lib roomId item) fun g ↦
        (e.finishPublish lib call roomId messageId g).2.isOk) = true) :
    CommitInv lib (e.publishSucceeded lib call roomId messageId).1 := by
  unfold Engine.publishSucceeded
  obtain ⟨error, -, hattempt⟩ | ⟨item, hprepared, hattempt⟩ :=
    e.attempt_cases (e.preparePublished call roomId messageId) fun item ↦
      if item.kind.isCommit then e.publishCommit lib call roomId item messageId
      else e.deleteItem call .deletePublishedOutbox "delete_published_outbox" roomId messageId
  · rw [hattempt]
    exact h
  rw [hattempt]
  rw [hprepared, ifPrepared_ok] at hcompletes
  obtain ⟨hget, hroom⟩ := Engine.preparePublished_eq_ok hprepared
  split
  · rename_i hkind
    rw [hkind, Bool.not_true, Bool.false_or] at hcompletes
    exact h.publishCommit hget (by simp [OutboxItem.isCommitOf, hroom, hkind]) hcompletes
  · rename_i hkind
    exact h.deleteItem hget (by simpa using hkind)

theorem retireStaleApplication (h : CommitInv lib e) {messageId : String} :
    CommitInv lib (e.retireStaleApplication call roomId messageId).1 := by
  unfold Engine.retireStaleApplication
  obtain ⟨error, -, hattempt⟩ | ⟨item, hprepared, hattempt⟩ :=
    e.attempt_cases (e.prepareRetire call roomId messageId) fun _ ↦
      e.deleteItem call .deleteStaleOutbox "delete_stale_outbox" roomId messageId
  · rw [hattempt]
    exact h
  rw [hattempt]
  obtain ⟨hget, -, hkind⟩ := Engine.prepareRetire_eq_ok hprepared
  exact h.deleteItem hget (by rw [hkind]; rfl)

theorem denyInvite (h : CommitInv lib e) {capabilityHandle bindingHash keyPackageHash : String}
    {responseBinding : CapabilityBinding} {responseMac : String} :
    CommitInv lib (e.denyInvite lib call capabilityHandle bindingHash keyPackageHash responseBinding
      responseMac).1 := by
  obtain ⟨error, -, hattempt⟩ | ⟨⟨s, id⟩, hprepared, hattempt⟩ :=
    e.attempt_cases (e.prepareDenial lib call capabilityHandle bindingHash keyPackageHash
      responseBinding responseMac) fun prepared ↦ (e.setStorage prepared.1, .ok prepared.2)
  · rw [show e.denyInvite lib call capabilityHandle bindingHash keyPackageHash responseBinding
      responseMac = (e, .error error) from hattempt]
    exact h
  rw [show e.denyInvite lib call capabilityHandle bindingHash keyPackageHash responseBinding
    responseMac = (e.setStorage s, .ok id) from hattempt]
  obtain ⟨item, hkind, hnew, houtbox, hgroups, hstaged⟩ := prepareDenial_eq_ok hprepared
  have hget : ∀ k, s.durable.outbox.get k = if k = item.id then some item else e.outbox.get k := by
    intro k
    rw [houtbox]
    exact InsertionMap.get_set _ _ _ _
  refine h.of_outbox (fun _ ↦ rfl) (hstaged.trans h.staged) (fun r ↦ by
    rw [Engine.stored, Engine.storage_setStorage, hgroups]) ?_ ?_
  · intro k other hother
    have hother : s.durable.outbox.get k = some other := hother
    rw [hget] at hother
    split at hother
    · rename_i hk
      cases hother
      exact ⟨hk.symm, fun hcommit ↦ by simp [hkind] at hcommit⟩
    · exact h.keyed k other hother
  · intro r k other hcommit
    change s.durable.outbox.get k = some other ↔ _
    rw [hget]
    split
    · rename_i hk
      subst hk
      rw [hnew]
      constructor
      · intro hsome
        cases hsome
        simp [OutboxItem.isCommitOf, hkind] at hcommit
      · intro hsome
        cases hsome
    · exact Iff.rfl

/-! ### The Commits of a host -/

/-- An operation that builds a Commit, in what the three of them share. -/
theorem of_commit (h : CommitInv lib e) {α : Type} {guards : Except EngineError Unit}
    {proposals : ProposalBundle} {authenticatedData : Bytes} {stageLabel buildLabel : String}
    (persist : CommitOutput K → Group K → Engine K → Except EngineError (Engine K × α))
    (hpersisted : ∀ output g written value,
      persist output g (e.setGroup roomId g) = .ok (written, value) →
        CommitPersisted lib call (e.setGroup roomId g) roomId g output.message written)
    (hcompletes : ifPrepared (e.prepareCommit lib call roomId guards proposals authenticatedData
      stageLabel buildLabel) (fun built ↦
        (persist built.1 built.2 (e.setGroup roomId built.2)).isOk) = true) :
    CommitInv lib (e.attempt (e.prepareCommit lib call roomId guards proposals authenticatedData
      stageLabel buildLabel) fun built ↦
        e.finishCommit roomId built.2 (persist built.1 built.2)).1 := by
  obtain ⟨error, -, hattempt⟩ | ⟨⟨output, g'⟩, hprepared, hattempt⟩ :=
    e.attempt_cases (e.prepareCommit lib call roomId guards proposals authenticatedData stageLabel
      buildLabel) fun built ↦ e.finishCommit roomId built.2 (persist built.1 built.2)
  · rw [hattempt]
    exact h
  rw [hattempt]
  rw [hprepared, ifPrepared_ok] at hcompletes
  obtain ⟨written, value, hpersist, hfinish⟩ :=
    finishCommit_of_isOk (persist output g') hcompletes
  obtain ⟨g, hgroup, hbuild⟩ := Engine.prepareCommit_eq_ok hprepared
  rw [hfinish]
  exact h.of_persisted hgroup hbuild (hpersisted output g' written value hpersist)

theorem addMemberInternal (h : CommitInv lib e) {keyPackage : Bytes}
    {welcomeMetadata : Option WelcomeRetryMetadata} {receipt : Option InviteConsumption}
    (hcompletes : EngineOp.addCompletes lib e call roomId keyPackage welcomeMetadata receipt = true) :
    CommitInv lib
      (e.addMemberInternal lib call roomId keyPackage welcomeMetadata receipt).1 :=
  h.of_commit (fun output g changed ↦
      changed.persistAddMember lib call roomId welcomeMetadata receipt g output)
    (fun _ _ _ _ hpersist ↦ persistAddMember_eq_ok h.staged hpersist) hcompletes

theorem addMemberForInvite (h : CommitInv lib e) {keyPackage : Bytes}
    {welcomeMetadata : WelcomeRetryMetadata} {capabilityHandle bindingHash : String}
    (hcompletes : EngineOp.commitCompletes lib e call (.addMemberForInvite roomId keyPackage
      welcomeMetadata capabilityHandle bindingHash) = true) :
    CommitInv lib (e.addMemberForInvite lib call roomId keyPackage welcomeMetadata capabilityHandle
      bindingHash).1 := by
  unfold Engine.addMemberForInvite
  unfold EngineOp.commitCompletes at hcompletes
  split
  · exact h
  · exact h
  · rename_i hreceipt
    dsimp only at hcompletes
    rw [hreceipt] at hcompletes
    exact h.addMemberInternal hcompletes

theorem removeMember (h : CommitInv lib e) {leaf : ℕ}
    (hcompletes : EngineOp.commitCompletes lib e call (.removeMember roomId leaf) = true) :
    CommitInv lib (e.removeMember lib call roomId leaf).1 :=
  h.of_commit (fun output g changed ↦ changed.persistRemoveMember lib call roomId g output)
    (fun _ _ _ _ hpersist ↦ persistRemoveMember_eq_ok h.staged hpersist) hcompletes

theorem transferHost (h : CommitInv lib e) {nextLeaf : ℕ} {nextDeviceId transferId : String}
    (hcompletes : EngineOp.commitCompletes lib e call
      (.transferHost roomId nextLeaf nextDeviceId transferId) = true) :
    CommitInv lib (e.transferHost lib call roomId nextLeaf nextDeviceId transferId).1 :=
  h.of_commit (fun output g changed ↦ changed.persistTransferHost lib call roomId
      (Engine.handoffRecord nextLeaf nextDeviceId transferId) transferId g output)
    (fun _ _ _ _ hpersist ↦ persistTransferHost_eq_ok h.staged hpersist) hcompletes

end CommitInv

/-! ### Runs -/

/-- A room that is created or joined has no Commit in the outbox. -/
def EngineOp.entersClearRoom (lib : Libraries K) (e : Engine K) (call : Call) (op : EngineOp) :
    Bool :=
  match op with
  | .createGroup roomId =>
    !(e.createGroup lib call roomId).2.isOk || (e.roomCommits roomId).isEmpty
  | .joinWelcome roomId welcome =>
    !(e.joinWelcome lib call roomId welcome).2.isOk || (e.roomCommits roomId).isEmpty
  | .joinWelcomeForInvite welcome admission responseHash =>
    match e.storage.joinReceipt call admission.requestId with
    | .ok none => !(e.joinWelcomeInternal lib call admission.roomId welcome
        (some (admission, responseHash))).2.isOk || (e.roomCommits admission.roomId).isEmpty
    | _ => true
  | _ => true

theorem no_commits_of_clear {ok : Bool} (h : (!ok || (e.roomCommits roomId).isEmpty) = true)
    (hok : ok = true) : e.roomCommits roomId = [] := by
  simpa [hok] using h

/-- **One call.** -/
theorem CommitInv.step (h : CommitInv lib e) {op : EngineOp}
    (hcompletes : op.commitCompletes lib e call = true)
    (hclear : op.entersClearRoom lib e call = true) :
    CommitInv lib (e.step lib (op, call)).1 := by
  cases op with
  | createGroup roomId => exact h.createGroup (no_commits_of_clear hclear)
  | joinWelcome roomId welcome => exact h.joinWelcomeInternal (no_commits_of_clear hclear)
  | joinWelcomeForInvite welcome admission responseHash =>
    refine h.joinWelcomeForInvite fun hreceipt ↦ no_commits_of_clear ?_
    unfold EngineOp.entersClearRoom at hclear
    dsimp only at hclear
    rwa [hreceipt] at hclear
  | openGroup roomId => exact h.openGroup
  | forgetGroup roomId => exact h.forgetGroup
  | forgetCorruptGroup roomId => exact h.forgetCorruptGroup
  | addMember roomId keyPackage welcomeMetadata => exact h.addMemberInternal hcompletes
  | addMemberForInvite => exact h.addMemberForInvite hcompletes
  | removeMember roomId leaf => exact h.removeMember hcompletes
  | transferHost => exact h.transferHost hcompletes
  | encryptApplication => exact h.encryptApplication
  | processIncoming => exact h.processIncoming
  | publishSucceeded roomId messageId => exact h.publishSucceeded hcompletes
  | clearPendingCommit roomId messageId => exact h.clearPendingCommit hcompletes
  | retireStaleApplication => exact h.retireStaleApplication
  | denyInvite => exact h.denyInvite
  | restart => exact h.restart

theorem CommitInv.initial (lib : Libraries K) (selfDeviceId selfUserId : String) :
    CommitInv lib (Engine.initial selfDeviceId selfUserId : Engine K) where
  staged := rfl
  keyed := fun k item hget ↦ by cases hget
  loaded := fun r g hget ↦ by cases hget
  stored := fun r st hget ↦ by cases hget

namespace Engine

/-- **Pending Commits and the outbox agree.** In every run on an empty database in which no
operation fails after it has built, applied or dropped a pending Commit, and no room is created or
joined over a Commit in the outbox. -/
theorem pending_agrees (lib : Libraries K) (selfDeviceId selfUserId : String)
    (actions : List (EngineOp × Call))
    (hrun : Machine.Along (Engine.step lib) (fun e action ↦
      action.1.commitCompletes lib e action.2 = true ∧ action.1.entersClearRoom lib e action.2 = true)
      (initial selfDeviceId selfUserId) actions) (roomId : String) :
    (Machine.run (Engine.step lib) (initial selfDeviceId selfUserId) actions).1.PendingAgrees
      roomId := by
  have hinv : CommitInv lib
      (Machine.run (Engine.step lib) (initial selfDeviceId selfUserId) actions).1 :=
    Machine.run_state_invariant
      (fun e action (h : CommitInv lib e) hstep ↦ h.step hstep.1 hstep.2)
      (CommitInv.initial lib selfDeviceId selfUserId) hrun
  exact hinv.pendingAgrees roomId

/-- A room is created, Bob is added, and the relay accepts the Commit. -/
def additionOfBob : List (EngineOp × Call) :=
  [(.createGroup "room-1", {}),
    (.addMember "room-1" (Plain.credentialJson Plain.bob) none, { entropy := 7 }),
    (.publishSucceeded "room-1" (Plain.library.digest [7]), {})]

theorem pending_agrees_additionOfBob :
    (Machine.run (Engine.step Plain.library) (initial "mac-1" "1") additionOfBob).1.PendingAgrees
      "room-1" :=
  pending_agrees Plain.library "mac-1" "1" additionOfBob (by decide) "room-1"

/-- A room is created, and the write of an addition fails. -/
def failedAddition : List (EngineOp × Call) :=
  [(.createGroup "room-1", {}),
    (.addMember "room-1" (Plain.credentialJson Plain.bob) none,
      { fault := fun a ↦ a = .writeGroupState, entropy := 7 })]

/-- The Commit of an addition that fails to be written stays pending, and is nowhere else. -/
theorem not_pending_agrees_failedAddition : ¬∀ (actions : List (EngineOp × Call)) (roomId : String),
    (Machine.run (Engine.step Plain.library) (initial "mac-1" "1") actions).1.PendingAgrees
      roomId := by
  intro hagrees
  have hpending : ∃ g, (Machine.run (Engine.step Plain.library) (initial "mac-1" "1")
      failedAddition).1.groups.get "room-1" = some g ∧ g.hasPendingCommit = true := by
    have hany : ((Machine.run (Engine.step Plain.library) (initial "mac-1" "1")
        failedAddition).1.groups.get "room-1").any Group.hasPendingCommit = true := by
      decide
    simpa [Option.any_eq_true] using hany
  have hnone : (Machine.run (Engine.step Plain.library) (initial "mac-1" "1")
      failedAddition).1.roomCommits "room-1" = [] := by
    decide
  obtain ⟨g, hgroup, hpending⟩ := hpending
  obtain ⟨item, hitem⟩ := (hagrees failedAddition "room-1" g hgroup).1.mp hpending
  rw [hnone] at hitem
  cases hitem

end Engine

end MultAIplayer.Mls
