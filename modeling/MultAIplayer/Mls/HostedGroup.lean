import MultAIplayer.Mls.HostRules
import MultAIplayer.Mls.StagedWrites

/-!
# The group of a room that this device hosts

A Commit is built when no application message of the room is in the outbox, and only a host builds
one. So while a device stays the host, every application message that it has staged is of the
current epoch or the one before: `Hosted` is the invariant, over any failures, restarts and
reopenings.
-/

namespace MultAIplayer.Mls

variable {K : Type} {lib : Libraries K} {call : Call} {e e' : Engine K} {op : EngineOp}
  {roomId : String} {g g' : Group K} {staged : Staged}

/-- The epoch that an outbox item says it is built on. -/
def OutboxItem.parentEpoch (item : OutboxItem) : ℕ :=
  match item.metadata with
  | some (.commit parentEpoch) => parentEpoch
  | some (.hostTransfer authorization) => authorization.parentEpoch
  | _ => item.epoch - 1

/-- A denial, which is delivered to its requester and not to the room. -/
def OutboxItem.IsDenial (item : OutboxItem) : Prop :=
  item.kind = .inviteDenial ∧
    ∃ binding mac, item.metadata = some (.inviteResponse binding mac)

/-- The application messages of a room are of the epoch of a group or the one before, and of that
epoch itself while a Commit is pending. -/
def Recent (outbox : InsertionMap String OutboxItem) (roomId : String) (st : GroupState K) : Prop :=
  ∀ k item, outbox.get k = some item → item.roomId = roomId → item.kind = .application →
    st.epoch.number ≤ item.epoch + 1 ∧ (st.pending.isSome = true → st.epoch.number ≤ item.epoch)

/-- The loaded group of a room, if there is one, says that this member is the host. -/
def HostOf (lib : Libraries K) (e : Engine K) (roomId : String) : Prop :=
  ∀ g, e.groups.get roomId = some g → ∃ host,
    validateHost lib.serde g.epoch.roster g.epoch.extensions = .ok host ∧ host.hostLeaf = g.selfIndex

/-- The operations that the host of a room does without: it does not join the room, create it over
its group or forget it. -/
@[grind =] def EngineOp.keepsRoom (e : Engine K) (roomId : String) : EngineOp → Bool
  | .createGroup r => r != roomId || !e.stored.has roomId
  | .joinWelcome r _ => r != roomId
  | .joinWelcomeForInvite _ admission _ => admission.roomId != roomId
  | .forgetGroup r => r != roomId
  | .forgetCorruptGroup r => r != roomId
  | _ => true

/-- What a staged item says of its epoch. -/
structure ItemOf (lib : Libraries K) (roomId : String) (number : ℕ) (item : OutboxItem) : Prop where
  roomId : item.roomId = roomId
  application : item.kind = .application → item.epoch = number ∧ ∃ data,
    item.metadata = some (.application (lib.encodeAuthenticatedData data)) ∧ data.epoch = item.epoch
  other : item.kind ≠ .application → item.parentEpoch = number

theorem itemOf_addition {welcomeMetadata : Option WelcomeRetryMetadata} {number : ℕ}
    {commit welcome : Bytes} {item : OutboxItem}
    (h : item ∈ additionItems lib roomId number commit welcome welcomeMetadata) :
    ItemOf lib roomId number item := by
  rw [additionItems, List.mem_pair] at h
  obtain rfl | rfl := h
  · exact ⟨rfl, by simp, fun _ ↦ rfl⟩
  · refine ⟨rfl, by simp, fun _ ↦ ?_⟩
    cases welcomeMetadata <;> rfl

theorem StagedBy.itemOf (h : StagedBy lib e roomId g op staged) {item : OutboxItem}
    (hitem : item ∈ staged.outbox) : ItemOf lib roomId g.currentEpoch item := by
  cases h with
  | addMember hpending welcome => exact itemOf_addition hitem
  | addMemberForInvite hpending hnew welcome => exact itemOf_addition hitem
  | removeMember hpending =>
    obtain rfl := List.mem_singleton.mp hitem
    exact ⟨rfl, by simp, fun _ ↦ rfl⟩
  | transferHost hpending hnext =>
    obtain rfl := List.mem_singleton.mp hitem
    exact ⟨rfl, by simp, fun _ ↦ rfl⟩
  | encryptApplication message =>
    obtain rfl := List.mem_singleton.mp hitem
    exact ⟨rfl, fun _ ↦ ⟨rfl, _, rfl, rfl⟩, fun h ↦ absurd rfl h⟩
  | _ => cases hitem

/-! ### One step of the group -/

/-- A Commit that may be built finds no application message of the room in the outbox. -/
theorem no_applications_of_ensureCanCommit (h : e.ensureCanCommit call roomId = .ok ()) {k : String}
    {item : OutboxItem} (hget : e.outbox.get k = some item) (hroom : item.roomId = roomId) :
    item.kind ≠ .application := by
  intro hkind
  unfold Engine.ensureCanCommit at h
  split at h
  · cases h
  unfold Engine.ensureApplicationOutboxDrained at h
  split at h
  · cases h
  · cases h
  · rename_i hnone
    have hany := Storage.access_eq_ok hnone
    have hitem := (List.any_eq_false.mp hany.symm) item (InsertionMap.mem_values_iff.mpr ⟨k, hget⟩)
    simp [hroom, hkind] at hitem

/-- A Commit of the host itself is not received. -/
theorem not_followed {source : CommitSource} {proposals bundle : ProposalBundle} {host : HostContext}
    (hhost : validateHost lib.serde g.epoch.roster g.epoch.extensions = .ok host)
    (hleaf : host.hostLeaf = g.selfIndex) (hsource : source ≠ .existingMember g.selfIndex)
    (hfilter : filterProposals lib.serde .receive source g.epoch.roster g.epoch.extensions
      proposals = .ok bundle) : False := by
  obtain ⟨-, other, hother, hof⟩ := filterProposals_eq_ok hfilter
  obtain rfl : host = other := Except.ok.inj (hhost.symm.trans hother)
  exact hsource (hof.trans (by rw [hleaf]))

/-- **One step.** The application messages stay recent while the member is the host. -/
theorem GroupStep.recent (h : GroupStep lib call e roomId g g') (hadvance : EpochsAdvance lib.toMlsRs)
    (hhost : HostOf lib e roomId) (hgroup : e.groups.get roomId = some g) (hnext : g.PendingNext)
    (hrecent : Recent e.outbox roomId g.toGroupState) :
    g'.PendingNext ∧ Recent e.outbox roomId g'.toGroupState ∧ g.epoch.number ≤ g'.epoch.number := by
  obtain ⟨hnext', hmoves⟩ := h.moves hadvance hnext
  have hle : g.epoch.number ≤ g'.epoch.number := by
    cases hmoves with
    | stays hnumber => omega
    | enters hnumber => omega
  refine ⟨hnext', fun k item hget hroom hkind ↦ ?_, hle⟩
  obtain ⟨hnumber, hpending⟩ := hrecent k item hget hroom hkind
  cases h with
  | ratcheted secrets updates => exact ⟨hnumber, hpending⟩
  | built hcan hbuild => exact absurd hkind (no_applications_of_ensureCanCommit hcan hget hroom)
  | applied hp =>
    have hcurrent := hpending (by rw [hp]; rfl)
    have hadvanced := hnext _ hp
    exact ⟨by simp only [Group.enterEpoch]; omega, by simp [Group.enterEpoch]⟩
  | followed hsource hfilter happly =>
    obtain ⟨host, hvalid, hleaf⟩ := hhost g hgroup
    exact (not_followed hvalid hleaf hsource hfilter).elim
  | removed => exact ⟨hnumber, hpending⟩
  | cleared => exact ⟨hnumber, by simp [Group.clearPendingCommit]⟩

/-! ### The invariant -/

/-- What holds between two calls of the engine of a device that stays the host of a room. -/
structure Hosted (lib : Libraries K) (e : Engine K) (roomId : String) : Prop where
  staged : e.storage.staged = {}
  loaded : ∀ g, e.groups.get roomId = some g → g.PendingNext ∧
    Recent e.outbox roomId g.toGroupState ∧
      ∃ st, e.stored.get roomId = some st ∧ st.epoch.number ≤ g.epoch.number
  stored : ∀ st, e.stored.get roomId = some st → st.PendingNext ∧ Recent e.outbox roomId st ∧
    ∀ k item, e.outbox.get k = some item → item.roomId = roomId → item.kind ≠ .application →
      ¬item.IsDenial → item.parentEpoch ≤ st.epoch.number
  absent : e.stored.get roomId = none → ∀ k item, e.outbox.get k = some item →
    item.roomId = roomId → item.IsDenial
  metadata : ∀ k item, e.outbox.get k = some item → item.roomId = roomId →
    item.kind = .application → ∃ data,
      item.metadata = some (.application (lib.encodeAuthenticatedData data)) ∧
        data.epoch = item.epoch
  groupId : ∀ r g, e.groups.get r = some g → g.groupId = r
  storedId : ∀ r st, e.stored.get r = some st → st.groupId = r

/-- The outbox items of a room are the same, fewer, or denials. -/
def NoNewItems (e e' : Engine K) (roomId : String) : Prop :=
  ∀ k item, e'.outbox.get k = some item → item.roomId = roomId →
    e.outbox.get k = some item ∨ item.IsDenial

theorem OutboxItem.IsDenial.not_application {item : OutboxItem} (h : item.IsDenial)
    (hkind : item.kind = .application) : False := by
  rw [h.1] at hkind
  cases hkind

theorem Recent.mono {st : GroupState K} (h : Recent e.outbox roomId st)
    (hitems : NoNewItems e e' roomId) : Recent e'.outbox roomId st := by
  intro k item hget hroom hkind
  obtain hold | hdenial := hitems k item hget hroom
  · exact h k item hold hroom hkind
  · exact (hdenial.not_application hkind).elim

theorem noNewItems_of_outbox_eq (h : e'.outbox = e.outbox) : NoNewItems e e' roomId :=
  fun _ _ hget _ ↦ .inl (h ▸ hget)

namespace Hosted

theorem groupId_of_written (h : Hosted lib e roomId) {r : String}
    (hwritten : Written lib call e op r g) : g.groupId = r := by
  cases hwritten with
  | entered hop hid hpending hinserts => exact hid
  | changed hop hgroup hstep => exact hstep.groupId_eq.trans (h.groupId _ _ hgroup)

/-- A call that leaves the stored group of the room, and stages no item for it. -/
theorem frame (h : Hosted lib e roomId) (hstaged : e'.storage.staged = {})
    (hstored : e'.stored.get roomId = e.stored.get roomId) (hitems : NoNewItems e e' roomId)
    (hloaded : ∀ g, e'.groups.get roomId = some g → g.PendingNext ∧
      Recent e.outbox roomId g.toGroupState ∧
        ∃ st, e.stored.get roomId = some st ∧ st.epoch.number ≤ g.epoch.number)
    (hgroupId : ∀ r g, e'.groups.get r = some g → g.groupId = r)
    (hstoredId : ∀ r st, e'.stored.get r = some st → st.groupId = r) : Hosted lib e' roomId where
  staged := hstaged
  loaded := fun g hg ↦ by
    obtain ⟨hnext, hrecent, hst⟩ := hloaded g hg
    exact ⟨hnext, hrecent.mono hitems, by rw [hstored]; exact hst⟩
  stored := fun st hst ↦ by
    obtain ⟨hnext, hrecent, hparents⟩ := h.stored st (hstored ▸ hst)
    refine ⟨hnext, hrecent.mono hitems, fun k item hget hroom hkind hdenial ↦ ?_⟩
    exact hparents k item ((hitems k item hget hroom).resolve_right hdenial) hroom hkind hdenial
  absent := fun hnone k item hget hroom ↦ by
    obtain hold | hdenial := hitems k item hget hroom
    · exact h.absent (hstored ▸ hnone) k item hold hroom
    · exact hdenial
  metadata := fun k item hget hroom hkind ↦ by
    obtain hold | hdenial := hitems k item hget hroom
    · exact h.metadata k item hold hroom hkind
    · exact (hdenial.not_application hkind).elim
  groupId := hgroupId
  storedId := hstoredId

/-- The group of the room is written, with items of its epoch. -/
theorem written (h : Hosted lib e roomId) (hstaged : e'.storage.staged = {})
    (hby : StagedBy lib e roomId g op staged)
    (hcommits : Commits call e.storage.durable staged g e'.storage.durable)
    (hgroups : Reloads e e' roomId (some g.written)) (hid : g.groupId = roomId)
    (hnext : g.PendingNext) (hrecent : Recent e.outbox roomId g.toGroupState)
    (hparents : ∀ k item, e.outbox.get k = some item → item.roomId = roomId →
      item.kind ≠ .application → ¬item.IsDenial → item.parentEpoch ≤ g.epoch.number) :
    Hosted lib e' roomId := by
  have hstored : ∀ r, e'.stored.get r =
      if r = roomId then some g.toGroupState else e.stored.get r := by
    intro r
    rw [Engine.stored, hcommits.groups, InsertionMap.get_set, hid]
  have hself : e'.stored.get roomId = some g.toGroupState := by rw [hstored, if_pos rfl]
  have hitem : ∀ k item, e'.outbox.get k = some item →
      ItemOf lib roomId g.currentEpoch item ∨ e.outbox.get k = some item := by
    intro k item hget
    obtain ⟨-, hnew | hold⟩ := (hcommits.outbox k item).mp hget
    · exact .inl (hby.itemOf hnew.1)
    · exact .inr hold
  have hrecent' : Recent e'.outbox roomId g.toGroupState := by
    intro k item hget hroom hkind
    obtain hnew | hold := hitem k item hget
    · have hepoch := (hnew.application hkind).1
      simp only [Group.currentEpoch] at hepoch
      omega
    · exact hrecent k item hold hroom hkind
  refine ⟨hstaged, fun g' hg ↦ ?_, fun st hst ↦ ?_, fun hnone ↦ ?_, fun k item hget hroom hkind ↦ ?_,
    fun r g' hg ↦ ?_, fun r st hst ↦ ?_⟩
  · rw [hgroups, if_pos rfl] at hg
    cases hg
    exact ⟨hnext, hrecent', _, hself, Nat.le_refl _⟩
  · cases hself.symm.trans hst
    refine ⟨hnext, hrecent', fun k item hget hroom hkind hdenial ↦ ?_⟩
    obtain hnew | hold := hitem k item hget
    · exact (hnew.other hkind).le
    · exact hparents k item hold hroom hkind hdenial
  · rw [hself] at hnone
    cases hnone
  · obtain hnew | hold := hitem k item hget
    · exact (hnew.application hkind).2
    · exact h.metadata k item hold hroom hkind
  · rw [hgroups] at hg
    split at hg
    · rename_i hr
      cases hg
      exact hid.trans hr.symm
    · exact h.groupId r g' hg
  · rw [hstored] at hst
    split at hst
    · rename_i hr
      cases hst
      exact hid.trans hr.symm
    · exact h.storedId r st hst

/-- The stored group of a room stays, on its epoch or a later one. -/
def StoredGrows (e e' : Engine K) (roomId : String) : Prop :=
  ∀ st, e.stored.get roomId = some st →
    ∃ st', e'.stored.get roomId = some st' ∧ st.epoch.number ≤ st'.epoch.number

theorem storedGrows_of_eq (h : e'.stored.get roomId = e.stored.get roomId) :
    StoredGrows e e' roomId :=
  fun st hst ↦ ⟨st, h.trans hst, Nat.le_refl _⟩

/-- A room that the host enters has no group yet. -/
theorem stored_eq_none_of_enters (hkeeps : op.keepsRoom e roomId = true)
    (henters : op.enters = some roomId) : e.stored.get roomId = none := by
  cases op <;> simp [EngineOp.enters] at henters <;> subst henters <;>
    simp [EngineOp.keepsRoom, InsertionMap.has] at hkeeps
  exact hkeeps

theorem ne_of_forgets {r : String} (hkeeps : op.keepsRoom e roomId = true)
    (hforgets : op.forgets = some r) : roomId ≠ r := by
  rintro rfl
  cases op <;> simp [EngineOp.forgets] at hforgets <;> subst hforgets <;>
    simp [EngineOp.keepsRoom] at hkeeps

/-- **One call.** -/
theorem step (h : Hosted lib e roomId) (hadvance : EpochsAdvance lib.toMlsRs)
    (hhost : HostOf lib e roomId) (hkeeps : op.keepsRoom e roomId = true) :
    Hosted lib (e.perform lib op call).1 roomId ∧
      StoredGrows e (e.perform lib op call).1 roomId := by
  obtain ⟨hstaged, houtcome⟩ := performed_perform lib call h.staged op
  generalize (e.perform lib op call).1 = e' at hstaged houtcome ⊢
  have hstored_of : e'.storage.durable.groups = e.storage.durable.groups → e'.stored = e.stored :=
    id
  cases houtcome with
  | silent hgroups hdurable =>
    have hstored : e'.stored = e.stored := congrArg Durable.groups hdurable
    exact ⟨h.frame hstaged (by rw [hstored]) (noNewItems_of_outbox_eq (by rw [Engine.outbox, hdurable]))
      (hgroups ▸ h.loaded) (hgroups ▸ h.groupId) (hstored ▸ h.storedId),
      storedGrows_of_eq (by rw [hstored])⟩
  | @opened r st hst hgroups hdurable =>
    have hstored : e'.stored = e.stored := congrArg Durable.groups hdurable
    refine ⟨h.frame hstaged (by rw [hstored])
      (noNewItems_of_outbox_eq (by rw [Engine.outbox, hdurable])) (fun g hg ↦ ?_) (fun r' g hg ↦ ?_)
      (hstored ▸ h.storedId), storedGrows_of_eq (by rw [hstored])⟩
    · rw [hgroups] at hg
      split at hg
      · rename_i hr
        subst hr
        cases hg
        obtain ⟨hnext, hrecent, -⟩ := h.stored st hst
        exact ⟨hnext, hrecent, st, hst, Nat.le_refl _⟩
      · exact h.loaded g hg
    · rw [hgroups] at hg
      split at hg
      · rename_i hr
        cases hg
        exact (h.storedId _ _ hst).trans hr.symm
      · exact h.groupId r' g hg
  | closed hgroups hdurable =>
    have hstored : e'.stored = e.stored := congrArg Durable.groups hdurable
    exact ⟨h.frame hstaged (by rw [hstored])
      (noNewItems_of_outbox_eq (by rw [Engine.outbox, hdurable])) (fun g hg ↦ by simp [hgroups] at hg)
      (fun r g hg ↦ by simp [hgroups] at hg) (hstored ▸ h.storedId),
      storedGrows_of_eq (by rw [hstored])⟩
  | @failed r g g' hgroup hstep hgroups hdurable =>
    have hstored : e'.stored = e.stored := congrArg Durable.groups hdurable
    refine ⟨h.frame hstaged (by rw [hstored])
      (noNewItems_of_outbox_eq (by rw [Engine.outbox, hdurable])) (fun g₁ hg ↦ ?_) (fun r' g₁ hg ↦ ?_)
      (hstored ▸ h.storedId), storedGrows_of_eq (by rw [hstored])⟩
    · rw [hgroups] at hg
      split at hg
      · rename_i hr
        subst hr
        cases hg
        obtain ⟨hnext, hrecent, st, hst, hle⟩ := h.loaded g hgroup
        obtain ⟨hnext', hrecent', hle'⟩ := hstep.recent hadvance hhost hgroup hnext hrecent
        exact ⟨hnext', hrecent', st, hst, hle.trans hle'⟩
      · exact h.loaded g₁ hg
    · rw [hgroups] at hg
      split at hg
      · rename_i hr
        cases hg
        exact (hstep.groupId_eq.trans (h.groupId _ _ hgroup)).trans hr.symm
      · exact h.groupId r' g₁ hg
  | @wrote r g staged hwritten hby hfresh htransaction hgroups =>
    have hcommits := commits_of_transaction hby hfresh htransaction
    have hid := h.groupId_of_written hwritten
    have hstored : ∀ r', e'.stored.get r' =
        if r' = r then some g.toGroupState else e.stored.get r' := by
      intro r'
      rw [Engine.stored, hcommits.groups, InsertionMap.get_set, hid]
    by_cases hr : r = roomId
    · subst hr
      have hself : e'.stored.get r = some g.toGroupState := by rw [hstored, if_pos rfl]
      cases hwritten with
      | entered hop hid' hpending hinserts =>
        have hnone := stored_eq_none_of_enters hkeeps hop
        refine ⟨h.written hstaged hby hcommits hgroups hid
          (GroupState.pendingNext_of_none hpending) (fun k item hget hroom hkind ↦ ?_)
          (fun k item hget hroom hkind hdenial ↦ ?_), fun st hst ↦ ?_⟩
        · exact ((h.absent hnone k item hget hroom).not_application hkind).elim
        · exact absurd (h.absent hnone k item hget hroom) hdenial
        · rw [hnone] at hst
          cases hst
      | changed hop hgroup hstep =>
        obtain ⟨hnext, hrecent, st, hst, hle⟩ := h.loaded _ hgroup
        obtain ⟨hnext', hrecent', hle'⟩ := hstep.recent hadvance hhost hgroup hnext hrecent
        obtain ⟨-, -, hparents⟩ := h.stored st hst
        refine ⟨h.written hstaged hby hcommits hgroups hid hnext' hrecent'
          (fun k item hget hroom hkind hdenial ↦ ?_), fun st' hst' ↦ ?_⟩
        · exact (hparents k item hget hroom hkind hdenial).trans (hle.trans hle')
        · cases hst.symm.trans hst'
          exact ⟨_, hself, hle.trans hle'⟩
    · have hsame : e'.stored.get roomId = e.stored.get roomId := by
        rw [hstored, if_neg (Ne.symm hr)]
      refine ⟨h.frame hstaged hsame (fun k item hget hroom ↦ ?_) (fun g' hg ↦ ?_) (fun r' g' hg ↦ ?_)
        (fun r' st hst ↦ ?_), storedGrows_of_eq hsame⟩
      · obtain ⟨-, hnew | hold⟩ := (hcommits.outbox k item).mp hget
        · exact absurd ((hby.itemOf hnew.1).roomId.symm.trans hroom) hr
        · exact .inl hold
      · rw [hgroups, if_neg (Ne.symm hr)] at hg
        exact h.loaded g' hg
      · rw [hgroups] at hg
        split at hg
        · rename_i hr'
          cases hg
          exact hid.trans hr'.symm
        · exact h.groupId r' g' hg
      · rw [hstored] at hst
        split at hst
        · rename_i hr'
          cases hst
          exact hid.trans hr'.symm
        · exact h.storedId r' st hst
  | @retired messageId item hget hkind hgroups hdurable =>
    have hstored : e'.stored = e.stored := hstored_of (by rw [hdurable])
    refine ⟨h.frame hstaged (by rw [hstored]) (fun k other hother _ ↦ ?_) (hgroups ▸ h.loaded)
      (hgroups ▸ h.groupId) (hstored ▸ h.storedId), storedGrows_of_eq (by rw [hstored])⟩
    rw [Engine.outbox, hdurable] at hother
    have hother : (e.outbox.delete messageId).get k = some other := hother
    rw [InsertionMap.get_delete] at hother
    split at hother
    · cases hother
    · exact .inl hother
  | @denied receipt item hnew hkind hmetadata hgroups hdurable =>
    have hstored : e'.stored = e.stored := hstored_of (by rw [hdurable])
    refine ⟨h.frame hstaged (by rw [hstored]) (fun k other hother _ ↦ ?_) (hgroups ▸ h.loaded)
      (hgroups ▸ h.groupId) (hstored ▸ h.storedId), storedGrows_of_eq (by rw [hstored])⟩
    rw [Engine.outbox, hdurable] at hother
    have hother : (e.outbox.set item.id item).get k = some other := hother
    rw [InsertionMap.get_set] at hother
    split at hother
    · cases hother
      exact .inr ⟨hkind, _, _, hmetadata⟩
    · exact .inl hother
  | @forgot r hop hgroups hdurable =>
    have hr := ne_of_forgets hkeeps hop
    have hstored : ∀ r', e'.stored.get r' = if r' = r then none else e.stored.get r' := by
      intro r'
      rw [Engine.stored, hdurable]
      exact InsertionMap.get_delete _ _ _
    have hsame : e'.stored.get roomId = e.stored.get roomId := by rw [hstored, if_neg hr]
    refine ⟨h.frame hstaged hsame (fun k item hget _ ↦ ?_) (fun g hg ↦ ?_) (fun r' g hg ↦ ?_)
      (fun r' st hst ↦ ?_), storedGrows_of_eq hsame⟩
    · rw [Engine.outbox, hdurable, Storage.withoutRoom, InsertionMap.get_filter] at hget
      exact .inl (Option.filter_eq_some_iff.mp hget).1
    · rw [hgroups, if_neg hr] at hg
      exact h.loaded g hg
    · rw [hgroups] at hg
      split at hg
      · cases hg
      · exact h.groupId r' g hg
    · rw [hstored] at hst
      split at hst
      · cases hst
      · exact h.storedId r' st hst

theorem initial (lib : Libraries K) (selfDeviceId selfUserId roomId : String) :
    Hosted lib (Engine.initial selfDeviceId selfUserId) roomId where
  staged := rfl
  loaded := fun _ h ↦ by cases h
  stored := fun _ h ↦ by cases h
  absent := fun _ _ _ h ↦ by cases h
  metadata := fun _ _ h ↦ by cases h
  groupId := fun _ _ h ↦ by cases h
  storedId := fun _ _ h ↦ by cases h

end Hosted

end MultAIplayer.Mls
