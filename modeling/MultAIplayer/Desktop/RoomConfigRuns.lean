import Mathlib.Data.Prod.Lex
import MultAIplayer.Desktop.RoomConfig

/-!
# Room configuration: do the members agree?

`ConfigAgreement` is what the snapshots are for: a member has the newest configuration that was
delivered to it, no two snapshots of a host carry one revision of one epoch with different settings,
members take every snapshot, and publishing writes nothing but the configuration. It holds along
every run whose steps are `Orderly` (`configAgreement_run`).

A publication writes back the record that it has captured, so that an update of the record in
between is lost (`not_configAgreement_lost`). In the same way two publications can come to one
revision with different settings; `Settles` and `Current` are what keeps them apart.
-/

namespace MultAIplayer.Desktop

/-! ### The order of configurations -/

/-- Configurations are ordered by epoch, then by revision. -/
@[grind =] def RoomConfigPayload.rank (payload : RoomConfigPayload) : ℕ ×ₗ ℕ :=
  toLex (payload.emittingEpoch, payload.configRevision)

@[grind =] def ClientRoomRecord.rank (room : ClientRoomRecord) : ℕ ×ₗ ℕ :=
  toLex (room.config.configEpoch, room.config.configRevision)

/-- A record has the configuration of a snapshot. -/
structure Applied (room : ClientRoomRecord) (payload : RoomConfigPayload) : Prop where
  settings : room.config.toRoomSettings = payload.toRoomSettings
  revision : room.config.configRevision = payload.configRevision
  epoch : room.config.configEpoch = payload.emittingEpoch
  pending : room.config.configPending = false

/-- What is no configuration. -/
def ClientRoomRecord.others (room : ClientRoomRecord) : RoomRecord × ℕ :=
  (room.toRoomRecord, room.unread)

/-! ### What the log says -/

/-- The snapshot of an envelope, if its plaintext is one and names the epoch that it came in. -/
def ConfigEnvelope.snapshot (envelope : ConfigEnvelope) : Option RoomConfigPayload :=
  envelope.payload.filter fun payload ↦
    payload.isValid && payload.emittingEpoch = envelope.epochHint

def deliveredOf : ConfigEvent → Option RoomConfigPayload
  | .delivered envelope => envelope.snapshot
  | _ => none

def publishedOf : ConfigEvent → Option RoomConfigPayload
  | .published _ payload => some payload
  | _ => none

structure ConfigAgreement (s : ConfigSystem) (log : List ConfigEvent) : Prop where
  /-- A member has the greatest configuration that was delivered to it. -/
  latest : ∀ room, s.member = some room → ∀ payload ∈ log.filterMap deliveredOf,
    (∀ other ∈ log.filterMap deliveredOf, other.rank ≤ payload.rank) → Applied room payload
  /-- One epoch and revision, one configuration. -/
  unique : ∀ payload ∈ log.filterMap publishedOf, ∀ other ∈ log.filterMap publishedOf,
    payload.rank = other.rank → payload.toRoomSettings = other.toRoomSettings
  /-- A member that takes the publisher for the host takes what is published, unless it has it or
  something newer. -/
  accepted : ∀ envelope payload, .published envelope payload ∈ log →
    ∀ room : ClientRoomRecord, room.deletedAt = none →
      fromActiveRoomHost room.toRoomRecord envelope = true →
      ∃ room', routeRoomConfig (some room) envelope = some room' ∧ payload.rank ≤ room'.rank ∧
        (room.rank < payload.rank → Applied room' payload)
  keepsOthers : ∀ before after, .stored before after ∈ log →
    after.map ClientRoomRecord.others = before.map ClientRoomRecord.others

/-! ### The condition -/

/-- The settings and the revision that a publication of the record would start from. -/
@[grind =] def ConfigHost.view (h : ConfigHost) : Option (RoomSettings × ℕ) :=
  (h.record.bind (resolveRoomConfigForPublish · h.persisted)).map fun room ↦
    (room.config.toRoomSettings, room.config.configRevision)

/-- What is written into the record keeps the settings and does not lower their revision, or has a
revision above those of the snapshots encrypted in the epoch. -/
def Settles (h : ConfigHost) (record : Option ClientRoomRecord) : Prop :=
  ∀ base ∈ { h with record }.view,
    (∃ old ∈ h.view, base.1 = old.1 ∧ old.2 ≤ base.2) ∨
      ∀ payload ∈ h.encrypted, payload.emittingEpoch = h.epoch → payload.configRevision < base.2

/-- What is to be encrypted is what the host has by now. -/
def Current (h : ConfigHost) (payload : RoomConfigPayload) : Prop :=
  ∃ base ∈ h.view, payload.toRoomSettings = base.1 ∧
    (payload.configRevision = base.2 ∨ payload.configRevision = base.2 + 1)

/-- Wherever the captured record says something, the record still says it. -/
def Untouched (captured : ClientRoomRecord) (record : Option ClientRoomRecord) : Prop :=
  captured.deletedAt = none ∧
    ∀ room ∈ record, RoomRecord.over captured.toRoomRecord room.toRoomRecord = room.toRoomRecord

/-- A snapshot reaches a member from its active host, and the member has no other configuration
under its epoch and revision. -/
def Trusted (room : ClientRoomRecord) (envelope : ConfigEnvelope) : Prop :=
  ∀ payload ∈ envelope.snapshot, fromActiveRoomHost room.toRoomRecord envelope = true ∧
    (payload.rank = room.rank → payload.toRoomSettings = room.config.toRoomSettings)

/-- The steps after which the members agree. -/
def Orderly (s : ConfigSystem) : ConfigAction → Prop
  | .update record => Settles s.host record
  | .encrypt task _ => match s.host.tasks task with
    | some (.prepared _ payload) => Current s.host payload
    | _ => True
  | .acknowledge task true => match s.host.tasks task with
    | some (.sent updated) => Untouched updated s.host.record ∧
        Settles s.host (replaceRoomRecord s.host.record updated)
    | _ => True
  | .deliver envelope => ∀ room ∈ s.member, Trusted room envelope
  | _ => True

instance (h : ConfigHost) (record : Option ClientRoomRecord) : Decidable (Settles h record) := by
  unfold Settles
  infer_instance

instance (h : ConfigHost) (payload : RoomConfigPayload) : Decidable (Current h payload) := by
  unfold Current
  infer_instance

instance (captured : ClientRoomRecord) (record : Option ClientRoomRecord) :
    Decidable (Untouched captured record) :=
  inferInstanceAs (Decidable (_ ∧ _))

instance (room : ClientRoomRecord) (envelope : ConfigEnvelope) :
    Decidable (Trusted room envelope) := by
  unfold Trusted
  infer_instance

instance (s : ConfigSystem) (action : ConfigAction) : Decidable (Orderly s action) := by
  unfold Orderly
  split
  · infer_instance
  · split <;> infer_instance
  · split <;> infer_instance
  · infer_instance
  · infer_instance

/-- A host that has published nothing and a member that has received nothing. -/
structure Fresh (s : ConfigSystem) : Prop where
  tasks : ∀ task, s.host.tasks task = none
  encrypted : s.host.encrypted = []
  member : ∀ room, s.member = some room → room.deletedAt = none ∧ room.config = {}

/-! ### Taking a snapshot -/

theorem ConfigEnvelope.snapshot_eq_some {envelope : ConfigEnvelope} {payload : RoomConfigPayload} :
    envelope.snapshot = some payload ↔ envelope.payload = some payload ∧
      payload.isValid = true ∧ payload.emittingEpoch = envelope.epochHint := by
  rw [snapshot, Option.filter_eq_some_iff, Bool.and_eq_true, decide_eq_true_eq]

theorem RoomRecord.over_self (room : RoomRecord) : RoomRecord.over room room = room := by
  obtain ⟨id, teamId, epoch, name, host, hostUserId, device, status, policy, archivedAt,
    deletedAt⟩ := room
  cases epoch <;> cases hostUserId <;> cases device <;> cases archivedAt <;> cases deletedAt <;> rfl

theorem roomMlsConfig_of_model {config : RoomConfig} (h : config.codexModel ≠ "") :
    roomMlsConfig config = config := by
  rw [roomMlsConfig, if_neg h]

/-- The configuration that a snapshot leaves. -/
def RoomConfigPayload.config (payload : RoomConfigPayload) : RoomConfig :=
  { payload.toRoomSettings with
    configRevision := payload.configRevision
    configEpoch := payload.emittingEpoch
    configPending := false }

section Payload

variable {payload : RoomConfigPayload} (h : payload.isValid = true)

theorem ne_empty_of_boundedString {lo hi : ℕ} {text : String} (hlo : 0 < lo)
    (h : boundedString lo hi text = true) : text ≠ "" := by
  rintro rfl
  simp only [boundedString, Bool.and_eq_true, decide_eq_true_eq] at h
  have hzero : Text.utf16Length "" = 0 := by decide
  omega

include h

theorem RoomConfigPayload.revision_pos : 0 < payload.configRevision := by
  simp only [isValid, Bool.and_eq_true, decide_eq_true_eq] at h
  exact h.1.1.1.1

theorem RoomConfigPayload.path_ne : payload.projectPath ≠ "" := by
  simp only [isValid, Bool.and_eq_true] at h
  exact ne_empty_of_boundedString Nat.one_pos h.1.2

theorem RoomConfigPayload.model_ne : payload.codexModel ≠ "" := by
  simp only [isValid, Bool.and_eq_true] at h
  exact ne_empty_of_boundedString Nat.one_pos h.2

end Payload

variable {room : ClientRoomRecord} {envelope : ConfigEnvelope} {payload : RoomConfigPayload}

theorem applied_config (room : ClientRoomRecord) (payload : RoomConfigPayload) :
    Applied { room with config := payload.config } payload :=
  ⟨rfl, rfl, rfl, rfl⟩

theorem shouldApplyRoomConfig_iff (hepoch : payload.emittingEpoch = envelope.epochHint) :
    shouldApplyRoomConfig room payload envelope.epochHint = true ↔ room.rank < payload.rank := by
  unfold shouldApplyRoomConfig ClientRoomRecord.rank RoomConfigPayload.rank
  rw [if_neg (not_not.mpr hepoch), Prod.Lex.toLex_lt_toLex, hepoch]
  split
  · simp only [Bool.false_eq_true, false_iff]
    omega
  · simp only [Bool.or_eq_true, decide_eq_true_eq]
    omega

/-- **What a member makes of a snapshot of its host**: it takes what is newer. -/
theorem routeRoomConfig_snapshot (hdeleted : room.deletedAt = none)
    (hhost : fromActiveRoomHost room.toRoomRecord envelope = true)
    (h : envelope.snapshot = some payload) :
    routeRoomConfig (some room) envelope =
      some (if room.rank < payload.rank then { room with config := payload.config } else room) := by
  obtain ⟨hpayload, hvalid, hepoch⟩ := ConfigEnvelope.snapshot_eq_some.mp h
  have hfilter : envelope.payload.filter (·.isValid) = some payload :=
    Option.filter_eq_some_iff.mpr ⟨hpayload, hvalid⟩
  unfold routeRoomConfig
  rw [hfilter]
  dsimp only
  rw [if_pos hhost]
  by_cases hnewer : room.rank < payload.rank
  · have happly : shouldApplyRoomConfig room payload envelope.epochHint = true :=
      (shouldApplyRoomConfig_iff hepoch).mpr hnewer
    have htaken : applyRoomConfig room payload envelope.epochHint =
        { room with config := payload.config } := by
      rw [applyRoomConfig, if_pos happly, ← hepoch]
      rfl
    have hnone : ({ room with config := payload.config } : ClientRoomRecord).deletedAt.isSome =
        false := by
      show room.deletedAt.isSome = false
      rw [hdeleted]
      rfl
    rw [if_pos happly, if_pos hnewer, htaken, replaceRoomRecord, hnone]
    have hpath : (some payload.config).filter (fun config ↦ config.projectPath ≠ "") =
        some payload.config :=
      Option.filter_eq_some_iff.mpr ⟨rfl, decide_eq_true (payload.path_ne hvalid)⟩
    have hconfig : roomMlsConfig payload.config = payload.config :=
      roomMlsConfig_of_model (payload.model_ne hvalid)
    simp only [Bool.false_eq_true, if_false, Option.map_some, ensureRoomDefaults, hpath, hconfig,
      RoomRecord.over_self]
  · rw [if_neg fun happly ↦ hnewer ((shouldApplyRoomConfig_iff hepoch).mp happly), if_neg hnewer]

theorem routeRoomConfig_other (record : Option ClientRoomRecord) (h : envelope.snapshot = none) :
    routeRoomConfig record envelope = record := by
  unfold routeRoomConfig
  cases hpayload : envelope.payload.filter (·.isValid) with
  | none => rfl
  | some payload =>
    cases record with
    | none => rfl
    | some room =>
      dsimp only
      obtain ⟨hsome, hvalid⟩ := Option.filter_eq_some_iff.mp hpayload
      have hepoch : payload.emittingEpoch ≠ envelope.epochHint := fun hepoch ↦ by
        rw [ConfigEnvelope.snapshot_eq_some.mpr ⟨hsome, hvalid, hepoch⟩] at h
        exact Option.some_ne_none _ h
      have hstale : shouldApplyRoomConfig room payload envelope.epochHint = false := by
        rw [shouldApplyRoomConfig, if_pos hepoch]
      rw [hstale]
      split <;> rfl

/-! ### The member -/

variable {log : List ConfigEvent}

/-- What holds of a member that has received some snapshots. -/
structure MemberInv (room : ClientRoomRecord) (received : List RoomConfigPayload) : Prop where
  deleted : room.deletedAt = none
  model : room.config.codexModel ≠ ""
  upper : ∀ payload ∈ received, payload.rank ≤ room.rank
  applied : ∀ payload ∈ received, payload.rank = room.rank → Applied room payload
  attained : received ≠ [] → ∃ payload ∈ received, payload.rank = room.rank
  start : received = [] → room.rank = toLex (0, 0)

theorem MemberInv.latest {received : List RoomConfigPayload} (h : MemberInv room received)
    (hmem : payload ∈ received) (hgreatest : ∀ other ∈ received, other.rank ≤ payload.rank) :
    Applied room payload := by
  obtain ⟨newest, hnewest, heq⟩ := h.attained (List.ne_nil_of_mem hmem)
  exact h.applied payload hmem
    (le_antisymm (h.upper payload hmem) (heq ▸ hgreatest newest hnewest))

theorem MemberInv.deliver {received : List RoomConfigPayload} (h : MemberInv room received)
    (hsnapshot : envelope.snapshot = some payload) (htrusted : Trusted room envelope) :
    ∃ room', routeRoomConfig (some room) envelope = some room' ∧
      MemberInv room' (received ++ [payload]) := by
  obtain ⟨hhost, htie⟩ := htrusted payload hsnapshot
  obtain ⟨-, hvalid, -⟩ := ConfigEnvelope.snapshot_eq_some.mp hsnapshot
  have hpos := payload.revision_pos hvalid
  refine ⟨_, routeRoomConfig_snapshot h.deleted hhost hsnapshot, ?_⟩
  split
  · rename_i hnewer
    have hrank : ({ room with config := payload.config } : ClientRoomRecord).rank = payload.rank :=
      rfl
    refine ⟨h.deleted, payload.model_ne hvalid, ?_, ?_, ?_, ?_⟩
    · intro other hother
      rw [hrank]
      rcases List.mem_append.mp hother with hold | hnew
      · exact (h.upper other hold).trans hnewer.le
      · rw [List.mem_singleton.mp hnew]
    · intro other hother heq
      rw [hrank] at heq
      rcases List.mem_append.mp hother with hold | hnew
      · exact absurd (heq ▸ h.upper other hold) (not_le.mpr hnewer)
      · rw [List.mem_singleton.mp hnew]
        exact applied_config room payload
    · exact fun _ ↦ ⟨payload, List.mem_append_right _ (List.mem_singleton_self _), rfl⟩
    · exact fun hnil ↦ (List.append_ne_nil_of_right_ne_nil _ (List.cons_ne_nil _ _) hnil).elim
  · rename_i hold
    -- a snapshot is newer than no configuration at all
    have hreceived : received ≠ [] := by
      intro hnil
      refine hold ?_
      rw [h.start hnil, RoomConfigPayload.rank, Prod.Lex.toLex_lt_toLex]
      omega
    have happlied : payload.rank = room.rank → Applied room payload := by
      intro heq
      obtain ⟨newest, hnewest, hrank⟩ := h.attained hreceived
      have hpair := Prod.mk.inj (toLex.injective heq)
      exact ⟨(htie heq).symm, hpair.2.symm, hpair.1.symm, (h.applied newest hnewest hrank).pending⟩
    refine ⟨h.deleted, h.model, ?_, ?_, ?_, ?_⟩
    · intro other hother
      rcases List.mem_append.mp hother with hmem | hnew
      · exact h.upper other hmem
      · rw [List.mem_singleton.mp hnew]
        exact not_lt.mp hold
    · intro other hother heq
      rcases List.mem_append.mp hother with hmem | hnew
      · exact h.applied other hmem heq
      · rw [List.mem_singleton.mp hnew] at heq ⊢
        exact happlied heq
    · intro _
      obtain ⟨newest, hnewest, heq⟩ := h.attained hreceived
      exact ⟨newest, List.mem_append_left _ hnewest, heq⟩
    · exact fun hnil ↦ (List.append_ne_nil_of_right_ne_nil _ (List.cons_ne_nil _ _) hnil).elim

/-- What holds of a member depends on its configuration. -/
theorem MemberInv.of_config {room' : ClientRoomRecord} {received : List RoomConfigPayload}
    (h : MemberInv room received) (hdeleted : room'.deletedAt = none)
    (hconfig : room'.config = room.config) : MemberInv room' received := by
  have hrank : room'.rank = room.rank := by
    rw [ClientRoomRecord.rank, ClientRoomRecord.rank, hconfig]
  refine ⟨hdeleted, hconfig ▸ h.model, hrank ▸ h.upper, fun payload hmem heq ↦ ?_, hrank ▸ h.attained,
    hrank ▸ h.start⟩
  obtain ⟨hsettings, hrevision, hepoch, hpending⟩ := h.applied payload hmem (hrank ▸ heq)
  rw [← hconfig] at hsettings hrevision hepoch hpending
  exact ⟨hsettings, hrevision, hepoch, hpending⟩

theorem MemberInv.relayUpdate {received : List RoomConfigPayload} (h : MemberInv room received)
    {metadata : RoomRecord} (hdeleted : metadata.deletedAt = none) :
    MemberInv (ensureRoomDefaults metadata none room) received := by
  refine h.of_config ?_ (roomMlsConfig_of_model h.model)
  show (metadata.deletedAt <|> room.deletedAt) = none
  rw [hdeleted, h.deleted]
  rfl

/-! ### The host -/

structure HostInv (h : ConfigHost) (log : List ConfigEvent) : Prop where
  published : log.filterMap publishedOf = h.encrypted
  envelopes : ∀ envelope payload, .published envelope payload ∈ log →
    envelope.snapshot = some payload
  epochs : ∀ payload ∈ h.encrypted, payload.emittingEpoch ≤ h.epoch
  unique : ∀ payload ∈ h.encrypted, ∀ other ∈ h.encrypted, payload.rank = other.rank →
    payload.toRoomSettings = other.toRoomSettings
  /-- What is encrypted in the epoch is at most one revision ahead, with the settings at hand. -/
  ahead : ∀ base ∈ h.view, ∀ payload ∈ h.encrypted, payload.emittingEpoch = h.epoch →
    payload.configRevision ≤ base.2 + 1 ∧
      (base.2 ≤ payload.configRevision → payload.toRoomSettings = base.1)
  prepared : ∀ task room payload, h.tasks task = some (.prepared room payload) →
    payload.isValid = true
  stored : ∀ before after, .stored before after ∈ log →
    after.map ClientRoomRecord.others = before.map ClientRoomRecord.others

variable {host host' : ConfigHost} {new : List ConfigEvent}

theorem ConfigHost.setTask_tasks (h : ConfigHost) (task : ℕ) (state : Option PublishTask) :
    (h.setTask task state).tasks = Function.update h.tasks task state := rfl

/-- A step that publishes nothing. -/
theorem HostInv.moved (h : HostInv host log) (hencrypted : host'.encrypted = host.encrypted)
    (hepoch : host.epoch ≤ host'.epoch)
    (hahead : ∀ base ∈ host'.view, ∀ payload ∈ host.encrypted, payload.emittingEpoch = host'.epoch →
      payload.configRevision ≤ base.2 + 1 ∧
        (base.2 ≤ payload.configRevision → payload.toRoomSettings = base.1))
    (hprepared : ∀ task room payload, host'.tasks task = some (.prepared room payload) →
      payload.isValid = true)
    (hquiet : ∀ e ∈ new, publishedOf e = none)
    (hstored : ∀ before after, .stored before after ∈ new →
      after.map ClientRoomRecord.others = before.map ClientRoomRecord.others) :
    HostInv host' (log ++ new) := by
  refine ⟨?_, fun envelope payload hmem ↦ ?_, ?_, ?_, ?_, hprepared, fun before after hmem ↦ ?_⟩
  · rw [List.filterMap_append, List.filterMap_eq_nil_iff.mpr hquiet, List.append_nil, h.published,
      hencrypted]
  · rcases List.mem_append.mp hmem with hold | hnew
    · exact h.envelopes envelope payload hold
    · exact (Option.some_ne_none _ (hquiet _ hnew)).elim
  · rw [hencrypted]
    exact fun payload hmem ↦ (h.epochs payload hmem).trans hepoch
  · rw [hencrypted]
    exact h.unique
  · rw [hencrypted]
    exact hahead
  · rcases List.mem_append.mp hmem with hold | hnew
    · exact h.stored before after hold
    · exact hstored before after hnew

theorem HostInv.setTask (h : HostInv host log) {task : ℕ} {state : Option PublishTask}
    (hstate : ∀ room payload, state = some (.prepared room payload) → payload.isValid = true)
    (hnew : ∀ e ∈ new, e = .failed) : HostInv (host.setTask task state) (log ++ new) := by
  refine h.moved rfl (Nat.le_refl _) h.ahead (fun other room payload hother ↦ ?_)
    (fun e he ↦ by rw [hnew e he]; rfl) (fun before after hmem ↦ ConfigEvent.noConfusion (hnew _ hmem))
  rw [ConfigHost.setTask_tasks] at hother
  by_cases heq : other = task
  · rw [heq, Function.update_self] at hother
    exact hstate room payload hother
  · rw [Function.update_of_ne heq] at hother
    exact h.prepared other room payload hother

theorem HostInv.fails (h : HostInv host log) (task : ℕ) :
    HostInv (host.fails task).1 (log ++ (host.fails task).2) :=
  h.setTask (fun _ _ hnone ↦ (Option.some_ne_none _ hnone.symm).elim) fun _ he ↦
    List.mem_singleton.mp he

theorem HostInv.stays (h : HostInv host log) : HostInv host (log ++ []) := by
  rw [List.append_nil]
  exact h

/-- A task changes without an event. -/
theorem HostInv.silently (h : HostInv host log) {task : ℕ} {state : Option PublishTask}
    (hstate : ∀ room payload, state = some (.prepared room payload) → payload.isValid = true) :
    HostInv (host.setTask task state) log := by
  have hset : HostInv (host.setTask task state) (log ++ []) :=
    h.setTask hstate fun _ he ↦ (List.not_mem_nil he).elim
  rwa [List.append_nil] at hset

theorem HostInv.goesOn (h : HostInv host log) {task : ℕ} {state : PublishTask}
    (hstate : ∀ room payload, state = .prepared room payload → payload.isValid = true) :
    HostInv (host.setTask task (some state)) (log ++ []) :=
  (h.silently fun room payload heq ↦ hstate room payload (Option.some.inj heq)).stays

theorem HostInv.publish (h : HostInv host log) (task : ℕ) (room : ClientRoomRecord)
    (incrementRevision : Bool) :
    HostInv (host.publish task room incrementRevision).1
      (log ++ (host.publish task room incrementRevision).2) := by
  unfold ConfigHost.publish
  split
  · exact h.stays
  · exact h.goesOn fun _ _ heq ↦ by cases heq

theorem HostInv.resolve (h : HostInv host log) (task : ℕ) :
    HostInv (host.resolve task).1 (log ++ (host.resolve task).2) := by
  unfold ConfigHost.resolve
  split
  · split
    · exact h.goesOn fun _ _ heq ↦ by cases heq
    · exact h.fails task
  · exact h.stays

theorem HostInv.readEpoch (h : HostInv host log) (task : ℕ) :
    HostInv (host.readEpoch task).1 (log ++ (host.readEpoch task).2) := by
  unfold ConfigHost.readEpoch
  split
  · dsimp only
    generalize roomConfigPayload _ host.epoch _ = made
    split
    · rename_i hvalid
      refine h.goesOn fun room payload heq ↦ ?_
      obtain ⟨-, rfl⟩ := PublishTask.prepared.inj heq
      exact hvalid
    · exact h.fails task
  · exact h.stays

/-- Other settings come with a revision above all that is encrypted in the epoch. -/
theorem HostInv.settled (h : HostInv host log) {record : Option ClientRoomRecord}
    (hsettles : Settles host record) : ∀ base ∈ { host with record }.view, ∀ payload ∈ host.encrypted,
      payload.emittingEpoch = host.epoch → payload.configRevision ≤ base.2 + 1 ∧
        (base.2 ≤ payload.configRevision → payload.toRoomSettings = base.1) := by
  intro base hbase payload hmem hepoch
  rcases hsettles base hbase with ⟨old, hold, hsettings, hrevision⟩ | habove
  · obtain ⟨hle, hsame⟩ := h.ahead old hold payload hmem hepoch
    exact ⟨by omega, fun hge ↦ hsettings ▸ hsame (by omega)⟩
  · have hlt := habove payload hmem hepoch
    exact ⟨by omega, fun hge ↦ by omega⟩

theorem HostInv.update (h : HostInv host log) {record : Option ClientRoomRecord}
    (hsettles : Settles host record) : HostInv { host with record } (log ++ []) :=
  h.moved rfl (Nat.le_refl _) (h.settled hsettles) h.prepared
    (fun _ he ↦ (List.not_mem_nil he).elim) fun _ _ he ↦ (List.not_mem_nil he).elim

/-- In a new epoch nothing is encrypted yet. -/
theorem HostInv.commit (h : HostInv host log) :
    HostInv { host with epoch := host.epoch + 1 } (log ++ []) := by
  refine h.moved rfl (Nat.le_succ _) (fun base hbase payload hmem hepoch ↦ ?_) h.prepared
    (fun _ he ↦ (List.not_mem_nil he).elim) fun _ _ he ↦ (List.not_mem_nil he).elim
  have hle := h.epochs payload hmem
  have heq : payload.emittingEpoch = host.epoch + 1 := hepoch
  omega

theorem others_replaceRoomRecord {record : Option ClientRoomRecord} {updated : ClientRoomRecord}
    (h : Untouched updated record) :
    (replaceRoomRecord record updated).map ClientRoomRecord.others =
      record.map ClientRoomRecord.others := by
  obtain ⟨hdeleted, hsame⟩ := h
  rw [replaceRoomRecord, hdeleted]
  cases record with
  | none => rfl
  | some room =>
    show some (RoomRecord.over updated.toRoomRecord room.toRoomRecord, room.unread) =
      some (room.toRoomRecord, room.unread)
    rw [hsame room rfl]

theorem HostInv.acknowledge (h : HostInv host log) {task : ℕ} {updated : ClientRoomRecord}
    (htask : host.tasks task = some (.sent updated)) (huntouched : Untouched updated host.record)
    (hsettles : Settles host (replaceRoomRecord host.record updated)) :
    HostInv (host.acknowledge task true).1 (log ++ (host.acknowledge task true).2) := by
  unfold ConfigHost.acknowledge
  rw [htask]
  dsimp only
  rw [if_pos rfl]
  have hwritten : HostInv { host with record := replaceRoomRecord host.record updated }
      (log ++ [.stored host.record (replaceRoomRecord host.record updated)]) :=
    h.moved rfl (Nat.le_refl _) (h.settled hsettles) h.prepared
      (fun _ he ↦ by rw [List.mem_singleton.mp he]; rfl) fun before after hmem ↦ by
        obtain ⟨rfl, rfl⟩ := ConfigEvent.stored.inj (List.mem_singleton.mp hmem)
        exact others_replaceRoomRecord huntouched
  exact hwritten.silently fun _ _ hnone ↦ (Option.some_ne_none _ hnone.symm).elim

/-- The saved configuration is looked at when the record has lost its own. -/
theorem ConfigHost.view_persisted {payload : RoomConfigPayload} (hvalid : payload.isValid = true)
    {old base : RoomSettings × ℕ} (hold : old ∈ host.view)
    (hbase : base ∈ { host with persisted := some payload }.view) :
    base = old ∨ base = (payload.toRoomSettings, payload.configRevision) := by
  unfold ConfigHost.view at hold hbase
  dsimp only at hbase
  cases hrecord : host.record with
  | none =>
    rw [hrecord] at hold
    exact (Option.not_mem_none _ hold).elim
  | some room =>
    rw [hrecord, Option.bind_some] at hold hbase
    by_cases hpath : room.config.projectPath ≠ ""
    · rw [resolveRoomConfigForPublish, if_pos hpath] at hold hbase
      exact .inl (Option.mem_unique hbase hold)
    · have hsaved : (some payload).filter (·.isValid) = some payload :=
        Option.filter_eq_some_iff.mpr ⟨rfl, hvalid⟩
      rw [resolveRoomConfigForPublish, if_neg hpath, hsaved] at hbase
      exact .inr (Option.some.inj hbase).symm

/-- The settings at hand are encrypted under their revision or the next one. -/
theorem HostInv.encrypt (h : HostInv host log) {task : ℕ} {room : ClientRoomRecord}
    {payload : RoomConfigPayload} (htask : host.tasks task = some (.prepared room payload))
    (hcurrent : Current host payload) (encrypts : Bool) :
    HostInv (host.encrypt task encrypts).1 (log ++ (host.encrypt task encrypts).2) := by
  have hvalid := h.prepared task room payload htask
  obtain ⟨old, hold, hsettings, hrevision⟩ := hcurrent
  have hview : ∀ base ∈ { host with persisted := some payload }.view,
      base.1 = old.1 ∧ old.2 ≤ base.2 := by
    intro base hbase
    rcases ConfigHost.view_persisted hvalid hold hbase with rfl | rfl
    · exact ⟨rfl, Nat.le_refl _⟩
    · refine ⟨hsettings, ?_⟩
      show old.2 ≤ payload.configRevision
      omega
  have hahead : ∀ base ∈ { host with persisted := some payload }.view, ∀ other ∈ host.encrypted,
      other.emittingEpoch = host.epoch → other.configRevision ≤ base.2 + 1 ∧
        (base.2 ≤ other.configRevision → other.toRoomSettings = base.1) := by
    intro base hbase other hmem hepoch
    obtain ⟨hsame, hle⟩ := hview base hbase
    obtain ⟨hone, hat⟩ := h.ahead old hold other hmem hepoch
    exact ⟨by omega, fun hge ↦ hsame ▸ hat (by omega)⟩
  have hsaved : HostInv { host with persisted := some payload } (log ++ []) :=
    h.moved rfl (Nat.le_refl _) hahead h.prepared (fun _ he ↦ (List.not_mem_nil he).elim)
      fun _ _ he ↦ (List.not_mem_nil he).elim
  rw [List.append_nil] at hsaved
  unfold ConfigHost.encrypt
  rw [htask]
  dsimp only
  split
  · exact h.fails task
  · rename_i hnative
    have hepoch : payload.emittingEpoch = host.epoch := by
      simp only [Bool.or_eq_true, decide_eq_true_eq, not_or, not_not] at hnative
      exact hnative.2
    cases encrypts with
    | false => exact hsaved.fails task
    | true =>
      -- an earlier snapshot with the same revision has the settings at hand, too
      have hsame : ∀ other ∈ host.encrypted, other.rank = payload.rank →
          other.toRoomSettings = payload.toRoomSettings := by
        intro other hmem hrank
        obtain ⟨hepochs, hrevisions⟩ := Prod.mk.inj (toLex.injective hrank)
        obtain ⟨-, hat⟩ := h.ahead old hold other hmem (hepochs.trans hepoch)
        exact (hat (by omega)).trans hsettings.symm
      generalize henvelope : ({
        senderUserId := host.userId, senderDeviceId := host.deviceId, epochHint := host.epoch
        payload := some payload } : ConfigEnvelope) = envelope
      have hsnapshot : envelope.snapshot = some payload := by
        subst henvelope
        exact ConfigEnvelope.snapshot_eq_some.mpr ⟨rfl, hvalid, hepoch⟩
      have hpublished : HostInv
          { host with persisted := some payload, encrypted := host.encrypted ++ [payload] }
          (log ++ [.published envelope payload]) := by
        refine ⟨?_, fun envelope' other hmem ↦ ?_, ?_, ?_, ?_, h.prepared, fun before after hmem ↦ ?_⟩
        · rw [List.filterMap_append, h.published]
          rfl
        · rcases List.mem_append.mp hmem with hmem | hmem
          · exact h.envelopes envelope' other hmem
          · obtain ⟨rfl, rfl⟩ := ConfigEvent.published.inj (List.mem_singleton.mp hmem)
            exact hsnapshot
        · intro other hmem
          rcases List.mem_append.mp hmem with hmem | hmem
          · exact h.epochs other hmem
          · rw [List.mem_singleton.mp hmem]
            exact hepoch.le
        · intro first hfirst second hsecond hrank
          rcases List.mem_append.mp hfirst with hfirst | hfirst <;>
            rcases List.mem_append.mp hsecond with hsecond | hsecond
          · exact h.unique first hfirst second hsecond hrank
          · rw [List.mem_singleton.mp hsecond] at hrank ⊢
            exact hsame first hfirst hrank
          · rw [List.mem_singleton.mp hfirst] at hrank ⊢
            exact (hsame second hsecond hrank.symm).symm
          · rw [List.mem_singleton.mp hfirst, List.mem_singleton.mp hsecond]
        · intro base hbase other hmem hother
          rcases List.mem_append.mp hmem with hmem | hmem
          · exact hahead base hbase other hmem hother
          · rw [List.mem_singleton.mp hmem]
            obtain ⟨hbases, hle⟩ := hview base hbase
            exact ⟨by omega, fun _ ↦ hsettings.trans hbases.symm⟩
        · rcases List.mem_append.mp hmem with hmem | hmem
          · exact h.stored before after hmem
          · exact ConfigEvent.noConfusion (List.mem_singleton.mp hmem)
      exact hpublished.silently fun _ _ heq ↦ by cases heq

/-! ### The run -/

structure SystemInv (s : ConfigSystem) (log : List ConfigEvent) : Prop where
  host : HostInv s.host log
  member : ∀ room, s.member = some room → MemberInv room (log.filterMap deliveredOf)

variable {s : ConfigSystem}

theorem SystemInv.agreement (h : SystemInv s log) : ConfigAgreement s log where
  latest room hroom _ hmem := (h.member room hroom).latest hmem
  unique := h.host.published ▸ h.host.unique
  accepted envelope payload hmem room hdeleted hhost := by
    refine ⟨_, routeRoomConfig_snapshot hdeleted hhost (h.host.envelopes envelope payload hmem), ?_⟩
    split
    · exact ⟨le_refl _, fun _ ↦ applied_config room payload⟩
    · rename_i hold
      exact ⟨not_lt.mp hold, fun hnewer ↦ (hold hnewer).elim⟩
  keepsOthers := h.host.stored

/-- A step of the host delivers nothing. -/
theorem SystemInv.ofHost (h : SystemInv s log) {r : ConfigHost × List ConfigEvent}
    (hhost : HostInv r.1 (log ++ r.2)) (hquiet : ∀ e ∈ r.2, deliveredOf e = none) :
    SystemInv (s.ofHost r).1 (log ++ (s.ofHost r).2) := by
  refine ⟨hhost, fun room hroom ↦ ?_⟩
  show MemberInv room ((log ++ r.2).filterMap deliveredOf)
  rw [List.filterMap_append, List.filterMap_eq_nil_iff.mpr hquiet, List.append_nil]
  exact h.member room hroom

theorem SystemInv.deliver (h : SystemInv s log) {envelope : ConfigEnvelope}
    (hP : Orderly s (.deliver envelope)) :
    SystemInv { s with member := routeRoomConfig s.member envelope } (log ++ [.delivered envelope]) := by
  have hhost : HostInv s.host (log ++ [.delivered envelope]) :=
    h.host.moved rfl (Nat.le_refl _) h.host.ahead h.host.prepared
      (fun _ he ↦ by rw [List.mem_singleton.mp he]; rfl)
      fun _ _ hmem ↦ ConfigEvent.noConfusion (List.mem_singleton.mp hmem)
  have hreceived : (log ++ [ConfigEvent.delivered envelope]).filterMap deliveredOf =
      log.filterMap deliveredOf ++ envelope.snapshot.toList := by
    rw [List.filterMap_append]
    cases hsnapshot : envelope.snapshot <;> simp [deliveredOf, hsnapshot]
  refine ⟨hhost, fun room hroom ↦ ?_⟩
  dsimp only at hroom
  rw [hreceived]
  cases hsnapshot : envelope.snapshot with
  | none =>
    rw [routeRoomConfig_other _ hsnapshot] at hroom
    rw [Option.toList_none, List.append_nil]
    exact h.member room hroom
  | some payload =>
    cases hmember : s.member with
    | none =>
      rw [hmember] at hroom
      unfold routeRoomConfig at hroom
      split at hroom <;> contradiction
    | some old =>
      obtain ⟨room', heq, hinv⟩ := (h.member old hmember).deliver hsnapshot (hP old hmember)
      rw [hmember, heq] at hroom
      rw [← Option.some.inj hroom]
      exact hinv

theorem SystemInv.relayUpdate (h : SystemInv s log) (room : RoomRecord) :
    SystemInv { s with member := s.relayUpdate room } (log ++ []) := by
  rw [List.append_nil]
  refine ⟨h.host, fun updated hupdated ↦ ?_⟩
  dsimp only [ConfigSystem.relayUpdate] at hupdated
  split at hupdated
  · exact (Option.some_ne_none _ hupdated.symm).elim
  · rename_i hdeleted
    obtain ⟨old, hold, rfl⟩ := Option.map_eq_some_iff.mp hupdated
    exact (h.member old hold).relayUpdate (Option.not_isSome_iff_eq_none.mp hdeleted)

theorem delivered_fails (task : ℕ) : ∀ e ∈ (host.fails task).2, deliveredOf e = none :=
  fun e he ↦ by rw [List.mem_singleton.mp he]; rfl

theorem SystemInv.step (h : SystemInv s log) (action : ConfigAction) (hP : Orderly s action) :
    SystemInv (s.step action).1 (log ++ (s.step action).2) := by
  cases action with
  | update record =>
    exact h.ofHost (r := ({ s.host with record }, [])) (h.host.update hP) (by simp)
  | commit =>
    exact h.ofHost (r := ({ s.host with epoch := s.host.epoch + 1 }, [])) h.host.commit (by simp)
  | publish task room incrementRevision =>
    refine h.ofHost (h.host.publish task room incrementRevision) ?_
    unfold ConfigHost.publish
    split <;> simp
  | resolve task =>
    refine h.ofHost (h.host.resolve task) ?_
    unfold ConfigHost.resolve
    split
    · split
      · simp
      · exact delivered_fails task
    · simp
  | readEpoch task =>
    refine h.ofHost (h.host.readEpoch task) ?_
    unfold ConfigHost.readEpoch
    split
    · dsimp only
      generalize roomConfigPayload _ s.host.epoch _ = made
      split
      · simp
      · exact delivered_fails task
    · simp
  | encrypt task encrypts =>
    refine h.ofHost ?_ ?_
    · dsimp only [Orderly] at hP
      split at hP
      · rename_i room payload htask
        exact h.host.encrypt htask hP encrypts
      · rename_i hother
        unfold ConfigHost.encrypt
        split
        · rename_i room payload htask
          exact (hother room payload htask).elim
        · exact h.host.stays
    · unfold ConfigHost.encrypt
      split
      · split
        · exact delivered_fails task
        · dsimp only
          split
          · exact fun e he ↦ by rw [List.mem_singleton.mp he]; rfl
          · exact delivered_fails task
      · simp
  | acknowledge task acknowledged =>
    refine h.ofHost ?_ ?_
    · cases htask : s.host.tasks task with
      | none =>
        unfold ConfigHost.acknowledge
        rw [htask]
        exact h.host.stays
      | some state =>
        cases acknowledged with
        | true =>
          dsimp only [Orderly] at hP
          split at hP
          · rename_i updated hsent
            exact h.host.acknowledge hsent hP.1 hP.2
          · rename_i hother
            unfold ConfigHost.acknowledge
            split
            · rename_i updated hsent
              exact (hother updated hsent).elim
            · exact h.host.stays
        | false =>
          unfold ConfigHost.acknowledge
          split
          · exact h.host.fails task
          · exact h.host.stays
    · unfold ConfigHost.acknowledge
      split
      · split
        · exact fun e he ↦ by rw [List.mem_singleton.mp he]; rfl
        · exact delivered_fails task
      · simp
  | deliver envelope => exact h.deliver hP
  | relayUpdate room => exact h.relayUpdate room

theorem Fresh.inv (h : Fresh s) : SystemInv s [] where
  host :=
    { published := h.encrypted.symm
      envelopes := fun _ _ hmem ↦ (List.not_mem_nil hmem).elim
      epochs := by simp [h.encrypted]
      unique := by simp [h.encrypted]
      ahead := by simp [h.encrypted]
      prepared := fun task _ _ htask ↦ (Option.some_ne_none _ (htask.symm.trans (h.tasks task))).elim
      stored := fun _ _ hmem ↦ (List.not_mem_nil hmem).elim }
  member room hroom := by
    obtain ⟨hdeleted, hconfig⟩ := h.member room hroom
    refine ⟨hdeleted, ?_, by simp, by simp, fun hne ↦ (hne rfl).elim, fun _ ↦ ?_⟩
    · rw [hconfig]
      decide
    · rw [ClientRoomRecord.rank, hconfig]

/-- **Along orderly steps, the members agree.** -/
theorem configAgreement_run (hfresh : Fresh s) (actions : List ConfigAction)
    (h : Machine.Along ConfigSystem.step Orderly s actions) :
    ConfigAgreement (Machine.run ConfigSystem.step s actions).1
      (Machine.run ConfigSystem.step s actions).2 := by
  have hrun := Machine.run_invariant (fun _ _ action h hP ↦ h.step action hP) hfresh.inv h
  exact hrun.agreement

/-! ### An update that is lost -/

/-- A room of a host, with an approval policy. -/
def hostedRoom (approvalPolicy : ApprovalPolicy) : ClientRoomRecord where
  id := "room"
  teamId := "team"
  name := "Room"
  host := "Ada"
  hostUserId := some "github:ada"
  activeHostDeviceId := some "device-ada"
  hostStatus := .active
  approvalPolicy := approvalPolicy
  config := { projectPath := "/project", configRevision := 1, configPending := false }

def sampleSystem : ConfigSystem where
  host :=
    { userId := "github:ada", deviceId := "device-ada", record := some (hostedRoom .askEveryTurn)
      epoch := 1 }
  member := some { hostedRoom .askEveryTurn with config := {} }

theorem fresh_sampleSystem : Fresh sampleSystem := by
  refine ⟨fun _ ↦ rfl, rfl, ?_⟩
  rintro _ ⟨⟩
  exact ⟨rfl, rfl⟩

def sampleEnvelope : ConfigEnvelope where
  senderUserId := "github:ada"
  senderDeviceId := "device-ada"
  epochHint := 1
  payload := some (roomConfigPayload (hostedRoom .askEveryTurn) 1 2)

/-- A snapshot is published and delivered; in between, other code writes the record. -/
@[grind =] def publication (record : ClientRoomRecord) : List ConfigAction :=
  [.publish 0 (hostedRoom .askEveryTurn) true, .resolve 0, .readEpoch 0, .update (some record),
    .encrypt 0 true, .acknowledge 0 true, .deliver sampleEnvelope]

/-- The members agree after the publication. -/
def AgreesAfter (record : ClientRoomRecord) : Prop :=
  ConfigAgreement (Machine.run ConfigSystem.step sampleSystem (publication record)).1
    (Machine.run ConfigSystem.step sampleSystem (publication record)).2

theorem configAgreement_unchanged : AgreesAfter (hostedRoom .askEveryTurn) :=
  configAgreement_run fresh_sampleSystem (publication (hostedRoom .askEveryTurn)) (by decide)

/-- The approval policy that is set while a snapshot is published is overwritten with the old one. -/
theorem not_configAgreement_lost : ¬AgreesAfter (hostedRoom .neverHost) := by
  intro h
  have hmem : ConfigEvent.stored (some (hostedRoom .neverHost))
      (some { hostedRoom .askEveryTurn with config :=
        { (hostedRoom .askEveryTurn).config with configRevision := 2, configEpoch := 1 } }) ∈
      (Machine.run ConfigSystem.step sampleSystem (publication (hostedRoom .neverHost))).2 := by
    decide
  exact absurd (h.keepsOthers _ _ hmem) (by decide)

end MultAIplayer.Desktop
